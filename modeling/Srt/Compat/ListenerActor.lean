/-
# `ListenerActor` — the listener's handshake actor never loses a wakeup

`HandshakeInbox` (`src/compat/transport_runtime.cpp`), `ListenerHandshakeEventSource`
and `ListenerHandshakeActor` (`src/compat/listener_handshake_sources.cpp`), with one
step for each section that runs under a lock.  The threads are those that push
datagrams, the shard's tasks, and the consumers of the results; calls that have
left one lock and not yet taken the next are counted.

One marker goes round: from the request that claims `inbox_pending_` through the
shard's queue and the source's ring into `process_inbox`, and on to the
acknowledgement or to the admission it published.  Everything rests on there
being one (`token`) and on somebody being about to look at a non-empty inbox that
has none (`watched`).

The scheduler accepts every task, and nobody closes the actor.
-/
import Srt.Lib.System
import Mathlib.Tactic.Common

namespace Srt.ListenerActor

inductive AdmissionStepKind
  | ignore
  | send
  | admitted
  deriving DecidableEq, Repr

/-- A step and the datagram it answers, by order of arrival. -/
structure Result where
  datagram : Nat
  kind : AdmissionStepKind
  deriving DecidableEq, Repr

def Result.admission (r : Result) : Bool := r.kind == .admitted

/-- Where the thread that executes `run` stands. -/
inductive Turn
  | idle
  | begin
  | drain
  | process
  | publish (step : Result)
  | clear
  | check
  | request
  | submit
  | finish
  deriving DecidableEq, Repr

structure Actor where
  resultCapacity : Nat
  inboxCapacity : Nat
  /-- `HandshakeInbox` -/
  inbox : List Nat := []
  arrived : Nat := 0
  /-- `ListenerHandshakeEventSource` -/
  inboxPending : Bool := false
  events : Nat := 0
  sourceFailure : Bool := false
  stopped : Bool := false
  /-- `ListenerHandshakeActor` -/
  results : List Result := []
  droppedResponses : Nat := 0
  pending : Bool := false
  scheduled : Bool := false
  admissionPending : Bool := false
  terminal : Bool := false
  /-- calls between two locks, and the tasks of the shard -/
  clearing : Nat := 0
  checking : Nat := 0
  requesting : Nat := 0
  submitting : Nat := 0
  markerTasks : Nat := 0
  notifying : Nat := 0
  submittingRun : Nat := 0
  runTasks : Nat := 0
  turn : Turn := .idle
  /-- what has been published, taken and completed -/
  published : List Result := []
  popped : List Result := []
  completed : Nat := 0
  deriving DecidableEq, Repr

namespace Actor

variable (a : Actor)

/-! ## The inbox and the source -/

/-- `push`: the datagram that makes the inbox ready calls the handler behind the lock. -/
def push : Actor :=
  if a.inbox.length = a.inboxCapacity then a
  else { a with
    inbox := a.inbox ++ [a.arrived]
    arrived := a.arrived + 1
    requesting := if a.inbox = [] then a.requesting + 1 else a.requesting }

/-- `request_inbox` under its lock: whether the call goes on to submit. -/
def claims : Bool := !a.stopped && !a.inboxPending

/-- `enqueue` of the marker. -/
def enqueue : Actor :=
  if a.stopped then a
  else if a.events = 2 then { a with sourceFailure := true, events := 0 }
  else { a with events := a.events + 1 }

/-- `request_run` under its lock. -/
def requestRun : Actor :=
  if a.terminal then a
  else if a.scheduled then { a with pending := true }
  else { a with pending := true, scheduled := true, submittingRun := a.submittingRun + 1 }

/-! ## The actor -/

def finishFailure : Actor :=
  if a.terminal then a
  else { a with
    terminal := true, stopped := true, admissionPending := false
    results := [{ datagram := 0, kind := .ignore }] }

/-- The last slot is kept for an admission. -/
def sendLimit : Nat := if a.resultCapacity > 1 then a.resultCapacity - 1 else a.resultCapacity

/-- `publish_step`, and where `process_inbox` goes on. -/
def publishStep (step : Result) : Actor :=
  if a.terminal then { a with turn := .finish }
  else if step.admission = false ∧ a.results.length ≥ a.sendLimit then
    { a with droppedResponses := a.droppedResponses + 1, turn := .clear }
  else if a.results.length = a.resultCapacity ∨ (step.admission ∧ a.admissionPending) then
    { a.finishFailure with turn := .finish }
  else { a with
    results := a.results ++ [step]
    published := a.published ++ [step]
    admissionPending := step.admission
    turn := if step.admission then .drain else .clear }

/-- The next section of `run`; `kind` is what the router makes of the envelope. -/
def runStep (kind : AdmissionStepKind) : Actor :=
  match a.turn with
  | .idle =>
    if a.runTasks = 0 then a else { a with runTasks := a.runTasks - 1, turn := .begin }
  | .begin => { a with pending := false, turn := .drain }
  | .drain =>
    if a.sourceFailure then { a.finishFailure with turn := .finish }
    else if a.events = 0 then { a with turn := .finish }
    else { a with events := a.events - 1, turn := .process }
  | .process =>
    match a.inbox with
    | [] => { a with turn := .clear }
    | datagram :: inbox =>
      { a with
        inbox
        turn := if kind = .ignore then .clear else .publish { datagram, kind } }
  | .publish step => a.publishStep step
  | .clear => { a with inboxPending := false, turn := if a.stopped then .drain else .check }
  | .check => { a with turn := if a.inbox = [] then .drain else .request }
  | .request =>
    if a.claims then { a with inboxPending := true, turn := .submit }
    else { a with turn := .drain }
  | .submit => { a with markerTasks := a.markerTasks + 1, turn := .drain }
  | .finish =>
    if a.terminal then { a with scheduled := false, turn := .idle }
    else if a.pending = false then { a with scheduled := false, turn := .idle }
    else { a with turn := .begin }

def tryPop : Actor :=
  match a.results with
  | [] => a
  | r :: results => { a with results, popped := a.popped ++ [r] }

/-- `complete_admission` under its lock; the acknowledgement follows. -/
def completeAdmission : Actor :=
  if a.terminal ∨ a.admissionPending = false then a
  else { a with
    admissionPending := false, clearing := a.clearing + 1, completed := a.completed + 1 }

end Actor

inductive Event
  | push
  | clear
  | check
  | request
  | submit
  | marker
  | notify
  | submitRun
  | run (kind : AdmissionStepKind)
  | tryPop
  | completeAdmission
  deriving DecidableEq, Repr

/-- One section of one thread; a section nobody stands before does nothing. -/
def step (a : Actor) : Event → Actor
  | .push => a.push
  | .clear =>
    if a.clearing = 0 then a
    else { a with
      clearing := a.clearing - 1, inboxPending := false
      checking := if a.stopped then a.checking else a.checking + 1 }
  | .check =>
    if a.checking = 0 then a
    else { a with
      checking := a.checking - 1
      requesting := if a.inbox = [] then a.requesting else a.requesting + 1 }
  | .request =>
    if a.requesting = 0 then a
    else if a.claims then { a with
      requesting := a.requesting - 1, inboxPending := true, submitting := a.submitting + 1 }
    else { a with requesting := a.requesting - 1 }
  | .submit =>
    if a.submitting = 0 then a
    else { a with submitting := a.submitting - 1, markerTasks := a.markerTasks + 1 }
  | .marker =>
    if a.markerTasks = 0 then a
    else { a.enqueue with markerTasks := a.markerTasks - 1, notifying := a.notifying + 1 }
  | .notify =>
    if a.notifying = 0 then a else { a.requestRun with notifying := a.notifying - 1 }
  | .submitRun =>
    if a.submittingRun = 0 then a
    else { a with submittingRun := a.submittingRun - 1, runTasks := a.runTasks + 1 }
  | .run kind => a.runStep kind
  | .tryPop => a.tryPop
  | .completeAdmission => a.completeAdmission

/-- An admission is completed after its result was taken. -/
def Orderly (a : Actor) (e : Event) : Prop :=
  e = .completeAdmission → ∀ r ∈ a.results, r.admission = false

instance (a : Actor) (e : Event) : Decidable (Orderly a e) :=
  inferInstanceAs (Decidable (_ → _))

/-- The actor behind `start`, with `waiting` datagrams in its inbox. -/
def started (resultCapacity inboxCapacity waiting : Nat) : Actor :=
  { resultCapacity, inboxCapacity
    inbox := List.range waiting
    arrived := waiting
    requesting := if waiting = 0 then 0 else 1 }

def runs (resultCapacity inboxCapacity : Nat) : Lts.System Actor Event :=
  .ofFun (∃ waiting, · = started resultCapacity inboxCapacity waiting) step

/-! ## The invariant -/

namespace Turn

/-- The turn has taken the marker and has not passed it on. -/
def holds : Turn → Nat
  | .process | .publish _ | .clear | .submit => 1
  | _ => 0

/-- The turn is about to look at the inbox. -/
def watches : Turn → Nat
  | .check | .request => 1
  | _ => 0

def active : Turn → Nat
  | .idle => 0
  | _ => 1

/-- The datagram the turn has taken out of the inbox. -/
def carried : Turn → List Nat
  | .publish step => [step.datagram]
  | _ => []

end Turn

/-- Datagrams in the order they go through the actor. -/
def trail (published : List Result) (turn : Turn) (inbox : List Nat) : List Nat :=
  published.map Result.datagram ++ (turn.carried ++ inbox)

theorem trail_append (published : List Result) (turn : Turn) (inbox : List Nat) (n : Nat) :
    trail published turn (inbox ++ [n]) = trail published turn inbox ++ [n] := by
  simp only [trail, List.append_assoc]

/-- What every section keeps. -/
structure Sound (a : Actor) : Prop where
  capacity : 1 < a.resultCapacity
  /-- one marker, wherever it is -/
  token : a.clearing + a.submitting + a.markerTasks + a.events + a.turn.holds
    + a.admissionPending.toNat = a.inboxPending.toNat
  /-- one turn, queued or executing -/
  turns : a.submittingRun + a.runTasks + a.turn.active = a.scheduled.toNat
  /-- a non-empty inbox without a marker is about to be looked at -/
  watched : a.inbox ≠ [] → a.inboxPending = false → 0 < a.requesting + a.checking + a.turn.watches
  /-- a marker in the ring is about to be drained -/
  heard : 0 < a.events → 0 < a.notifying
    ∨ (a.scheduled = true ∧ (a.turn = .finish → a.pending = true))
  alive : a.terminal = false ∧ a.stopped = false ∧ a.sourceFailure = false
  room : a.results.length ≤ a.resultCapacity - 1 + a.results.countP Result.admission
  reserved : a.results.countP Result.admission ≤ a.admissionPending.toNat
  outstanding : a.published.countP Result.admission = a.completed + a.admissionPending.toNat
  order : (trail a.published a.turn a.inbox).Pairwise (· < ·)
  bounded : ∀ n ∈ trail a.published a.turn a.inbox, n < a.arrived
  kept : a.published = a.popped ++ a.results

namespace Sound

variable {a : Actor}

theorem push (h : Sound a) : Sound a.push := by
  unfold Actor.push
  split
  · exact h
  refine
    { h with
      watched := fun _ hfree => ?_
      order := ?_
      bounded := fun n hn => ?_ }
  · have hwatched := h.watched
    by_cases hempty : a.inbox = []
    · simp only [hempty, if_true]
      omega
    simp only [hempty, if_false]
    exact hwatched hempty hfree
  · rw [trail_append, List.pairwise_append]
    refine ⟨h.order, List.pairwise_singleton _ _, fun m hm n hn => ?_⟩
    rw [List.mem_singleton.1 hn]
    exact h.bounded m hm
  rw [trail_append, List.mem_append, List.mem_singleton] at hn
  rcases hn with hn | rfl
  · exact Nat.lt_succ_of_lt (h.bounded n hn)
  · exact Nat.lt_succ_self _

/-- Only one call can stand before the lock that gives the marker up. -/
theorem clear (h : Sound a) : Sound (step a .clear) := by
  have htoken := h.token
  simp only [step]
  split
  · exact h
  have hheld : a.inboxPending.toNat ≤ 1 := a.inboxPending.toNat_le
  refine
    { h with
      token := ?_
      watched := fun hinbox _ => ?_ }
  · simp only [Bool.toNat_false]
    omega
  simp only [h.alive.2.1, Bool.false_eq_true, if_false]
  omega

theorem check (h : Sound a) : Sound (step a .check) := by
  simp only [step]
  split
  · exact h
  refine { h with watched := fun hinbox hfree => ?_ }
  have hwatched := h.watched hinbox hfree
  simp only [show a.inbox ≠ [] from hinbox, if_false]
  omega

theorem request (h : Sound a) : Sound (step a .request) := by
  have htoken := h.token
  simp only [step]
  split
  · exact h
  split
  · next hclaims =>
    have hfree : a.inboxPending = false := by
      simp only [Actor.claims, Bool.and_eq_true, Bool.not_eq_true'] at hclaims
      exact hclaims.2
    refine { h with token := ?_, watched := fun _ => nofun }
    rw [hfree, Bool.toNat_false] at htoken
    simp only [Bool.toNat_true]
    omega
  next hclaims =>
  refine { h with watched := fun hinbox hfree => ?_ }
  have hfree' : a.inboxPending = false := hfree
  simp [Actor.claims, h.alive.2.1, hfree'] at hclaims

theorem submit (h : Sound a) : Sound (step a .submit) := by
  have htoken := h.token
  simp only [step]
  split
  · exact h
  refine { h with token := ?_ }
  simp only
  omega

theorem marker (h : Sound a) : Sound (step a .marker) := by
  have htoken := h.token
  have hheld : a.inboxPending.toNat ≤ 1 := a.inboxPending.toNat_le
  simp only [step]
  split
  · exact h
  have hroom : a.events ≠ 2 := by omega
  have hrunning : ¬a.stopped = true := by
    rw [h.alive.2.1]
    nofun
  simp only [Actor.enqueue, if_neg hrunning, if_neg hroom]
  refine { h with token := ?_, heard := fun _ => .inl (Nat.succ_pos _) }
  simp only
  omega

theorem notify (h : Sound a) : Sound (step a .notify) := by
  have hturns := h.turns
  simp only [step]
  split
  · exact h
  have hlive : ¬a.terminal = true := by
    rw [h.alive.1]
    nofun
  simp only [Actor.requestRun, if_neg hlive]
  split
  · next hscheduled =>
    exact { h with heard := fun _ => .inr ⟨hscheduled, fun _ => rfl⟩ }
  next hscheduled =>
  rw [Bool.eq_false_iff.2 hscheduled, Bool.toNat_false] at hturns
  refine { h with turns := ?_, heard := fun _ => .inr ⟨rfl, fun _ => rfl⟩ }
  simp only [Bool.toNat_true]
  omega

theorem submitRun (h : Sound a) : Sound (step a .submitRun) := by
  have hturns := h.turns
  simp only [step]
  split
  · exact h
  refine { h with turns := ?_ }
  simp only
  omega

theorem tryPop (h : Sound a) : Sound (step a .tryPop) := by
  have hroom := h.room
  have hreserved := h.reserved
  have hkept := h.kept
  simp only [step, Actor.tryPop]
  split
  · exact h
  next r results hresults =>
  rw [hresults] at hroom hreserved hkept
  simp only [List.length_cons, List.countP_cons] at hroom hreserved
  refine { h with room := ?_, reserved := ?_, kept := ?_ }
  · simp only
    split at hroom <;> omega
  · simp only
    omega
  · simp only [hkept, List.append_assoc, List.singleton_append]

theorem completeAdmission (h : Sound a) (hguard : Orderly a .completeAdmission) :
    Sound (step a .completeAdmission) := by
  have htoken := h.token
  have houtstanding := h.outstanding
  have hnone : a.results.countP Result.admission = 0 := by
    rw [List.countP_eq_zero]
    intro r hr
    rw [hguard rfl r hr]
    nofun
  simp only [step, Actor.completeAdmission]
  split
  · exact h
  next hpending =>
  simp only [not_or, Bool.not_eq_false] at hpending
  rw [hpending.2, Bool.toNat_true] at htoken houtstanding
  refine { h with token := ?_, reserved := ?_, outstanding := ?_ }
  all_goals
    simp only [Bool.toNat_false]
    omega

section

variable {r : Result} (h : Sound a) (hturn : a.turn = .publish r)
include h hturn

/-- The turn that carries a step holds the marker: no admission is outstanding. -/
theorem publishing :
    a.inboxPending = true ∧ a.admissionPending = false ∧ a.results.countP Result.admission = 0 := by
  have htoken := h.token
  have hreserved := h.reserved
  rw [hturn] at htoken
  simp only [Turn.holds] at htoken
  cases hpending : a.inboxPending with
  | false => rw [hpending, Bool.toNat_false] at htoken; omega
  | true =>
    rw [hpending, Bool.toNat_true] at htoken
    have hnone : a.admissionPending.toNat = 0 := by omega
    refine ⟨rfl, ?_, by omega⟩
    cases hadmission : a.admissionPending with
    | false => rfl
    | true => rw [hadmission] at hnone; cases hnone

theorem dropStep : Sound { a with droppedResponses := a.droppedResponses + 1, turn := .clear } := by
  obtain ⟨htoken, hturns, horder, hbounded⟩ := And.intro h.token
    (And.intro h.turns (And.intro h.order h.bounded))
  have hheld := (h.publishing hturn).1
  rw [hturn] at htoken hturns horder hbounded
  have hsub : (trail a.published .clear a.inbox).Sublist (trail a.published (.publish r) a.inbox) :=
    List.Sublist.append_left (List.sublist_cons_self _ _) _
  exact
    { h with
      token := htoken
      turns := hturns
      watched := fun _ hfree => by
        rw [show a.inboxPending = false from hfree] at hheld
        cases hheld
      heard := fun hevents => (h.heard hevents).imp_right fun hs => ⟨hs.1, nofun⟩
      order := horder.sublist hsub
      bounded := fun n hn => hbounded n (hsub.subset hn) }

theorem addStep (hsend : r.admission = false → a.results.length + 1 ≤ a.resultCapacity - 1) :
    Sound { a with
      results := a.results ++ [r]
      published := a.published ++ [r]
      admissionPending := r.admission
      turn := if r.admission then .drain else .clear } := by
  have hcapacity := h.capacity
  have htoken := h.token
  have hturns := h.turns
  have hroom := h.room
  have houtstanding := h.outstanding
  have horder := h.order
  have hbounded := h.bounded
  have hkept := h.kept
  obtain ⟨hheld, hpending, hnone⟩ := h.publishing hturn
  rw [hturn] at htoken hturns horder hbounded
  rw [hpending, Bool.toNat_false] at htoken houtstanding
  simp only [Turn.holds, Turn.active] at htoken hturns
  have htrail : ∀ turn : Turn, turn.carried = [] →
      trail (a.published ++ [r]) turn a.inbox = trail a.published (.publish r) a.inbox := by
    intro turn hcarried
    have htaken : (Turn.publish r).carried = [r.datagram] := rfl
    simp only [trail, hcarried, htaken, List.map_append, List.map_cons, List.map_nil,
      List.append_assoc, List.nil_append]
  have hcarried : (if r.admission = true then Turn.drain else .clear).carried = [] := by
    split <;> rfl
  refine
    { h with
      token := ?_
      turns := ?_
      watched := fun _ hfree => ?_
      heard := fun hevents => (h.heard hevents).imp_right fun hs => ⟨hs.1, ?_⟩
      room := ?_
      reserved := ?_
      outstanding := ?_
      order := ?_
      bounded := ?_
      kept := ?_ }
  · cases hadmission : r.admission <;>
      simp only [Bool.false_eq_true, if_false, if_true, Turn.holds, Bool.toNat_false,
        Bool.toNat_true] <;>
      omega
  · cases hadmission : r.admission <;>
      simp only [Bool.false_eq_true, if_false, if_true, Turn.active] <;>
      omega
  · rw [show a.inboxPending = false from hfree] at hheld
    cases hheld
  · split <;> nofun
  · simp only [List.length_append, List.length_singleton, List.countP_append, List.countP_singleton]
    cases hadmission : r.admission with
    | false =>
      have hfits := hsend hadmission
      omega
    | true =>
      simp only [if_true]
      omega
  · simp only [List.countP_append, List.countP_singleton, hnone]
    cases r.admission <;> decide
  · simp only [List.countP_append, List.countP_singleton, houtstanding]
    cases r.admission <;> simp
  · simp only [htrail _ hcarried]
    exact horder
  · simp only [htrail _ hcarried]
    exact hbounded
  · simp only [hkept, List.append_assoc]

end

theorem publishStep {r : Result} (h : Sound a) (hturn : a.turn = .publish r) :
    Sound (a.publishStep r) := by
  have hcapacity := h.capacity
  have hroom := h.room
  obtain ⟨-, hpending, hnone⟩ := h.publishing hturn
  have hlimit : a.sendLimit = a.resultCapacity - 1 := if_pos hcapacity
  have hlive : ¬a.terminal = true := by
    rw [h.alive.1]
    nofun
  unfold Actor.publishStep
  rw [if_neg hlive, hlimit]
  split
  · exact h.dropStep hturn
  next hkept =>
  have hfits : ¬(a.results.length = a.resultCapacity
      ∨ (r.admission = true ∧ a.admissionPending = true)) := by
    rw [hpending]
    simp only [Bool.false_eq_true, and_false, or_false]
    omega
  rw [if_neg hfits]
  exact h.addStep hturn fun hsend => by
    have hbelow : ¬a.results.length ≥ a.resultCapacity - 1 := fun hfull => hkept ⟨hsend, hfull⟩
    omega

section

variable {turn : Turn} (h : Sound a)
include h

/-- A turn that moves on without a datagram in its hands, and keeps what it held. -/
theorem moveOn (hholds : turn.holds = a.turn.holds) (hactive : turn.active = a.turn.active)
    (hcarried : turn.carried = a.turn.carried)
    (hwatches : a.inbox ≠ [] → a.inboxPending = false → a.turn.watches ≤ turn.watches)
    (hfinish : turn = .finish → a.events = 0 ∨ a.pending = true) : Sound { a with turn } := by
  have htrail : trail a.published turn a.inbox = trail a.published a.turn a.inbox := by
    simp only [trail, hcarried]
  refine
    { h with
      token := ?_
      turns := ?_
      watched := fun hinbox hfree => ?_
      heard := fun hevents => (h.heard hevents).imp_right fun hs => ⟨hs.1, fun hturn => ?_⟩
      order := ?_
      bounded := ?_ }
  · simp only [hholds]
    exact h.token
  · simp only [hactive]
    exact h.turns
  · have hmore := hwatches hinbox hfree
    have hwatched := h.watched hinbox hfree
    simp only
    omega
  · exact (hfinish hturn).resolve_left (Nat.ne_of_gt hevents)
  · simp only [htrail]
    exact h.order
  simp only [htrail]
  exact h.bounded

/-- The invariant, read at the turn the actor is in. -/
theorem atTurn (hturn : a.turn = turn) : Sound { a with turn } := by
  subst hturn
  exact h

theorem beginTurn (hturn : a.turn = .idle) (htask : a.runTasks ≠ 0) :
    Sound { a with runTasks := a.runTasks - 1, turn := .begin } := by
  have hidle := h.atTurn hturn
  have hturns := hidle.turns
  simp only [Turn.active] at hturns
  refine
    { hidle with
      turns := ?_
      heard := fun hevents => (h.heard hevents).imp_right fun hs => ⟨hs.1, nofun⟩ }
  simp only [Turn.active]
  omega

/-- The flag is taken back before the source is drained. -/
theorem acceptTurn (hturn : a.turn = .begin) : Sound { a with pending := false, turn := .drain } :=
  { h.atTurn hturn with
    heard := fun hevents => (h.heard hevents).imp_right fun hs => ⟨hs.1, nofun⟩ }

/-- There was one marker: the ring is empty behind it. -/
theorem takeMarker (hturn : a.turn = .drain) (hevents : a.events ≠ 0) :
    Sound { a with events := a.events - 1, turn := .process } := by
  have hheld : a.inboxPending.toNat ≤ 1 := a.inboxPending.toNat_le
  have hdrain := h.atTurn hturn
  have htoken := hdrain.token
  simp only [Turn.holds] at htoken
  refine
    { hdrain with
      token := ?_
      watched := fun _ hfree => ?_
      heard := fun hmore => ?_ }
  · simp only [Turn.holds]
    omega
  · rw [show a.inboxPending = false from hfree, Bool.toNat_false] at htoken
    omega
  have hone : 0 < a.events - 1 := hmore
  omega

theorem takeDatagram {datagram : Nat} {inbox : List Nat} (hturn : a.turn = .process)
    (hinbox : a.inbox = datagram :: inbox) (hholds : turn.holds = 1) (hactive : turn.active = 1)
    (hfinish : turn ≠ .finish) (hcarried : turn.carried = [] ∨ turn.carried = [datagram]) :
    Sound { a with inbox, turn } := by
  obtain ⟨htoken, hturns, horder, hbounded⟩ := And.intro h.token
    (And.intro h.turns (And.intro h.order h.bounded))
  rw [hturn] at htoken hturns horder hbounded
  rw [hinbox] at horder hbounded
  simp only [Turn.holds, Turn.active] at htoken hturns
  have hsub : (trail a.published turn inbox).Sublist
      (trail a.published .process (datagram :: inbox)) := by
    refine List.Sublist.append_left ?_ _
    rcases hcarried with hcarried | hcarried
    · rw [hcarried]
      exact List.sublist_cons_self _ _
    rw [hcarried]
    exact List.Sublist.refl _
  refine
    { h with
      token := ?_
      turns := ?_
      watched := fun _ hfree => ?_
      heard := fun hevents => (h.heard hevents).imp_right fun hs =>
        ⟨hs.1, fun hend => absurd hend hfinish⟩
      order := horder.sublist hsub
      bounded := fun n hn => hbounded n (hsub.subset hn) }
  · simp only [hholds]
    exact htoken
  · simp only [hactive]
    exact hturns
  rw [show a.inboxPending = false from hfree, Bool.toNat_false] at htoken
  omega

/-- The turn gives the marker up and looks at the inbox behind it. -/
theorem releaseMarker (hturn : a.turn = .clear) :
    Sound { a with inboxPending := false, turn := .check } := by
  have hheld : a.inboxPending.toNat ≤ 1 := a.inboxPending.toNat_le
  have hclear := h.atTurn hturn
  have htoken := hclear.token
  simp only [Turn.holds] at htoken
  refine
    { hclear with
      token := ?_
      watched := fun _ _ => Nat.succ_pos _
      heard := fun hevents => (h.heard hevents).imp_right fun hs => ⟨hs.1, nofun⟩ }
  simp only [Turn.holds, Bool.toNat_false]
  omega

theorem claimMarker (hturn : a.turn = .request) (hfree : a.inboxPending = false) :
    Sound { a with inboxPending := true, turn := .submit } := by
  have hrequest := h.atTurn hturn
  have htoken := hrequest.token
  simp only [hfree, Turn.holds, Bool.toNat_false] at htoken
  refine
    { hrequest with
      token := ?_
      watched := fun _ => nofun
      heard := fun hevents => (h.heard hevents).imp_right fun hs => ⟨hs.1, nofun⟩ }
  simp only [Turn.holds, Bool.toNat_true]
  omega

theorem submitMarker (hturn : a.turn = .submit) :
    Sound { a with markerTasks := a.markerTasks + 1, turn := .drain } := by
  have hsubmit := h.atTurn hturn
  have htoken := hsubmit.token
  simp only [Turn.holds] at htoken
  refine
    { hsubmit with
      token := ?_
      heard := fun hevents => (h.heard hevents).imp_right fun hs => ⟨hs.1, nofun⟩ }
  simp only [Turn.holds]
  omega

/-- A turn ends only when nobody has asked for another one. -/
theorem endTurn (hturn : a.turn = .finish) (hpending : a.pending = false) :
    Sound { a with scheduled := false, turn := .idle } := by
  have hheld : a.scheduled.toNat ≤ 1 := a.scheduled.toNat_le
  have hfinish := h.atTurn hturn
  have hturns := hfinish.turns
  simp only [Turn.active] at hturns
  refine
    { hfinish with
      turns := ?_
      heard := fun hevents => ?_ }
  · simp only [Turn.active, Bool.toNat_false]
    omega
  refine .inl ((h.heard hevents).resolve_right fun hs => ?_)
  have hasked := hs.2 hturn
  rw [hpending] at hasked
  cases hasked

end

theorem runStep (h : Sound a) (kind : AdmissionStepKind) : Sound (a.runStep kind) := by
  have hrunning : a.stopped = false := h.alive.2.1
  unfold Actor.runStep
  split
  · next hturn =>
    split
    · exact h
    · next htask => exact h.beginTurn hturn htask
  · next hturn => exact h.acceptTurn hturn
  · next hturn =>
    have hsource : ¬a.sourceFailure = true := by
      rw [h.alive.2.2]
      nofun
    rw [if_neg hsource]
    split
    · next hnone =>
      exact (h.atTurn hturn).moveOn rfl rfl rfl (fun _ _ => Nat.le_refl _) fun _ => .inl hnone
    · next hevents => exact h.takeMarker hturn hevents
  · next hturn =>
    split
    · exact (h.atTurn hturn).moveOn rfl rfl rfl (fun _ _ => Nat.le_refl _) nofun
    next datagram inbox hinbox =>
    split
    · exact h.takeDatagram hturn hinbox rfl rfl nofun (.inl rfl)
    · exact h.takeDatagram hturn hinbox rfl rfl nofun (.inr rfl)
  · next r hturn => exact h.publishStep hturn
  · next hturn =>
    rw [if_neg (by rw [hrunning]; nofun)]
    exact h.releaseMarker hturn
  · next hturn =>
    split
    · next hempty =>
      exact (h.atTurn hturn).moveOn rfl rfl rfl (fun hinbox => absurd hempty hinbox) nofun
    exact (h.atTurn hturn).moveOn rfl rfl rfl (fun _ _ => Nat.le_refl _) nofun
  · next hturn =>
    split
    · next hclaims =>
      simp only [Actor.claims, Bool.and_eq_true, Bool.not_eq_true'] at hclaims
      exact h.claimMarker hturn hclaims.2
    next hclaims =>
    -- somebody else holds the marker, so nothing needs to be watched
    have hheld : a.inboxPending = true := by simpa [Actor.claims, hrunning] using hclaims
    refine (h.atTurn hturn).moveOn rfl rfl rfl (fun _ hfree => ?_) nofun
    rw [hheld] at hfree
    cases hfree
  · next hturn => exact h.submitMarker hturn
  next hturn =>
  rw [if_neg (by rw [h.alive.1]; nofun)]
  split
  · next hpending => exact h.endTurn hturn hpending
  exact (h.atTurn hturn).moveOn rfl rfl rfl (fun _ _ => Nat.le_refl _) nofun

theorem step {e : Event} (h : Sound a) (hguard : Orderly a e) : Sound (ListenerActor.step a e) := by
  cases e with
  | push => exact h.push
  | clear => exact h.clear
  | check => exact h.check
  | request => exact h.request
  | submit => exact h.submit
  | marker => exact h.marker
  | notify => exact h.notify
  | submitRun => exact h.submitRun
  | run kind => exact h.runStep kind
  | tryPop => exact h.tryPop
  | completeAdmission => exact h.completeAdmission hguard

end Sound

theorem sound_started {n : Nat} (hn : 1 < n) (k waiting : Nat) : Sound (started n k waiting) where
  capacity := hn
  token := rfl
  turns := rfl
  watched hinbox _ := by
    have hwaiting : waiting ≠ 0 := by
      rintro rfl
      exact hinbox rfl
    simp only [started, if_neg hwaiting]
    decide
  heard := nofun
  alive := ⟨rfl, rfl, rfl⟩
  room := Nat.zero_le _
  reserved := Nat.le_refl 0
  outstanding := rfl
  order := List.pairwise_lt_range
  bounded _ hn := List.mem_range.1 hn
  kept := rfl

theorem sound_of_reaches {n k : Nat} {a : Actor} (hn : 1 < n)
    (h : Lts.Reaches (runs n k) Orderly a) : Sound a := by
  refine Lts.Reaches.invariant ?_ ?_ h
  · rintro a ⟨waiting, rfl⟩
    exact sound_started hn k waiting
  rintro a e _ - ha hguard rfl
  exact ha.step hguard

/-! ## Wakeups -/

namespace Actor

/-- Calls on their way from one lock to the next. -/
def calls (a : Actor) : Nat :=
  a.clearing + a.checking + a.requesting + a.submitting + a.notifying + a.submittingRun

/-- The shard has a task of the actor, or executes its turn. -/
def Awake (a : Actor) : Prop :=
  0 < a.markerTasks ∨ 0 < a.runTasks ∨ a.turn ≠ .idle

end Actor

theorem Turn.active_pos {turn : Turn} (h : 0 < turn.holds ∨ 0 < turn.watches ∨ 0 < turn.active) :
    turn ≠ .idle := by
  rintro rfl
  simp [holds, watches, active] at h

/-- An inbox that may be emptied has somebody on the way to it. -/
theorem Sound.awake {a : Actor} (h : Sound a) (hinbox : a.inbox ≠ [])
    (hallowed : a.admissionPending = false) : 0 < a.calls ∨ a.Awake := by
  have htoken := h.token
  unfold Actor.calls Actor.Awake
  cases hpending : a.inboxPending with
  | false =>
    have hwatched := h.watched hinbox hpending
    by_cases hturn : 0 < a.turn.watches
    · exact .inr (.inr (.inr (Turn.active_pos (.inr (.inl hturn)))))
    · exact .inl (by omega)
  | true =>
    rw [hpending, hallowed, Bool.toNat_false, Bool.toNat_true] at htoken
    by_cases hturn : 0 < a.turn.holds
    · exact .inr (.inr (.inr (Turn.active_pos (.inl hturn))))
    by_cases hevents : 0 < a.events
    · rcases h.heard hevents with hnotifying | ⟨hscheduled, -⟩
      · exact .inl (by omega)
      have hturns := h.turns
      rw [hscheduled, Bool.toNat_true] at hturns
      by_cases hactive : 0 < a.turn.active
      · exact .inr (.inr (.inr (Turn.active_pos (.inr (.inr hactive)))))
      · omega
    · omega

/-- Over every interleaving the actor stays alive, its ring never overflows, at most one
admission is outstanding, no datagram has two results, and a non-empty inbox it may process has
a turn on the way: where no call is between two locks, one is scheduled or executing. -/
theorem no_wakeup_is_lost {n k : Nat} (hn : 1 < n) {a : Actor}
    (h : Lts.Reaches (runs n k) Orderly a) :
    a.terminal = false ∧ a.results.length ≤ a.resultCapacity
      ∧ a.published.countP Result.admission ≤ a.completed + 1
      ∧ (a.published.map Result.datagram).Nodup ∧ a.published = a.popped ++ a.results
      ∧ (a.inbox ≠ [] → a.admissionPending = false → 0 < a.calls ∨ a.Awake) := by
  have hsound := sound_of_reaches hn h
  have hcapacity := hsound.capacity
  have hroom := hsound.room
  have hreserved := hsound.reserved
  have houtstanding := hsound.outstanding
  have hpending : a.admissionPending.toNat ≤ 1 := a.admissionPending.toNat_le
  refine ⟨hsound.alive.1, by omega, by omega, ?_, hsound.kept, hsound.awake⟩
  have horder := (List.pairwise_append.1 hsound.order).1
  exact horder.imp Nat.ne_of_lt

/-- A response and an admission are published; a third datagram waits for the completion. -/
def exampleRun : List Event :=
  [.push, .request, .submit, .marker, .notify, .submitRun, .run .send, .run .send, .run .send,
    .run .send, .run .send, .push, .run .send, .run .send, .run .send, .run .send, .run .send,
    .marker, .notify, .run .admitted, .run .admitted, .run .admitted, .run .admitted,
    .run .admitted, .push, .tryPop, .tryPop, .completeAdmission]

def exampleActor : Actor := exampleRun.foldl step (started 2 8 0)

theorem no_wakeup_is_lost_exampleActor :
    exampleActor.inbox = [2] ∧ exampleActor.popped.length = 2
      ∧ exampleActor.admissionPending = false
      ∧ (0 < exampleActor.calls ∨ exampleActor.Awake) := by
  have hstart : Lts.Reaches (runs 2 8) Orderly (started 2 8 0) := .start ⟨0, rfl⟩
  have hreached : Lts.Reaches (runs 2 8) Orderly exampleActor := hstart.foldl (by decide +kernel)
  have hawake := (no_wakeup_is_lost (by decide) hreached).2.2.2.2.2
  have hinbox : exampleActor.inbox = [2] := by decide +kernel
  refine ⟨hinbox, by decide +kernel, by decide +kernel, hawake ?_ (by decide +kernel)⟩
  rw [hinbox]
  nofun

end Srt.ListenerActor
