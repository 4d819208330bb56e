/-
# `Timing.StandbyRtt` — round trips of standby paths

`StandbyRttMeasurement` of `src/standby_rtt.cpp`.  One probe is outstanding at a
time.  Its echo may overtake the completion of its send; it is parked then, and
judged by the deadline the completion sets.

The record keeps the calls of a run with the probes and samples they led to.
While a probe is outstanding the members say which calls they come from
(`Traced`), and every call is judged by what it makes of that (`Sound.become`).
-/
import Srt.Handshake.Message
import Srt.Lib.System

namespace Srt

inductive StandbyRttKind
  | request | echo
  deriving DecidableEq, Repr

structure StandbyRttMessage where
  identity : StandbyRttIdentity := {}
  probeId : Nat := 0
  kind : StandbyRttKind := .request
  callerInitiated : Bool := true
  deriving DecidableEq, Repr

/-- `valid_message`. -/
def StandbyRttMessage.valid (message : StandbyRttMessage) : Bool :=
  message.identity.isPair && message.probeId != 0

inductive StandbyRttOutcome
  | none | pending | measured | timeout | sendSkipped | paused | idExhausted
  deriving DecidableEq, Repr

/-- The members, with those of the sample among them; `earlyEcho` is
`early_echo_` if `has_early_echo_` is set. -/
structure StandbyRttMeasurement where
  identity : StandbyRttIdentity := {}
  generation : Nat := 0
  nextId : Nat := 1
  nextDue : Nat := 0
  pendingId : Nat := 0
  preparedAt : Nat := 0
  sentAt : Nat := 0
  deadline : Nat := 0
  idleDeadline : Nat := 0
  earlyEcho : Option Nat := none
  lastSampleAt : Nat := 0
  nextEchoDue : Nat := 0
  roundTrip : Nat := 0
  samples : Nat := 0
  outcome : StandbyRttOutcome := .none
  live : Bool := false
  sent : Bool := false
  localCaller : Bool := true
  deriving DecidableEq, Repr

namespace StandbyRttMeasurement

def after (now delay : Nat) : Nat :=
  if 2 ^ 64 - 1 - delay < now then 2 ^ 64 - 1 else now + delay

def configure (identity : StandbyRttIdentity) (generation firstDue firstProbeId : Nat)
    (localCaller : Bool) : Except Error StandbyRttMeasurement :=
  if !identity.isPair ∨ generation = 0 ∨ firstProbeId = 0 then .error .invalidState
  else .ok { identity, generation, nextDue := firstDue, nextId := firstProbeId, live := true,
             localCaller }

def pause (m : StandbyRttMeasurement) : StandbyRttMeasurement :=
  { m with outcome := if m.pendingId ≠ 0 then .paused else m.outcome, pendingId := 0 }

def expire (m : StandbyRttMeasurement) (now : Nat) : StandbyRttMeasurement :=
  if m.pendingId ≠ 0 ∧ m.deadline ≤ now then
    { m with outcome := if m.sent then .timeout else .sendSkipped, pendingId := 0 }
  else m

def prepareRequest (m : StandbyRttMeasurement) (now idleDeadline generation : Nat)
    (eligible : Bool) : Option StandbyRttMessage × StandbyRttMeasurement :=
  if generation ≠ m.generation ∨ !m.live then (none, m)
  else if !eligible then (none, m.pause)
  else
    let m := m.expire now
    if m.pendingId ≠ 0 ∨ now < m.nextDue ∨ idleDeadline ≤ now then (none, m)
    else if m.nextId = 2 ^ 64 - 1 then (none, { m with outcome := .idExhausted })
    else
      (some { identity := m.identity, probeId := m.nextId, callerInitiated := m.localCaller },
        { m with
          pendingId := m.nextId
          nextId := (m.nextId + 1) % 2 ^ 64
          preparedAt := now
          idleDeadline
          deadline := min idleDeadline (after now 2000000)
          nextDue := after now 1000000
          sent := false
          earlyEcho := none
          outcome := .pending })

def recordEcho (m : StandbyRttMeasurement) (arrival : Nat) : StandbyRttMeasurement :=
  if arrival ≤ m.sentAt then { m with pendingId := 0, outcome := .sendSkipped }
  else if arrival < m.deadline then
    { m with
      roundTrip := arrival - m.sentAt
      lastSampleAt := arrival
      samples := if m.samples ≠ 2 ^ 64 - 1 then m.samples + 1 else m.samples
      outcome := .measured
      pendingId := 0 }
  else m

def finishSend (m : StandbyRttMeasurement) (probeId generation : Nat) (accepted : Option Nat) :
    StandbyRttMeasurement :=
  if !m.live ∨ generation ≠ m.generation ∨ probeId = 0 ∨ probeId ≠ m.pendingId ∨ m.sent then m
  else
    match accepted.filter fun time => m.preparedAt ≤ time ∧ time < m.deadline with
    | none => { m with pendingId := 0, outcome := .sendSkipped }
    | some time =>
      let m := { m with
        sentAt := time
        nextDue := max m.nextDue (after time 1000000)
        deadline := min m.idleDeadline (after time 2000000)
        sent := true }
      match m.earlyEcho with
      | none => m
      | some arrival => m.recordEcho arrival

def receiveEcho (m : StandbyRttMeasurement) (message : StandbyRttMessage)
    (arrival generation : Nat) (live : Bool) : StandbyRttMeasurement :=
  if !m.live ∨ !live ∨ generation ≠ m.generation ∨ message.kind ≠ .echo
      ∨ message.callerInitiated ≠ m.localCaller ∨ message.identity ≠ m.identity
      ∨ m.pendingId = 0 ∨ message.probeId ≠ m.pendingId then m
  else if arrival < m.preparedAt then m
  else if m.deadline ≤ arrival then m.expire arrival
  else if m.sent then m.recordEcho arrival
  else { m with earlyEcho := m.earlyEcho.or (some arrival) }

def makeEcho (m : StandbyRttMeasurement) (message : StandbyRttMessage) (now generation : Nat)
    (live budget : Bool) : Option StandbyRttMessage × StandbyRttMeasurement :=
  if !m.live ∨ !live ∨ now = 2 ^ 64 - 1 ∨ generation ≠ m.generation ∨ !budget ∨ !message.valid
      ∨ message.kind ≠ .request ∨ message.callerInitiated = m.localCaller
      ∨ message.identity ≠ m.identity ∨ now < m.nextEchoDue then (none, m)
  else (some { message with kind := .echo }, { m with nextEchoDue := after now 1000000 })

/-! ## Runs -/

inductive Call
  | prepareRequest (now idleDeadline generation : Nat) (eligible : Bool)
  | finishSend (probeId generation : Nat) (accepted : Option Nat)
  | receiveEcho (message : StandbyRttMessage) (arrival generation : Nat) (live : Bool)
  | expire (now : Nat)
  | pause
  | makeEcho (message : StandbyRttMessage) (now generation : Nat) (live budget : Bool)
  deriving DecidableEq, Repr

/-- The request a call prepares, and what it leaves. -/
def apply (m : StandbyRttMeasurement) : Call → Option StandbyRttMessage × StandbyRttMeasurement
  | .prepareRequest now idle generation eligible => m.prepareRequest now idle generation eligible
  | .finishSend id generation accepted => (none, m.finishSend id generation accepted)
  | .receiveEcho message arrival generation live =>
    (none, m.receiveEcho message arrival generation live)
  | .expire now => (none, m.expire now)
  | .pause => (none, m.pause)
  | .makeEcho message now generation live budget =>
    (none, (m.makeEcho message now generation live budget).2)

structure Sample where
  probe : Nat
  roundTrip : Nat
  arrival : Nat
  deriving DecidableEq, Repr

/-- A measurement with its calls, the probes with their idle deadlines, and the
samples, each the newest first. -/
structure Record where
  state : StandbyRttMeasurement
  calls : List Call := []
  probes : List (Nat × Nat) := []
  samples : List Sample := []
  deriving DecidableEq, Repr

/-- A call leaves `m`.  It has recorded a sample if it ends the probe as
measured: whatever else ends one says so. -/
def Record.become (x : Record) (c : Call) (m : StandbyRttMeasurement) : Record :=
  { x with
    state := m
    calls := c :: x.calls
    samples := if x.state.pendingId ≠ 0 ∧ m.pendingId = 0 ∧ m.outcome = .measured then
      ⟨x.state.pendingId, m.roundTrip, m.lastSampleAt⟩ :: x.samples else x.samples }

def Record.step (x : Record) (c : Call) : Record :=
  let (request, m) := x.state.apply c
  { x.become c m with
    probes := (request.map fun r => (r.probeId, m.idleDeadline)).toList ++ x.probes }

/-- Runs of a configured measurement. -/
def system : Lts.System Record Call :=
  .ofFun (fun x => ∃ identity generation due first localCaller m, first < 2 ^ 64
    ∧ configure identity generation due first localCaller = .ok m ∧ x = ⟨m, [], [], []⟩)
    Record.step

/-- The calls have an echo of the probe `id` that arrived at `arrival`. -/
def Echoed (calls : List Call) (identity : StandbyRttIdentity) (id arrival : Nat) : Prop :=
  ∃ message generation, .receiveEcho message arrival generation true ∈ calls
    ∧ message.kind = .echo ∧ message.identity = identity ∧ message.probeId = id

/-- The calls have a completion of the probe `id` that was accepted at `time`. -/
def Accepted (calls : List Call) (id time : Nat) : Prop :=
  ∃ generation, .finishSend id generation (some time) ∈ calls

/-- The sample is the time from the acceptance of its probe to an echo of it,
which came before the deadline. -/
def Genuine (x : Record) (s : Sample) : Prop :=
  ∃ time idle, (s.probe, idle) ∈ x.probes ∧ Accepted x.calls s.probe time
    ∧ Echoed x.calls x.state.identity s.probe s.arrival
    ∧ s.roundTrip = s.arrival - time ∧ time < s.arrival
    ∧ s.arrival < min idle (after time 2000000)

/-! ## Invariant -/

/-- Where the members of an outstanding probe come from. -/
structure Traced (x : Record) : Prop where
  pending : (x.state.pendingId, x.state.idleDeadline) ∈ x.probes
  sent : x.state.sent = true → Accepted x.calls x.state.pendingId x.state.sentAt
    ∧ x.state.deadline = min x.state.idleDeadline (after x.state.sentAt 2000000)
  early : ∀ arrival ∈ x.state.earlyEcho,
    Echoed x.calls x.state.identity x.state.pendingId arrival
  fresh : ∀ s ∈ x.samples, s.probe ≠ x.state.pendingId

structure Sound (x : Record) : Prop where
  shown : x.state.roundTrip = x.samples.head?.elim 0 Sample.roundTrip
  next : 0 < x.state.nextId ∧ x.state.nextId < 2 ^ 64
  probes : ∀ p ∈ x.probes, p.1 < x.state.nextId
  unique : (x.probes.map Prod.fst).Nodup
  once : (x.samples.map Sample.probe).Nodup
  genuine : ∀ s ∈ x.samples, Genuine x s
  traced : x.state.pendingId ≠ 0 → Traced x

theorem Echoed.mono {calls calls' : List Call} {identity : StandbyRttIdentity} {id arrival : Nat}
    (h : Echoed calls identity id arrival) (hcalls : calls ⊆ calls') :
    Echoed calls' identity id arrival := by
  obtain ⟨message, generation, hmem, hecho⟩ := h
  exact ⟨message, generation, hcalls hmem, hecho⟩

theorem Accepted.mono {calls calls' : List Call} {id time : Nat} (h : Accepted calls id time)
    (hcalls : calls ⊆ calls') : Accepted calls' id time := by
  obtain ⟨generation, hmem⟩ := h
  exact ⟨generation, hcalls hmem⟩

theorem Genuine.mono {x y : Record} {s : Sample} (h : Genuine x s) (hprobes : x.probes ⊆ y.probes)
    (hcalls : x.calls ⊆ y.calls) (hid : y.state.identity = x.state.identity) : Genuine y s := by
  obtain ⟨time, idle, hprobe, haccepted, hechoed, hrest⟩ := h
  exact ⟨time, idle, hprobes hprobe, haccepted.mono hcalls, hid ▸ hechoed.mono hcalls, hrest⟩

variable {x : Record} {c : Call} {m : StandbyRttMeasurement}

/-- The record of a call that recorded no sample. -/
abbrev Record.silent (x : Record) (c : Call) (m : StandbyRttMeasurement) : Record :=
  { x with state := m, calls := c :: x.calls }

theorem Traced.later (h : Traced x) (due : Nat) :
    Traced (x.silent c { x.state with nextEchoDue := due }) :=
  ⟨h.pending, fun hs => ⟨(h.sent hs).1.mono (List.subset_cons_self ..), (h.sent hs).2⟩,
    fun a ha => (h.early a ha).mono (List.subset_cons_self ..), h.fresh⟩

/-- A call that is no request is sound if it drops the probe, keeps it traced or
measures it from what is traced. -/
theorem Sound.become (h : Sound x) (hid : m.identity = x.state.identity)
    (hnext : m.nextId = x.state.nextId) (hkept : m.pendingId ≠ 0 → Traced (x.silent c m))
    (hshown : m.roundTrip = x.state.roundTrip ∨ x.state.pendingId ≠ 0 ∧ m.pendingId = 0 ∧ m.outcome
      = .measured)
    (hsample : x.state.pendingId ≠ 0 → m.pendingId = 0 → m.outcome = .measured → Genuine (x.silent
      c m) ⟨x.state.pendingId, m.roundTrip, m.lastSampleAt⟩) : Sound (x.become c m) := by
  have hgenuine : ∀ s ∈ x.samples, Genuine (x.silent c m) s := fun s hs =>
    (h.genuine s hs).mono (List.Subset.refl _) (List.subset_cons_self ..) hid
  unfold Record.become
  split
  next hmeasured =>
    have hnew := hsample hmeasured.1 hmeasured.2.1 hmeasured.2.2
    refine ⟨rfl, hnext ▸ h.next, hnext ▸ h.probes, h.unique,
      List.nodup_cons.2 ⟨fun hmem => ?_, h.once⟩, List.forall_mem_cons.2 ⟨hnew, hgenuine⟩,
      fun hp => absurd hmeasured.2.1 hp⟩
    obtain ⟨s, hs, heq⟩ := List.mem_map.1 hmem
    exact (h.traced hmeasured.1).fresh s hs heq
  next hno =>
    exact ⟨(hshown.resolve_right hno).trans h.shown, hnext ▸ h.next, hnext ▸ h.probes, h.unique,
      h.once, hgenuine, hkept⟩

theorem Sound.become_same (h : Sound x) (due : Nat) :
    Sound (x.become c { x.state with nextEchoDue := due }) :=
  h.become rfl rfl (fun hp => (h.traced hp).later due) (.inl rfl) fun hp hm => absurd hm hp

/-- A call that drops the probe for another reason than a measurement. -/
theorem Sound.become_dropped (h : Sound x) (hid : m.identity = x.state.identity)
    (hnext : m.nextId = x.state.nextId) (hshown : m.roundTrip = x.state.roundTrip)
    (hpending : m.pendingId = 0) (hwhy : x.state.pendingId ≠ 0 → m.outcome ≠ .measured) :
    Sound (x.become c m) :=
  h.become hid hnext (fun hp => absurd hpending hp) (.inl hshown) fun hp _ ho => absurd ho (hwhy hp)

theorem Sound.pause (h : Sound x) : Sound (x.become c x.state.pause) := by
  refine h.become_dropped rfl rfl rfl rfl fun hp => ?_
  simp [StandbyRttMeasurement.pause, hp]

theorem expire_fixed (m : StandbyRttMeasurement) (now : Nat) :
    (m.expire now).identity = m.identity ∧ (m.expire now).nextId = m.nextId
      ∧ (m.expire now).roundTrip = m.roundTrip := by
  fun_cases StandbyRttMeasurement.expire <;> exact ⟨rfl, rfl, rfl⟩

section

variable (h : Sound x)
include h

theorem Sound.expire (now : Nat) : Sound (x.become c (x.state.expire now)) := by
  fun_cases StandbyRttMeasurement.expire
  · refine h.become_dropped rfl rfl rfl rfl fun _ => ?_
    dsimp only
    split <;> simp
  · exact h.become_same _

/-- What is recorded of an echo that the calls have, once the send completed. -/
theorem Sound.recordEcho (htraced : Traced (x.silent c m)) (hid : m.identity = x.state.identity)
    (hnext : m.nextId = x.state.nextId) (hpending : m.pendingId = x.state.pendingId)
    (hp : x.state.pendingId ≠ 0) (hshown : m.roundTrip = x.state.roundTrip) (hsent : m.sent = true)
    {arrival : Nat} (hecho : Echoed (c :: x.calls) m.identity m.pendingId arrival) :
    Sound (x.become c (m.recordEcho arrival)) := by
  fun_cases StandbyRttMeasurement.recordEcho
  case case1 => exact h.become_dropped hid hnext hshown rfl fun _ => by simp
  case case2 hlate hbefore =>
    refine h.become hid hnext (fun hp => absurd rfl hp) (.inr ⟨hp, rfl, rfl⟩) fun _ _ _ => ?_
    obtain ⟨haccepted, hdeadline⟩ := htraced.sent hsent
    rw [← hpending]
    exact ⟨m.sentAt, m.idleDeadline, htraced.pending, haccepted, hecho, rfl,
      Nat.lt_of_not_le hlate, hdeadline ▸ hbefore⟩
  case case3 =>
    exact h.become hid hnext (fun _ => htraced) (.inl hshown) fun hp hm => absurd (hpending ▸ hm) hp

theorem Sound.finishSend (id generation : Nat) (accepted : Option Nat) :
    Sound (x.become (.finishSend id generation accepted)
      (x.state.finishSend id generation accepted)) := by
  have hcompleted : ∀ time, accepted = some time → id = x.state.pendingId → id ≠ 0 →
      ∀ due, Traced (x.silent (.finishSend id generation accepted) { x.state with
        sentAt := time
        nextDue := due
        deadline := min x.state.idleDeadline (after time 2000000)
        sent := true }) := by
    rintro time rfl rfl hp due
    have hlater := (h.traced hp).later 0
      (c := .finishSend x.state.pendingId generation (some time))
    exact ⟨hlater.pending, fun _ => ⟨⟨generation, List.mem_cons_self ..⟩, rfl⟩, hlater.early,
      hlater.fresh⟩
  fun_cases StandbyRttMeasurement.finishSend
  case case1 => exact h.become_same _
  case case2 => exact h.become_dropped rfl rfl rfl rfl fun _ => by simp
  case case3 hgate time htime _ _ =>
    simp only [not_or, Decidable.not_not] at hgate
    obtain ⟨-, -, hp, hid, -⟩ := hgate
    have htraced := hcompleted time (Option.filter_eq_some_iff.1 htime).1 hid hp
    exact h.become rfl rfl (fun _ => htraced _) (.inl rfl) fun _ hm => absurd (hid.trans hm) hp
  case case4 hgate time htime _ arrival harrival =>
    simp only [not_or, Decidable.not_not] at hgate
    obtain ⟨-, -, hp, hid, -⟩ := hgate
    have htraced := hcompleted time (Option.filter_eq_some_iff.1 htime).1 hid hp
    exact h.recordEcho (htraced _) rfl rfl rfl (hid ▸ hp) rfl rfl
      ((htraced 0).early arrival harrival)

theorem Sound.receiveEcho (message : StandbyRttMessage) (arrival generation : Nat) (live : Bool) :
    Sound (x.become (.receiveEcho message arrival generation live)
      (x.state.receiveEcho message arrival generation live)) := by
  fun_cases StandbyRttMeasurement.receiveEcho
  case case1 => exact h.become_same _
  case case2 => exact h.become_same _
  case case3 => exact h.expire arrival
  all_goals
    rename_i hgate _ _ hsent
    simp only [not_or, Decidable.not_not, Bool.not_eq_true', Bool.not_eq_false] at hgate
    obtain ⟨-, rfl, -, hkind, -, hidentity, hp, hprobe⟩ := hgate
    have hlater := (h.traced hp).later x.state.nextEchoDue
      (c := .receiveEcho message arrival generation true)
    have hecho : Echoed (.receiveEcho message arrival generation true :: x.calls)
        x.state.identity x.state.pendingId arrival :=
      ⟨message, generation, List.mem_cons_self .., hkind, hidentity, hprobe⟩
  case case4 => exact h.recordEcho hlater rfl rfl rfl hp rfl hsent hecho
  case case5 =>
    refine h.become rfl rfl (fun _ => ?_) (.inl rfl) fun _ hm => absurd hm hp
    refine ⟨hlater.pending, hlater.sent, fun a ha => ?_, hlater.fresh⟩
    rcases Option.or_eq_some_iff.1 ha with hparked | ⟨-, hnew⟩
    · exact hlater.early a hparked
    · cases hnew
      exact hecho

/-- A request takes the next id, which no probe had. -/
theorem Sound.prepareRequest (now idle generation : Nat) (eligible : Bool) :
    Sound (x.step (.prepareRequest now idle generation eligible)) := by
  simp only [Record.step, apply]
  fun_cases StandbyRttMeasurement.prepareRequest
  case case1 => exact h.become_same _
  case case2 => exact h.pause
  case case3 => exact h.expire now
  case case4 hidle _ =>
    have hpending := Decidable.not_not.1 (not_or.1 hidle).1
    exact h.become_dropped (expire_fixed ..).1 (expire_fixed ..).2.1 (expire_fixed ..).2.2 hpending
      fun _ => StandbyRttOutcome.noConfusion
  case case5 e _ hlast =>
    have hnext : e.nextId = x.state.nextId := (expire_fixed ..).2.1
    have hidentity : e.identity = x.state.identity := (expire_fixed ..).1
    have hshown : e.roundTrip = x.state.roundTrip := (expire_fixed ..).2.2
    clear_value e
    have hbound := h.next
    have hprobes : ∀ p ∈ x.probes, p.1 < e.nextId := hnext ▸ h.probes
    have hsucc : (e.nextId + 1) % 2 ^ 64 = e.nextId + 1 := Nat.mod_eq_of_lt (by omega)
    have hne : e.nextId ≠ 0 := by omega
    simp only [Record.become, hsucc, hne, false_and, and_false, if_false, Option.map_some,
      Option.toList_some, List.singleton_append]
    refine ⟨hshown.trans h.shown, ⟨Nat.succ_pos _, ?_⟩, ?_, ?_, h.once, ?_, fun _ => ?_⟩
    · dsimp only
      omega
    · exact List.forall_mem_cons.2
        ⟨Nat.lt_succ_self _, fun p hp => Nat.lt_succ_of_lt (hprobes p hp)⟩
    · refine List.nodup_cons.2 ⟨fun hmem => ?_, h.unique⟩
      obtain ⟨p, hp, heq⟩ := List.mem_map.1 hmem
      exact absurd heq (Nat.ne_of_lt (hprobes p hp))
    · exact fun s hs => (h.genuine s hs).mono (List.subset_cons_self ..) (List.subset_cons_self ..)
        hidentity
    · refine ⟨List.mem_cons_self .., fun hs => Bool.noConfusion hs, fun _ => nofun, ?_⟩
      intro s hs
      obtain ⟨_, _, hprobe, -⟩ := h.genuine s hs
      exact Nat.ne_of_lt (hprobes _ hprobe)

theorem Sound.step (c : Call) : Sound (x.step c) := by
  cases c with
  | prepareRequest now idle generation eligible => exact h.prepareRequest ..
  | finishSend id generation accepted => exact h.finishSend ..
  | receiveEcho message arrival generation live => exact h.receiveEcho ..
  | expire now => exact h.expire now
  | pause => exact h.pause
  | makeEcho message now generation live budget =>
    show Sound (x.become _ (x.state.makeEcho message now generation live budget).2)
    fun_cases StandbyRttMeasurement.makeEcho <;> exact h.become_same _

end

theorem sound_of_reaches (h : Lts.Reachable system x) : Sound x := by
  refine h.invariant (I := Sound) ?_ ?_
  case refine_2 =>
    rintro x c _ - hx - rfl
    exact hx.step c
  rintro _ ⟨identity, generation, due, first, localCaller, m, hfirst, hm, rfl⟩
  simp only [configure] at hm
  split at hm
  · cases hm
  next hgate =>
  cases hm
  have hpos : 0 < first := Nat.pos_of_ne_zero (not_or.1 (not_or.1 hgate).2).2
  exact ⟨rfl, ⟨hpos, hfirst⟩, nofun, .nil, .nil, nofun, fun hp => absurd rfl hp⟩

/-- In every run no probe id is used twice, no probe has two samples, a sample
is the positive time from the accepted send of its probe to an echo with the
probe's id and identity, which arrived before the deadline of the probe, and
the round trip shown is that of the last sample. -/
theorem samples_are_genuine (h : Lts.Reachable system x) :
    (x.probes.map Prod.fst).Nodup ∧ (x.samples.map Sample.probe).Nodup
      ∧ (∀ s ∈ x.samples, 0 < s.roundTrip ∧ Genuine x s)
      ∧ x.state.roundTrip = x.samples.head?.elim 0 Sample.roundTrip := by
  have hsound := sound_of_reaches h
  refine ⟨hsound.unique, hsound.once, fun s hs => ⟨?_, hsound.genuine s hs⟩, hsound.shown⟩
  obtain ⟨_, _, _, _, _, htrip, hlt, _⟩ := hsound.genuine s hs
  omega

def exampleStart : Record :=
  ⟨{ identity := ⟨List.replicate 16 1, List.replicate 16 2⟩, generation := 1, nextId := 7,
     live := true }, [], [], []⟩

/-- The echo of probe 7 overtakes its completion and is parked; probe 8 sees an
echo of probe 7 and is paused before its own. -/
def exampleRecord : Record :=
  let echo (id : Nat) : StandbyRttMessage := ⟨exampleStart.state.identity, id, .echo, true⟩
  [.prepareRequest 10 5000000 1 true, .receiveEcho (echo 9) 20 1 true,
    .receiveEcho (echo 7) 30 1 true, .finishSend 7 1 (some 12), .receiveEcho (echo 7) 40 1 true,
    .prepareRequest 1000012 5000000 1 true, .receiveEcho (echo 7) 1000020 1 true,
    .finishSend 8 1 (some 1000015), .pause, .receiveEcho (echo 8) 1000030 1 true].foldl
    Record.step exampleStart

theorem samples_are_genuine_exampleRecord :
    exampleRecord.probes = [(8, 5000000), (7, 5000000)]
      ∧ exampleRecord.samples = [⟨7, 18, 30⟩] ∧ Genuine exampleRecord ⟨7, 18, 30⟩ := by
  have hstart : Lts.Reachable system exampleStart :=
    .start ⟨exampleStart.state.identity, 1, 0, 7, true, _, by decide, rfl, rfl⟩
  have hreach : Lts.Reachable system exampleRecord := hstart.foldl (by decide +kernel)
  have hsamples : exampleRecord.samples = [⟨7, 18, 30⟩] := by decide +kernel
  exact ⟨by decide +kernel, hsamples,
    ((samples_are_genuine hreach).2.2.1 _ (hsamples ▸ List.mem_singleton.2 rfl)).2⟩

end StandbyRttMeasurement

end Srt
