/-
# `DispatchTransmit` — one multicast repair for several receivers

`DispatchTransmitState` of `src/compat/dispatch_transmit_state.hpp`.  The tally
is a ring of entries keyed by sequence, so far-apart sequences share an entry
and a completion may come after its entry was taken for another sequence.

The log keeps what the callers were told.  What an entry knows of its sequence
is what the log says since the sequence entered the ring (`Told`); an entry of
another sequence knows nothing, which is why eviction is harmless.
-/
import Srt.Sequence
import Srt.Lib.System

namespace Srt.DispatchTransmit

def tallyCapacity : Nat := 1024

structure RepeatDecision where
  multicast : Bool := false
  skip : Bool := false
  attempt : Nat := 0
  deriving DecidableEq, Repr

/-- An entry; its members are those counted in `member_count`. -/
structure Entry where
  sequence : SequenceNumber := .ofNat 0
  firstMicroseconds : Nat := 0
  attempt : Nat := 0
  members : List Int := []
  multicastDone : Bool := false
  valid : Bool := false
  deriving DecidableEq, Repr

structure Tally where
  entries : Nat → Entry := fun _ => {}
  nextAttempt : Nat := 0

namespace Entry

def holds (e : Entry) (sequence : SequenceNumber) : Bool :=
  e.valid && e.sequence == sequence

def expired (e : Entry) (now window : Nat) : Bool :=
  decide (now < e.firstMicroseconds) || decide (window < now - e.firstMicroseconds)

/-- The entry `note_repeat` goes on with: a new one unless this one is of the
sequence and in its window. -/
def admitted (e : Entry) (sequence : SequenceNumber) (now window : Nat) : Entry :=
  if e.holds sequence && !e.expired now window then e
  else { sequence, firstMicroseconds := now, valid := true }

/-- The rest of `note_repeat` for an entry of the sequence; `fresh` is the
identity of a new attempt. -/
def answer (e : Entry) (member : Int) (threshold fresh : Nat) : RepeatDecision × Entry :=
  if member ∈ e.members ∨ e.members.length = 16 then ({}, e)
  else
    let e := { e with members := e.members ++ [member] }
    if e.multicastDone then ({ skip := true }, e)
    else if threshold ≤ e.members.length ∧ e.attempt = 0 then
      ({ multicast := true, attempt := fresh }, { e with attempt := fresh })
    else ({}, e)

end Entry

namespace Tally

def entry (t : Tally) (sequence : SequenceNumber) : Entry :=
  t.entries (sequence.value % tallyCapacity)

def put (t : Tally) (sequence : SequenceNumber) (e : Entry) : Tally :=
  { t with entries := Function.update t.entries (sequence.value % tallyCapacity) e }

/-- The increment of `next_attempt_`, which passes over zero. -/
def freshAttempt (t : Tally) : Nat :=
  if (t.nextAttempt + 1) % 2 ^ 64 = 0 then 1 else (t.nextAttempt + 1) % 2 ^ 64

def noteRepeat (t : Tally) (sequence : SequenceNumber) (member : Int)
    (now threshold window : Nat) : RepeatDecision × Tally :=
  let entry := t.entry sequence
  if threshold = 0 then ({}, t)
  else if entry.holds sequence && entry.attempt != 0 && entry.expired now window then ({}, t)
  else
    let (d, entry) := (entry.admitted sequence now window).answer member threshold t.freshAttempt
    (d, { t.put sequence entry with
      nextAttempt := if d.multicast then d.attempt else t.nextAttempt })

/-- Whether a completion is of the attempt its entry stands for. -/
def completes (t : Tally) (sequence : SequenceNumber) (attempt : Nat) : Bool :=
  (t.entry sequence).holds sequence && attempt != 0 && (t.entry sequence).attempt == attempt

def completeRepeat (t : Tally) (sequence : SequenceNumber) (attempt : Nat) (accepted : Bool) :
    Tally :=
  if t.completes sequence attempt then
    t.put sequence { t.entry sequence with multicastDone := accepted }
  else t

end Tally

/-! ## Runs -/

/-- What a run did, as seen from outside; `entered` when an entry is taken for
a sequence it did not hold. -/
inductive Happening
  | entered (sequence : SequenceNumber)
  | granted (sequence : SequenceNumber) (attempt : Nat)
  | skipped (sequence : SequenceNumber) (member : Int)
  | accepted (sequence : SequenceNumber) (attempt : Nat)
  deriving DecidableEq, Repr

open Happening

inductive Op
  | note (sequence : SequenceNumber) (member : Int) (now threshold window : Nat)
  | complete (sequence : SequenceNumber) (attempt : Nat) (accepted : Bool)
  deriving DecidableEq, Repr

/-- The tally with what happened, the newest first. -/
structure Record where
  tally : Tally := {}
  log : List Happening := []

/-- What a decision tells its member. -/
def RepeatDecision.said (d : RepeatDecision) (sequence : SequenceNumber) (member : Int) :
    List Happening :=
  if d.multicast then [granted sequence d.attempt]
  else if d.skip then [skipped sequence member] else []

def Record.step (r : Record) : Op → Record
  | .note sequence member now threshold window =>
    let (d, t) := r.tally.noteRepeat sequence member now threshold window
    let enters := !(r.tally.entry sequence).holds sequence && (t.entry sequence).holds sequence
    ⟨t, d.said sequence member ++ if enters then entered sequence :: r.log else r.log⟩
  | .complete sequence attempt success =>
    ⟨r.tally.completeRepeat sequence attempt success,
      if success && r.tally.completes sequence attempt then
        accepted sequence attempt :: r.log else r.log⟩

def system : Lts.System Record Op := .ofFun (· = {}) Record.step

/-- What happened since the sequence entered the ring. -/
def since (q : SequenceNumber) (log : List Happening) : List Happening :=
  log.takeWhile (· ≠ entered q)

/-- A repair of the sequence was granted and then accepted. -/
def Renewed (q : SequenceNumber) (log : List Happening) : Prop :=
  ∃ a, [accepted q a, granted q a].Sublist log

variable {q : SequenceNumber} {log : List Happening} {e e' : Entry} {x : Happening}
  {member : Int} {a : Nat}

/-- What entry `e` has to show for the log, if it is of the sequence. -/
structure Told (log : List Happening) (q : SequenceNumber) (e : Entry) : Prop where
  grants : e.holds q = true → ∀ a, granted q a ∈ since q log ↔ a ≠ 0 ∧ e.attempt = a
  skips : e.holds q = true → ∀ member new old,
    log = new ++ skipped q member :: old → Renewed q new ∨ member ∈ e.members
      ∨ (e.multicastDone = false ∧ (e.attempt = 0 ∨ granted q e.attempt ∈ new))

/-- What is said of the past: a member is skipped again only behind a new
repair, and a residency is granted one. -/
structure Fair (log : List Happening) : Prop where
  skips : ∀ q member t, skipped q member :: t <:+ log → ∀ new old,
    t = new ++ skipped q member :: old → Renewed q new
  grants : ∀ q a t, granted q a :: t <:+ log → ∀ a', granted q a' ∉ since q t

theorem Fair.cons (h : Fair log) (hskip : ∀ q member, x = skipped q member → ∀ new old,
      log = new ++ skipped q member :: old → Renewed q new)
    (hgrant : ∀ q a, x = granted q a → ∀ a', granted q a' ∉ since q log) : Fair (x :: log) := by
  refine ⟨fun q member t ht => ?_, fun q a t ht => ?_⟩
  · rcases List.suffix_cons_iff.1 ht with heq | ht
    · obtain ⟨hx, rfl⟩ := List.cons.inj heq
      exact hskip q member hx.symm
    · exact h.skips q member t ht
  rcases List.suffix_cons_iff.1 ht with heq | ht
  · obtain ⟨hx, rfl⟩ := List.cons.inj heq
    exact hgrant q a hx.symm
  · exact h.grants q a t ht

theorem Renewed.cons (h : Renewed q log) : Renewed q (x :: log) := by
  obtain ⟨a, h⟩ := h
  exact ⟨a, h.cons x⟩

theorem since_cons (hx : x ≠ entered q) : since q (x :: log) = x :: since q log :=
  List.takeWhile_cons_of_pos (by simpa using hx)

/-- One happening more that is no entry of the sequence; the entry may change
with it. -/
theorem Told.cons (h : Told log q e) (hx : x ≠ entered q)
    (hholds : e'.holds q = true → e.holds q = true)
    (hgrants : e.holds q = true → ∀ a, (x = granted q a ∨ a ≠ 0 ∧ e.attempt = a) ↔ a ≠ 0 ∧
      e'.attempt = a)
    (hnew : ∀ member, x = skipped q member → member ∈ e'.members)
    (hskips : ∀ member new, member ∈ e.members ∨ (e.multicastDone = false ∧ (e.attempt = 0 ∨
      granted q e.attempt ∈ new)) → Renewed q (x :: new) ∨ member ∈ e'.members ∨ (e'.multicastDone
      = false ∧ (e'.attempt = 0 ∨ granted q e'.attempt ∈ x :: new))) :
    Told (x :: log) q e' where
  grants he a := by
    rw [since_cons hx, List.mem_cons, h.grants (hholds he), eq_comm (b := x)]
    exact hgrants (hholds he) a
  skips he member new old hlog := by
    cases new with
    | nil => exact .inr (.inl (hnew member (List.cons.inj hlog).1))
    | cons y new =>
      obtain ⟨rfl, hrest⟩ := List.cons.inj hlog
      rcases h.skips (hholds he) member new old hrest with hrenewed | hknown
      · exact .inl hrenewed.cons
      · exact hskips member new hknown

/-- An entry of another sequence has nothing to show. -/
theorem Told.of_not_holds (h : e.holds q = false) : Told log q e :=
  ⟨fun he => (Bool.false_ne_true (h.symm.trans he)).elim,
    fun he => (Bool.false_ne_true (h.symm.trans he)).elim⟩

theorem holds_admitted (now window : Nat) : (e.admitted q now window).holds q = true := by
  unfold Entry.admitted
  split
  · next h => exact (Bool.and_eq_true_iff.1 h).1
  · simp [Entry.holds]

theorem Told.admitted (h : Told log q e) {now window : Nat}
    (hgo : ¬(e.holds q && e.attempt != 0 && e.expired now window) = true) :
    Told (if !e.holds q then entered q :: log else log) q (e.admitted q now window) := by
  unfold Entry.admitted
  by_cases hfresh : (e.holds q && !e.expired now window) = true
  · rw [if_pos hfresh, (Bool.and_eq_true_iff.1 hfresh).1]
    exact h
  rw [if_neg hfresh]
  refine ⟨fun _ a => ?_, fun _ _ _ _ _ => .inr (.inr ⟨rfl, .inl rfl⟩)⟩
  have hnone : granted q a ∉ since q (if !e.holds q then entered q :: log else log) := by
    cases hholds : e.holds q with
    | false => simp [since]
    | true =>
      simp only [hholds, Bool.true_and, Bool.not_eq_true', Bool.not_eq_false] at hfresh hgo ⊢
      simp [h.grants hholds, hfresh] at hgo ⊢
      omega
  exact ⟨fun hmem => absurd hmem hnone, fun h => absurd h.2.symm h.1⟩

structure Sound (r : Record) : Prop where
  fair : Fair r.log
  told : ∀ q, Told r.log q (r.tally.entry q)

theorem entry_put_self (t : Tally) (q : SequenceNumber) (e : Entry) : (t.put q e).entry q = e :=
  Function.update_self ..

/-- The other sequences: they share the entry and lose it, or do not. -/
theorem told_put {t : Tally} {other : SequenceNumber} (hne : other ≠ q)
    (h : Told log other (t.entry other)) (he : e.holds q = true) :
    Told log other ((t.put q e).entry other) := by
  by_cases hslot : other.value % tallyCapacity = q.value % tallyCapacity
  · refine .of_not_holds ?_
    have : (t.put q e).entry other = e := by
      unfold Tally.entry
      rw [hslot]
      exact entry_put_self t q e
    rw [this]
    unfold Entry.holds at he ⊢
    simp only [Bool.and_eq_true, beq_iff_eq] at he
    rw [he.1, he.2]
    simpa using hne.symm
  have : (t.put q e).entry other = t.entry other := Function.update_of_ne hslot ..
  rwa [this]

theorem Told.cons_other {other : SequenceNumber} (h : Told log other e)
    (hx : x ≠ entered other) (hx' : ∀ a, x ≠ granted other a)
    (hx'' : ∀ member, x ≠ skipped other member) : Told (x :: log) other e :=
  h.cons hx id (fun _ a => by simp [hx' a]) (fun m hm => absurd hm (hx'' m))
    fun m new hknown => .inr (hknown.imp_right fun hdone =>
      ⟨hdone.1, hdone.2.imp_right (List.mem_cons_of_mem x)⟩)

theorem freshAttempt_ne_zero (t : Tally) : t.freshAttempt ≠ 0 := by
  unfold Tally.freshAttempt
  split <;> omega

/-- An entry that knows the log answers by it and knows its answer. -/
theorem Told.answer (h : Told log q e) (hholds : e.holds q = true) (hfair : Fair log)
    (member : Int) (threshold : Nat) {fresh : Nat} (hfresh : fresh ≠ 0) :
    let d := e.answer member threshold fresh
    d.2.holds q = true ∧ Fair (d.1.said q member ++ log)
      ∧ Told (d.1.said q member ++ log) q d.2 := by
  unfold Entry.answer
  split
  · exact ⟨hholds, hfair, h⟩
  next hmember =>
  simp only
  split
  · next hdone =>
    refine ⟨hholds, hfair.cons ?_ (by simp), ?_⟩
    · -- the entry does not know the member, so nothing is left but a new repair
      rintro _ _ ⟨⟩ new old hlog
      rcases h.skips hholds member new old hlog with h | h | ⟨h, -⟩
      · exact h
      · exact absurd (.inl h) hmember
      · exact absurd (hdone.symm.trans h) (by decide)
    refine h.cons (by simp) id (fun _ _ => by simp) ?_ ?_
    · rintro _ ⟨⟩
      simp
    rintro m new (h | h)
    · exact .inr (.inl (List.mem_append_left _ h))
    · exact absurd (hdone.symm.trans h.1) (by decide)
  next hdone =>
  split
  · next hgrant =>
    have hnone : ∀ a, granted q a ∉ since q log := by
      intro a hmem
      obtain ⟨hne, heq⟩ := (h.grants hholds a).1 hmem
      exact hne (heq.symm.trans hgrant.2)
    refine ⟨hholds, hfair.cons (by simp) ?_, ?_⟩
    · rintro _ _ ⟨⟩
      exact hnone
    refine h.cons (by simp) id ?_ (by simp) ?_
    · intro _ a
      have hzero : e.attempt = 0 := hgrant.2
      simp only [hzero, granted.injEq, true_and]
      omega
    rintro m new (h | h)
    · exact .inr (.inl (List.mem_append_left _ h))
    · exact .inr (.inr ⟨h.1, .inr List.mem_cons_self⟩)
  refine ⟨hholds, hfair, h.grants, fun _ m new old hlog => ?_⟩
  exact (h.skips hholds m new old hlog).imp_right fun h =>
    h.imp_left (List.mem_append_left _)

theorem Sound.put {t : Tally} {n : Nat} (hfair : Fair log) (he : e.holds q = true)
    (htold : Told log q e) (hother : ∀ other, other ≠ q → Told log other (t.entry other)) :
    Sound ⟨{ t.put q e with nextAttempt := n }, log⟩ := by
  refine ⟨hfair, fun other => ?_⟩
  by_cases hne : other = q
  · subst hne
    exact (entry_put_self t other e).symm ▸ htold
  · exact told_put hne (hother other hne) he

theorem Sound.note {t : Tally} (h : Sound ⟨t, log⟩) (now threshold window : Nat) :
    Sound (Record.step ⟨t, log⟩ (.note q member now threshold window)) := by
  simp only [Record.step, Tally.noteRepeat]
  split
  · simpa [RepeatDecision.said] using h
  split
  · simpa [RepeatDecision.said] using h
  next hgo =>
  have hfair : Fair (if !(t.entry q).holds q then entered q :: log else log) := by
    split
    · exact h.fair.cons (by simp) (by simp)
    · exact h.fair
  obtain ⟨hholds, hfair', htold⟩ := ((h.told q).admitted hgo).answer
    (holds_admitted now window) hfair member threshold (freshAttempt_ne_zero t)
  generalize ((t.entry q).admitted q now window).answer member threshold
    t.freshAttempt = d at hholds hfair' htold ⊢
  have hentry : ∀ n, Tally.entry { t.put q d.2 with nextAttempt := n } q = d.2 :=
    fun _ => entry_put_self t q d.2
  simp only [hentry, hholds, Bool.and_true]
  refine .put hfair' hholds htold fun other hne => ?_
  have hentered : Told (if !(t.entry q).holds q then entered q :: log
      else log) other (t.entry other) := by
    split
    · exact (h.told other).cons_other (by simpa using hne.symm) (by simp) (by simp)
    · exact h.told other
  unfold RepeatDecision.said
  split
  · exact hentered.cons_other (by simp) (by simp [hne.symm]) (by simp)
  split
  · exact hentered.cons_other (by simp) (by simp) (by simp [hne.symm])
  · exact hentered

theorem Sound.complete {t : Tally} (h : Sound ⟨t, log⟩) (success : Bool) :
    Sound (Record.step ⟨t, log⟩ (.complete q a success)) := by
  simp only [Record.step, Tally.completeRepeat]
  cases hcompletes : t.completes q a with
  | false => simpa using h
  | true =>
    have hc := hcompletes
    simp only [Tally.completes, Bool.and_eq_true, bne_iff_ne, beq_iff_eq] at hc
    obtain ⟨⟨hholds, hne⟩, hattempt⟩ := hc
    have htold := h.told q
    simp only [if_true, Bool.and_true]
    cases success with
    | false =>
      refine .put h.fair hholds ⟨htold.grants, fun _ m new old hlog => ?_⟩
        (fun other _ => h.told other)
      exact (htold.skips hholds m new old hlog).imp_right (Or.imp_right fun h => ⟨rfl, h.2⟩)
    | true =>
      refine .put (h.fair.cons (by simp) (by simp)) hholds ?_
        fun other hne => (h.told other).cons_other (by simp) (by simp) (by simp)
      refine htold.cons (by simp) id (fun _ _ => by simp) (by simp) ?_
      rintro m new (h | ⟨-, h⟩)
      · exact .inr (.inl h)
      have hmem := h.resolve_left (hattempt ▸ hne)
      rw [hattempt] at hmem
      exact .inl ⟨a, .cons_cons _ (List.singleton_sublist.2 hmem)⟩

theorem sound_of_reaches {r : Record} (h : Lts.Reachable system r) : Sound r := by
  refine h.invariant (I := Sound) ?_ ?_
  · rintro _ rfl
    exact ⟨⟨by simp, by simp⟩, fun _ => .of_not_holds rfl⟩
  rintro ⟨t, log⟩ op _ - hr - rfl
  cases op with
  | note q member now threshold window => exact hr.note now threshold window
  | complete q a success => exact hr.complete success

/-- A member is told to skip a sequence again only behind a new repair of it, a
residency is granted one attempt, and a completion marks an entry only if the
current residency of its sequence was granted the attempt it names. -/
theorem repairs_are_safe {r : Record} (h : Lts.Reachable system r) :
    (∀ q member t new old, skipped q member :: t <:+ r.log →
        t = new ++ skipped q member :: old → Renewed q new) ∧
      (∀ q a t, granted q a :: t <:+ r.log → ∀ a', granted q a' ∉ since q t) ∧
      ∀ q a success, r.tally.completeRepeat q a success ≠ r.tally →
        (r.tally.entry q).holds q = true ∧ granted q a ∈ since q r.log := by
  have hr := sound_of_reaches h
  refine ⟨fun _ _ _ _ _ ht => hr.fair.skips _ _ _ ht _ _, hr.fair.grants, ?_⟩
  intro q a success hmarks
  unfold Tally.completeRepeat at hmarks
  split at hmarks
  · next hc =>
    simp only [Tally.completes, Bool.and_eq_true, bne_iff_ne, beq_iff_eq] at hc
    exact ⟨hc.1.1, ((hr.told q).grants hc.1.1 a).2 ⟨hc.1.2, hc.2⟩⟩
  · exact absurd rfl hmarks

/-- Two members ask for a sequence, its repair is accepted, a third is skipped;
an alias of the sequence evicts it, and it is repaired and skipped again. -/
def aliasedRun : Record :=
  let repaired (a : Nat) : List Op := [.note (.ofNat 5) 1 0 2 9, .note (.ofNat 5) 2 1 2 9,
    .complete (.ofNat 5) a true, .note (.ofNat 5) 3 2 2 9]
  (repaired 1 ++ .note (.ofNat 1029) 1 3 2 9 :: repaired 2).foldl Record.step {}

theorem repairs_are_safe_aliasedRun :
    (aliasedRun.log.filter (· = skipped (.ofNat 5) 3)).length = 2
      ∧ granted (.ofNat 5) 2 ∈ since (.ofNat 5) aliasedRun.log :=
  have hstart : Lts.Reaches system (fun _ _ => True) {} := .start rfl
  ⟨by decide +kernel, ((repairs_are_safe (hstart.foldl (by decide +kernel))).2.2 _ 2 false
    fun h => absurd (congrArg (fun t => (Tally.entry t (.ofNat 5)).multicastDone) h)
      (by decide +kernel)).2⟩

end Srt.DispatchTransmit
