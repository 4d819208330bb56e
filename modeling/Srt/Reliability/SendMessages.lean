/-
# `SendMessages` — messages in the send buffer

The packets of a message stand next to each other; a packet continues its
message when its boundary says so.  What is in the window of one message is an
`Extent`.  A message is live or entombed as a whole, each tombstone knows where
its extent ends and where it began, and drop requests are marked where an
extent begins (`Messages`).

`drop_expired_message` recognises a message by its number alone, so two
neighbours of one number would be one message to it.  `DistinctNumbers` is the
condition on a run that excludes them, and `d` stands for it: what depends on
it is said under `d`, the rest of every run.
-/
import Srt.Reliability.SendLedger

namespace Srt

open SequenceNumber SendBuffer

variable {i k : Nat}

namespace SendSlot

/-- The packet is not the first of its message. -/
def continues (s : SendSlot) : Bool :=
  s.header.boundary == .subsequent || s.header.boundary == .last

end SendSlot

namespace SendBuffer

/-- The slots from `s` to `e` are those of one message in the window. -/
structure Extent (w : Nat → SendSlot) (span s e : Nat) : Prop where
  le : s ≤ e
  lt : e < span
  joined : ∀ j, s < j → j ≤ e → (w j).continues = true
  start : s = 0 ∨ (w s).continues = false
  stop : e + 1 = span ∨ (w (e + 1)).continues = false

/-- What a tombstone at `i` remembers of its message: the last sequence
number, and the first one, which may have left the window. -/
def Labelled (w : Nat → SendSlot) (span : Nat) (first : SequenceNumber) (i : Nat) : Prop :=
  ∃ s e t, Extent w span s e ∧ s ≤ i ∧ i ≤ e ∧ (w i).metadata.messageLast = first.advanced e
    ∧ (w i).metadata.messageFirst.advanced t = first.advanced s
    ∧ (s = 0 ∨ t = 0) ∧ t + i < 2 ^ 30

structure Messages (d : Prop) (w : Nat → SendSlot) (span : Nat) (first : SequenceNumber) :
    Prop where
  same : ∀ i, i + 1 < span → (w (i + 1)).continues = true →
    (w (i + 1)).header.messageNumber = (w i).header.messageNumber
      ∧ (w (i + 1)).dropped = (w i).dropped
      ∧ ((w i).dropped = false → (w (i + 1)).metadata.expiration = (w i).metadata.expiration)
  parted : d → ∀ i, i + 1 < span → (w (i + 1)).continues = false →
    (w (i + 1)).header.messageNumber ≠ (w i).header.messageNumber
  labelled : d → ∀ i < span, (w i).dropped = true → Labelled w span first i
  marked : d → ∀ i < span, (w i).dropped = true → (w i).dropRequestQueued = true →
    i = 0 ∨ (w i).continues = false

variable {d : Prop}

section Messages

variable {w w' : Nat → SendSlot} {span s e i : Nat} {first : SequenceNumber}

section

variable (h : Messages d w span first) (he : Extent w span s e) {j : Nat} (hs : s ≤ j) (hj : j ≤ e)
include h he hs hj

/-- A message is live or entombed as a whole. -/
theorem Messages.dropped_eq : (w j).dropped = (w s).dropped := by
  induction j, hs using Nat.le_induction with
  | base => rfl
  | succ j hs ih =>
    have hlt := he.lt
    exact (h.same j (by omega) (he.joined (j + 1) (by omega) hj)).2.1.trans (ih (by omega))

theorem Messages.number_eq : (w j).header.messageNumber = (w s).header.messageNumber := by
  induction j, hs using Nat.le_induction with
  | base => rfl
  | succ j hs ih =>
    have hlt := he.lt
    exact (h.same j (by omega) (he.joined (j + 1) (by omega) hj)).1.trans (ih (by omega))

end

/-- Extents are read off the boundaries. -/
theorem Extent.congr (he : Extent w span s e)
    (hw : ∀ j < span, (w' j).continues = (w j).continues) : Extent w' span s e := by
  have hle := he.le
  have hlt := he.lt
  refine ⟨hle, hlt, fun j hs hj => ?_, ?_, ?_⟩
  · rw [hw j (by omega)]
    exact he.joined j hs hj
  · rw [hw s (by omega)]
    exact he.start
  rcases he.stop with heq | hstop
  · exact .inl heq
  by_cases hend : e + 1 < span
  · exact .inr ((hw _ hend).trans hstop)
  · exact .inl (by omega)

/-! ## The window under its moves -/

/-- The slot says the same about its message. -/
structure Alike (a c : SendSlot) : Prop where
  continues : c.continues = a.continues
  messageNumber : c.header.messageNumber = a.header.messageNumber
  dropped : c.dropped = a.dropped
  expiration : a.dropped = false → c.metadata.expiration = a.metadata.expiration
  metadata : a.dropped = true → c.metadata = a.metadata

theorem Messages.congr (h : Messages d w span first) (hw : ∀ j < span, Alike (w j) (w' j))
    (hmarked : d → ∀ j < span, (w j).dropped = true → (w' j).dropRequestQueued = true →
      (w j).dropRequestQueued = true ∨ j = 0 ∨ (w j).continues = false) :
    Messages d w' span first := by
  have hcontinues : ∀ j < span, (w' j).continues = (w j).continues := fun j hj =>
    (hw j hj).continues
  refine ⟨fun i hi hc => ?_, fun hdiff i hi hc => ?_, fun hdiff i hi hd => ?_,
    fun hdiff i hi hd hq => ?_⟩
  · have h1 := hw i (by omega)
    have h2 := hw (i + 1) hi
    obtain ⟨hn, hdrop, hexp⟩ := h.same i hi (h2.continues.symm.trans hc)
    rw [h2.messageNumber, h1.messageNumber, h2.dropped, h1.dropped]
    refine ⟨hn, hdrop, fun hlive => ?_⟩
    rw [h2.expiration (hdrop.trans hlive), h1.expiration hlive]
    exact hexp hlive
  · rw [(hw _ hi).messageNumber, (hw i (by omega)).messageNumber]
    exact h.parted hdiff i hi ((hw _ hi).continues.symm.trans hc)
  · have hold := (hw i hi).dropped.symm.trans hd
    obtain ⟨s, e, t, he, hs, hie, hlast, hfirst, hst, ht⟩ := h.labelled hdiff i hi hold
    rw [← (hw i hi).metadata hold] at hlast hfirst
    exact ⟨s, e, t, he.congr hcontinues, hs, hie, hlast, hfirst, hst, ht⟩
  have hold := (hw i hi).dropped.symm.trans hd
  rw [hcontinues i hi]
  rcases hmarked hdiff i hi hold hq with hq | hstart
  · exact h.marked hdiff i hi hold hq
  · exact hstart

/-- A packet behind the window: it continues the message at its end or
begins one of another number. -/
theorem Messages.append (h : Messages d w span first) (hw : ∀ j < span, w' j = w j)
    (hlive : (w' span).dropped = false)
    (hcontinues : (w' span).continues = true → span ≠ 0 ∧ (w' span).header.messageNumber = (w (span
      - 1)).header.messageNumber ∧ (w (span - 1)).dropped = false ∧ (w' span).metadata.expiration =
      (w (span - 1)).metadata.expiration)
    (hparted : d → (w' span).continues = false → span = 0
      ∨ (w' span).header.messageNumber ≠ (w (span - 1)).header.messageNumber) :
    Messages d w' (span + 1) first := by
  have hlast : ∀ i, i + 1 < span + 1 → i + 1 < span ∨ i + 1 = span := fun i hi => by omega
  refine ⟨fun i hi hc => ?_, fun hdiff i hi hc => ?_, fun hdiff i hi hd => ?_,
    fun hdiff i hi hd hq => ?_⟩
  · rcases hlast i hi with hlt | heq
    · rw [hw (i + 1) hlt] at hc ⊢
      rw [hw i (by omega)]
      exact h.same i hlt hc
    rw [heq] at hc ⊢
    obtain ⟨-, hn, hd, hexp⟩ := hcontinues hc
    rw [hw i (by omega), show i = span - 1 by omega]
    exact ⟨hn, hlive.trans hd.symm, fun _ => hexp⟩
  · rcases hlast i hi with hlt | heq
    · rw [hw (i + 1) hlt] at hc ⊢
      rw [hw i (by omega)]
      exact h.parted hdiff i hlt hc
    rw [heq] at hc ⊢
    rw [hw i (by omega), show i = span - 1 by omega]
    exact (hparted hdiff hc).resolve_left (by omega)
  · have hne : i ≠ span := fun heq => Bool.noConfusion ((heq ▸ hlive).symm.trans hd)
    have hlt : i < span := by omega
    rw [hw i hlt] at hd
    obtain ⟨s, e, t, he, hs, hie, hml, hmf, hst, ht⟩ := h.labelled hdiff i hlt hd
    have hle := he.le
    have hes := he.lt
    refine ⟨s, e, t, ⟨hle, by omega, fun j hsj hje => ?_, ?_, ?_⟩, hs, hie, ?_, ?_, hst, ht⟩
    · rw [hw j (by omega)]
      exact he.joined j hsj hje
    · rw [hw s (by omega)]
      exact he.start
    · by_cases hend : e + 1 < span
      · rw [hw _ hend]
        exact .inr (he.stop.resolve_left (by omega))
      -- a live packet does not continue a message of tombstones
      have heq : e + 1 = span := by omega
      refine .inr (Bool.eq_false_iff.2 fun hc => ?_)
      rw [heq] at hc
      have hd' := (hcontinues hc).2.2.1
      rw [show span - 1 = e by omega, h.dropped_eq he hle (Nat.le_refl e),
        ← h.dropped_eq he hs hie] at hd'
      exact Bool.noConfusion (hd'.symm.trans hd)
    · rw [hw i hlt]
      exact hml
    rw [hw i hlt]
    exact hmf
  have hne : i ≠ span := fun heq => Bool.noConfusion ((heq ▸ hlive).symm.trans hd)
  rw [hw i (by omega)] at hd hq ⊢
  exact h.marked hdiff i (by omega) hd hq

/-- What is left of an extent when `k` slots leave the window. -/
theorem Extent.shift (he : Extent w span s e) (hk : k ≤ e) (hw : ∀ j < span - k, w' j = w (k + j)) :
    Extent w' (span - k) (s - k) (e - k) := by
  have hle := he.le
  have hlt := he.lt
  refine ⟨by omega, by omega, fun j hs hj => ?_, ?_, ?_⟩
  · rw [hw j (by omega)]
    exact he.joined _ (by omega) (by omega)
  · by_cases hsk : s ≤ k
    · exact .inl (by omega)
    rw [hw _ (by omega), show k + (s - k) = s by omega]
    exact .inr (he.start.resolve_left (by omega))
  by_cases hend : e + 1 < span
  · rw [hw _ (by omega), show k + (e - k + 1) = e + 1 by omega]
    exact .inr (he.stop.resolve_left (by omega))
  · exact .inl (by omega)

theorem Messages.shift (h : Messages d w span first) (hk : k ≤ span)
    (hw : ∀ j < span - k, w' j = w (k + j)) : Messages d w' (span - k) (first.advanced k) := by
  refine ⟨fun i hi hc => ?_, fun hdiff i hi hc => ?_, fun hdiff i hi hd => ?_,
    fun hdiff i hi hd hq => ?_⟩
  · rw [hw _ hi] at hc ⊢
    rw [hw i (by omega)]
    exact h.same (k + i) (by omega) hc
  · rw [hw _ hi] at hc ⊢
    rw [hw i (by omega)]
    exact h.parted hdiff (k + i) (by omega) hc
  · rw [hw i hi] at hd
    obtain ⟨s, e, t, he, hs, hie, hml, hmf, hst, ht⟩ := h.labelled hdiff (k + i) (by omega) hd
    -- what lay in front of the window is now `t` further from it
    refine ⟨s - k, e - k, t + (k - s), he.shift (by omega) hw, by omega, by omega, ?_, ?_,
      by omega, by omega⟩
    · rw [hw i hi, hml, advanced_advanced, show k + (e - k) = e by omega]
    rw [hw i hi, ← advanced_advanced, hmf, advanced_advanced,
      advanced_advanced, show s + (k - s) = k + (s - k) by omega]
  rw [hw i hi] at hd hq ⊢
  rcases h.marked hdiff (k + i) (by omega) hd hq with hzero | hc
  · exact .inl (by omega)
  · exact .inr hc

/-- A tombstone of the message that began at `first'` and ends at `last`. -/
structure Tombstone (a c : SendSlot) (first' last : SequenceNumber) : Prop where
  header : c.header = a.header
  dropped : c.dropped = true
  unmarked : c.dropRequestQueued = false
  messageFirst : c.metadata.messageFirst = first'
  messageLast : c.metadata.messageLast = last

theorem Messages.entomb (h : Messages d w span first) (hspan : span < 2 ^ 30) (hlt : e < span)
    (hstart : s = 0 ∨ (w s).continues = false)
    (hstop : e + 1 = span ∨ (w (e + 1)).continues = false)
    (he : d → Extent w span s e)
    (hrest : ∀ j < span, j < s ∨ e < j → w' j = w j)
    (htombs : ∀ j, s ≤ j → j ≤ e → Tombstone (w j) (w' j) (first.advanced s) (first.advanced e)) :
    Messages d w' span first := by
  have hheader : ∀ j < span, (w' j).header = (w j).header := by
    intro j hj
    by_cases hin : s ≤ j ∧ j ≤ e
    · exact (htombs j hin.1 hin.2).header
    · rw [hrest j hj (by omega)]
  have hcontinues : ∀ j < span, (w' j).continues = (w j).continues := by
    intro j hj
    unfold SendSlot.continues
    rw [hheader j hj]
  refine ⟨fun i hi hc => ?_, fun hdiff i hi hc => ?_, fun hdiff i hi hd => ?_,
    fun hdiff i hi hd hq => ?_⟩
  · rw [hcontinues _ hi] at hc
    obtain ⟨hn, hdrop, hexp⟩ := h.same i hi hc
    rw [hheader _ hi, hheader i (by omega)]
    refine ⟨hn, ?_⟩
    by_cases hin : s ≤ i ∧ i ≤ e
    · -- the message does not end between the two
      have hne : i ≠ e := by
        rintro rfl
        rcases hstop with heq | hstop
        · omega
        · exact Bool.noConfusion (hstop.symm.trans hc)
      have hd1 := (htombs i hin.1 hin.2).dropped
      rw [hd1, (htombs (i + 1) (by omega) (by omega)).dropped]
      exact ⟨rfl, fun hf => Bool.noConfusion hf⟩
    have hne : i + 1 ≠ s := by
      rintro rfl
      rcases hstart with heq | hstart
      · omega
      · exact Bool.noConfusion (hstart.symm.trans hc)
    rw [hrest i (by omega) (by omega), hrest (i + 1) hi (by omega)]
    exact ⟨hdrop, hexp⟩
  · rw [hcontinues _ hi] at hc
    rw [hheader _ hi, hheader i (by omega)]
    exact h.parted hdiff i hi hc
  · by_cases hin : s ≤ i ∧ i ≤ e
    · have ht := htombs i hin.1 hin.2
      refine ⟨s, e, 0, (he hdiff).congr hcontinues, hin.1, hin.2, ht.messageLast, ?_,
        .inr rfl, by omega⟩
      rw [ht.messageFirst, advanced_zero]
    rw [hrest i hi (by omega)] at hd
    obtain ⟨s', e', t, he', hs, hie, hml, hmf, hst, ht⟩ := h.labelled hdiff i hi hd
    rw [← hrest i hi (by omega)] at hml hmf
    exact ⟨s', e', t, he'.congr hcontinues, hs, hie, hml, hmf, hst, ht⟩
  by_cases hin : s ≤ i ∧ i ≤ e
  · exact Bool.noConfusion ((htombs i hin.1 hin.2).unmarked.symm.trans hq)
  rw [hrest i hi (by omega)] at hd hq ⊢
  exact h.marked hdiff i hi hd hq

end Messages

/-! ## The buffer -/

variable {b c : SendBuffer}

/-- The messages of the window. -/
def Told (d : Prop) (b : SendBuffer) : Prop :=
  Messages d b.slot b.sequenceSpan b.firstSequence

section

variable (h : b.Told d) (hdiff : d) {i : Nat} (hi : i < b.sequenceSpan)
  (hd : (b.slot i).dropped = true)
include h hdiff hi hd

/-- The drop request of a tombstone is marked where its extent begins. -/
theorem Told.messageOffset :
    ∃ s e, Extent b.slot b.sequenceSpan s e ∧ s ≤ i ∧ i ≤ e ∧ b.messageOffset i = s
      ∧ (b.slot i).metadata.messageLast = b.firstSequence.advanced e := by
  obtain ⟨s, e, t, he, hs, hie, hml, hmf, hst, ht⟩ := h.labelled hdiff i hi hd
  refine ⟨s, e, he, hs, hie, ?_, hml⟩
  unfold SendBuffer.messageOffset
  generalize (b.slot i).metadata.messageFirst = mf at hmf ⊢
  generalize b.firstSequence = first at hmf ⊢
  rcases hst with rfl | rfl
  · -- the beginning has left the window
    rw [advanced_zero] at hmf
    subst hmf
    have hdist := distanceFrom_advanced (s := mf) (m := 0) (n := t) (by omega) (by omega)
    rw [advanced_zero] at hdist
    rw [hdist]
    omega
  rw [advanced_zero] at hmf
  subst hmf
  have hdist := distanceFrom_advanced (s := first) (m := s) (n := 0) (by omega) (by omega)
  rw [advanced_zero] at hdist
  rw [hdist]
  omega

theorem Told.start_messageOffset : b.messageOffset i < b.sequenceSpan
      ∧ (b.messageOffset i = 0 ∨ (b.slot (b.messageOffset i)).continues = false) := by
  obtain ⟨s, e, he, hs, hie, hoff, -⟩ := h.messageOffset hdiff hi hd
  rw [hoff]
  exact ⟨by omega, he.start⟩

end

theorem Idle.told (h : Idle b c) (hb : b.Sound) (ht : b.Told d) : c.Told d := by
  have hcap : b.sequenceSpan ≤ b.capacity := hb.lined.span_le
  unfold Told
  rw [h.sequenceSpan, h.firstSequence]
  refine Messages.congr ht (fun j hj => ?_) (fun hdiff j hj hd hq => ?_)
  · have hs := h.slot j
    refine ⟨?_, by rw [hs.header], hs.dropped, fun hd => hs.expiration ?_, hs.metadata⟩
    · unfold SendSlot.continues
      rw [hs.header]
    have hinside : (b.slot j).occupied = !(b.slot j).dropped := hb.lined.inside j (Nat.zero_le _) hj
    rw [hs.occupied, hinside, hd]
    rfl
  have hq' : (c.slots.slots (c.slots.position j)).dropRequestQueued = true := hq
  rw [h.slots.position] at hq'
  rcases h.requests _ hq' with hold | ⟨k, hk, hdk, heq⟩
  · exact .inl hold
  obtain ⟨hlt, hstart⟩ := ht.start_messageOffset hdiff hk hdk
  have hj' := (b.slots.position_inj (hj.trans_le hcap) (hlt.trans_le hcap)).1 heq
  exact .inr (hj' ▸ hstart)

theorem Told.advance (h : b.Told d) (hk : k ≤ b.sequenceSpan)
    (hspan : c.sequenceSpan = b.sequenceSpan - k)
    (hfirst : c.firstSequence = b.firstSequence.advanced k)
    (hslots : ∀ j < b.sequenceSpan - k, c.slot j = b.slot (k + j)) : c.Told d := by
  unfold Told
  rw [hspan, hfirst]
  exact Messages.shift h hk hslots

theorem discardSlots_slot (count offset : Nat) (b : SendBuffer)
    (hcap : offset + count ≤ b.capacity) :
    (discardSlots count offset b).capacity = b.capacity
      ∧ (discardSlots count offset b).sequenceSpan = b.sequenceSpan
      ∧ ∀ j < b.capacity, offset + count ≤ j → (discardSlots count offset b).slot j = b.slot j := by
  induction count generalizing offset b with
  | zero => exact ⟨rfl, rfl, fun _ _ _ => rfl⟩
  | succ count ih =>
    have hc : (b.discardSlot offset).capacity = b.capacity := b.discardSlot_capacity false offset
    obtain ⟨h1, h2, h3⟩ := ih (offset + 1) (b.discardSlot offset) (by omega)
    refine ⟨h1.trans hc, h2.trans (b.discardSlot_frame false offset).1, fun j hj hlt => ?_⟩
    rw [← b.discardSlot_slot_ne false (i := offset) (by omega) hj (by omega)]
    exact h3 j (by omega) (by omega)

theorem Told.acknowledgeBefore (h : b.Told d) (hb : b.Sound) (sequence : SequenceNumber) :
    (b.acknowledgeBefore sequence).2.Told d := by
  unfold SendBuffer.acknowledgeBefore
  split
  · exact h
  split
  · exact h
  next hneg hle =>
  have hcap : b.sequenceSpan ≤ b.capacity := hb.lined.span_le
  have hsequence := (advanced_distanceFrom (Int.not_lt.1 hneg)).symm
  generalize (sequence.distanceFrom b.firstSequence).toNat = d at hle hsequence ⊢
  obtain ⟨-, hspan, hslots⟩ := discardSlots_slot d 0 b (by omega)
  refine h.advance (k := d) (by omega) ?_ hsequence (fun j hj => ?_)
  · show (discardSlots d 0 b).sequenceSpan - d = _
    rw [hspan]
  rw [advanceWindow_slot]
  exact hslots (d + j) (by omega) (by omega)

theorem Told.acknowledgeSubmittedBefore (h : b.Told d) (hb : b.Sound) (sequence : SequenceNumber) :
    (b.acknowledgeSubmittedBefore sequence).2.Told d := by
  unfold SendBuffer.acknowledgeSubmittedBefore
  split
  · exact h
  split
  · exact h
  split
  · exact h
  · exact h.acknowledgeBefore hb sequence

theorem Told.releaseRetiredPrefix (h : b.Told d) (hb : b.Sound) :
    b.releaseRetiredPrefix.Told d := by
  rcases b.releaseRetiredPrefix_cases with heq | ⟨next, heq⟩
  · rw [heq]
    exact h
  rw [heq]
  exact h.acknowledgeBefore hb next

/-- The first `k` packets were live and are gone. -/
structure Older (b c : SendBuffer) (k : Nat) : Prop where
  le : k ≤ b.sequenceSpan
  span : c.sequenceSpan = b.sequenceSpan
  capacity : c.capacity = b.capacity
  first : c.firstSequence = b.firstSequence
  live : ∀ j < k, (b.slot j).dropped = false
  rest : ∀ j < b.capacity, k ≤ j → c.slot j = b.slot j

theorem Older.step (h : Older b c i) (hb : b.Sound) (hi : i < b.sequenceSpan)
    (ho : (b.slot i).occupied = true) : Older b (c.discardSlot i) (i + 1) := by
  have hcap : b.sequenceSpan ≤ b.capacity := hb.lined.span_le
  have hc := h.capacity
  refine ⟨hi, (c.discardSlot_frame false i).1.trans h.span,
    (c.discardSlot_capacity false i).trans hc,
    (c.discardSlot_frame false i).2.2.2.2.trans h.first, fun j hj => ?_, fun j hj hij => ?_⟩
  · rcases Nat.lt_succ_iff_lt_or_eq.1 hj with hlt | rfl
    · exact h.live j hlt
    · exact hb.lined.not_dropped hi ho
  rw [c.discardSlot_slot_ne false (by omega) (by omega) (by omega)]
  exact h.rest j hj (by omega)

/-- The loop stops between two messages. -/
theorem Older.dropOlderFrom (hb : b.Sound) (ht : b.Told d) (cutoff fuel bytes last : Nat)
    (h : Older b c k) (hlast : k ≠ 0 → last = (b.slot (k - 1)).header.messageNumber)
    (hfuel : k + fuel = b.sequenceSpan) :
    Older b (dropOlderFrom cutoff fuel k bytes last c).2.2
        (dropOlderFrom cutoff fuel k bytes last c).1
      ∧ ((dropOlderFrom cutoff fuel k bytes last c).1 = 0
        ∨ (dropOlderFrom cutoff fuel k bytes last c).1 = b.sequenceSpan
        ∨ (b.slot (dropOlderFrom cutoff fuel k bytes last c).1).continues = false) := by
  have hcap : b.sequenceSpan ≤ b.capacity := hb.lined.span_le
  induction fuel generalizing k bytes last c with
  | zero => exact ⟨h, .inr (.inl hfuel)⟩
  | succ fuel ih =>
    have hlt : k < b.sequenceSpan := by omega
    have hslot : c.slot k = b.slot k := h.rest k (by omega) (Nat.le_refl k)
    have hjoined : k ≠ 0 → (b.slot k).continues = true →
        (b.slot k).header.messageNumber = last ∧ (b.slot k).dropped = false := by
      intro hk hc
      have hsame := ht.same (k - 1) (by omega) (by rwa [Nat.sub_add_cancel (by omega)])
      rw [Nat.sub_add_cancel (by omega)] at hsame
      exact ⟨hsame.1.trans (hlast hk).symm, hsame.2.1.trans (h.live (k - 1) (by omega))⟩
    unfold dropOlderFrom
    simp only [hslot]
    split
    · next ho =>
      refine ⟨h, ?_⟩
      by_cases hk : k = 0
      · exact .inl hk
      refine .inr (.inr (Bool.eq_false_iff.2 fun hc => ?_))
      have hinside : (b.slot k).occupied = !(b.slot k).dropped :=
        hb.lined.inside k (Nat.zero_le _) hlt
      rw [(hjoined hk hc).2] at hinside
      simp [hinside] at ho
    split
    · next hstop =>
      refine ⟨h, ?_⟩
      by_cases hk : k = 0
      · exact .inl hk
      refine .inr (.inr (Bool.eq_false_iff.2 fun hc => ?_))
      have hcont : continuesDropped (b.slot k) k last = true := by
        unfold continuesDropped
        rw [Bool.and_eq_true, Bool.and_eq_true]
        exact ⟨⟨bne_iff_ne.2 hk, beq_iff_eq.2 (hjoined hk hc).1⟩, hc⟩
      simp [hcont] at hstop
    next ho _ =>
    exact ih _ _ (h.step hb hlt (by simpa using ho)) (fun _ => rfl) (by omega)

/-- What `drop_messages_older_than` takes ends with a message. -/
theorem Told.dropMessagesOlderThan (h : b.Told d) (hb : b.Sound) (cutoff : Nat) :
    (b.dropMessagesOlderThan cutoff).2.Told d
      ∧ (b.dropMessagesOlderThan cutoff).1.packets ≤ b.sequenceSpan
      ∧ (∀ j < b.sequenceSpan - (b.dropMessagesOlderThan cutoff).1.packets,
        (b.dropMessagesOlderThan cutoff).2.slot j
          = b.slot ((b.dropMessagesOlderThan cutoff).1.packets + j))
      ∧ ((b.dropMessagesOlderThan cutoff).1.packets = 0
        ∨ (b.dropMessagesOlderThan cutoff).1.packets = b.sequenceSpan
        ∨ (b.slot (b.dropMessagesOlderThan cutoff).1.packets).continues = false) := by
  have hcap : b.sequenceSpan ≤ b.capacity := hb.lined.span_le
  have hnone : ∀ j < b.sequenceSpan - 0, b.slot j = b.slot (0 + j) := fun j _ => by
    rw [Nat.zero_add]
  have hrun := Older.dropOlderFrom hb h cutoff b.sequenceSpan 0
    (b.slot 0).header.messageNumber (k := 0) (c := b)
    ⟨Nat.zero_le _, rfl, rfl, rfl, by omega, fun _ _ _ => rfl⟩ (by omega) (by omega)
  unfold SendBuffer.dropMessagesOlderThan
  simp only
  generalize dropOlderFrom cutoff b.sequenceSpan 0 0 (b.slot 0).header.messageNumber b
    = run at hrun ⊢
  obtain ⟨packets, bytes, dropped⟩ := run
  obtain ⟨holder, hstop⟩ := hrun
  simp only at holder hstop ⊢
  split
  · exact ⟨h, Nat.zero_le _, hnone, .inl rfl⟩
  split
  · next hzero =>
    subst hzero
    have hslots : ∀ j < b.sequenceSpan - 0, dropped.slot j = b.slot (0 + j) := fun j hj => by
      rw [Nat.zero_add]
      exact holder.rest j (by omega) (Nat.zero_le j)
    refine ⟨h.advance (Nat.zero_le _) holder.span ?_ hslots, Nat.zero_le _, hslots, .inl rfl⟩
    rw [advanced_zero]
    exact holder.first
  next hpos =>
  have hslots : ∀ j < b.sequenceSpan - packets,
      (dropped.advanceWindow packets (b.firstSequence.advanced (packets - 1)).next).slot j
        = b.slot (packets + j) := fun j hj => by
    rw [advanceWindow_slot]
    exact holder.rest _ (by omega) (by omega)
  refine ⟨h.advance holder.le ?_ ?_ hslots, holder.le, hslots, hstop⟩
  · show dropped.sequenceSpan - packets = _
    rw [holder.span]
  show (b.firstSequence.advanced (packets - 1)).next = _
  rw [next_advanced, Nat.sub_add_cancel (Nat.pos_of_ne_zero hpos)]

/-! ## Sending and enqueueing -/

theorem Told.of_slots (h : b.Told d) (hspan : c.sequenceSpan = b.sequenceSpan)
    (hfirst : c.firstSequence = b.firstSequence)
    (hslots : ∀ j < b.sequenceSpan, Alike (b.slot j) (c.slot j) ∧ ((c.slot j).dropRequestQueued =
      true → (b.slot j).dropRequestQueued = true)) : c.Told d := by
  unfold Told
  rw [hspan, hfirst]
  exact Messages.congr h (fun j hj => (hslots j hj).1)
    (fun _ j hj _ hq => .inl ((hslots j hj).2 hq))

theorem Alike.refl (a : SendSlot) : Alike a a := ⟨rfl, rfl, rfl, fun _ => rfl, fun _ => rfl⟩

theorem Told.setSlot (h : b.Told d) (hb : b.Sound) {a : SendSlot} (hi : i < b.sequenceSpan)
    (hslots : c.slots = b.slots.set i a) (hspan : c.sequenceSpan = b.sequenceSpan)
    (hfirst : c.firstSequence = b.firstSequence) (ha : Alike (b.slot i) a)
    (hq : a.dropRequestQueued = true → (b.slot i).dropRequestQueued = true) : c.Told d := by
  have hcap : b.sequenceSpan ≤ b.capacity := hb.lined.span_le
  refine h.of_slots hspan hfirst (fun j hj => ?_)
  have hslot : c.slot j = (b.slots.set i a).get j := congrArg (SlotRing.get · j) hslots
  rw [hslot]
  by_cases hji : j = i
  · rw [hji, SlotRing.get_set_self]
    exact ⟨ha, hq⟩
  rw [b.slots.get_set_ne (hi.trans_le hcap) (hj.trans_le hcap) hji]
  exact ⟨.refl _, id⟩

theorem Told.nextOriginal (defer : Bool) (now fuel : Nat) (h : b.Told d) (hb : b.Sound) :
    (nextOriginal defer now fuel b).2.Told d := by
  induction fuel generalizing b with
  | zero => exact h
  | succ fuel ih =>
    have hnext := hb.nextOriginal defer now 1
    unfold nextOriginal at hnext ⊢
    split
    · exact h
    next hu =>
    rw [if_neg hu] at hnext
    simp only at hnext ⊢
    split
    · exact h.setSlot hb (Nat.lt_of_not_le hu) rfl rfl rfl
        ⟨rfl, rfl, rfl, fun _ => rfl, fun _ => rfl⟩ id
    next hlive =>
    rw [if_neg hlive] at hnext
    exact ih h hnext

theorem Told.nextPacket (h : b.Told d) (hb : b.Sound) (defer allow : Bool) (now : Nat) :
    (b.nextPacket defer allow now).2.Told d := by
  obtain ⟨c, hc, ⟨p, -, heq⟩ | heq⟩ := nextPacket_cases b defer allow now <;> rw [heq]
  · exact hc.told hb h
  · exact (hc.told hb h).nextOriginal defer now _ (hc.sound hb)

theorem Told.preserveProtectedPayload (h : b.Told d) (hb : b.Sound) (sequence : SequenceNumber)
    (key : EncryptionKey) (mode : CryptoMode) (payload : Bytes) :
    (b.preserveProtectedPayload sequence key mode payload).2.Told d := by
  unfold SendBuffer.preserveProtectedPayload
  split
  · next i suite hfind _ =>
    obtain ⟨-, hi, -⟩ := find_eq_some hfind
    simp only
    split
    · exact h
    split
    · exact h
    split
    · exact h
    split
    · split <;> exact h
    · exact h.setSlot hb hi rfl rfl rfl ⟨rfl, rfl, rfl, fun _ => rfl, fun _ => rfl⟩ id
  · exact h

/-- The last packet of the window belongs to the message being enqueued. -/
def Open (b : SendBuffer) (f : MessageFields) : Prop :=
  b.sequenceSpan ≠ 0 ∧ (b.slot (b.sequenceSpan - 1)).header.messageNumber = f.messageNumber % 2 ^ 26
    ∧ (b.slot (b.sequenceSpan - 1)).dropped = false
    ∧ (b.slot (b.sequenceSpan - 1)).metadata.expiration = f.expiration

/-- A message may follow: the last one has another number. -/
def Follows (b : SendBuffer) (f : MessageFields) : Prop :=
  b.sequenceSpan = 0 ∨ (b.slot (b.sequenceSpan - 1)).header.messageNumber ≠ f.messageNumber % 2 ^ 26

theorem enqueuePacket_slot (b : SendBuffer) (f : MessageFields) (boundary : MessageBoundary)
    (payload : Bytes) (hroom : b.sequenceSpan < b.capacity) :
    (∀ j < b.sequenceSpan, (b.enqueuePacket f boundary payload).slot j = b.slot j)
      ∧ ((b.enqueuePacket f boundary payload).slot b.sequenceSpan).header.messageNumber
        = f.messageNumber % 2 ^ 26
      ∧ ((b.enqueuePacket f boundary payload).slot b.sequenceSpan).header.boundary = boundary
      ∧ ((b.enqueuePacket f boundary payload).slot b.sequenceSpan).dropped = false
      ∧ ((b.enqueuePacket f boundary payload).slot b.sequenceSpan).metadata.expiration
        = f.expiration := by
  refine ⟨fun j hj => b.slots.get_set_ne hroom (hj.trans hroom) (Nat.ne_of_lt hj) _, ?_, ?_, ?_, ?_⟩
  all_goals
    unfold slot enqueuePacket
    simp only [SlotRing.get_set_self]
    try rfl

theorem Told.enqueuePackets (f : MessageFields) (count : Nat) (first : Bool) (bytes : Bytes)
    (h : b.Told d) (hroom : b.sequenceSpan + count ≤ b.capacity)
    (hfirst : if first then d → b.Follows f else b.Open f) :
    (enqueuePackets f count first bytes b).Told d := by
  induction count generalizing first bytes b with
  | zero => exact h
  | succ count ih =>
    unfold enqueuePackets
    obtain ⟨hold, hnumber, hboundary, hdropped, hexp⟩ := b.enqueuePacket_slot f
      (boundaryOf first (count == 0)) (bytes.take b.maximumPayloadSize) (by omega)
    have hcontinues : ((b.enqueuePacket f (boundaryOf first (count == 0))
        (bytes.take b.maximumPayloadSize)).slot b.sequenceSpan).continues = !first := by
      unfold SendSlot.continues
      rw [hboundary]
      cases first <;> cases (count == 0) <;> rfl
    refine ih false _ (Messages.append h hold hdropped (fun hc => ?_) (fun hdiff hc => ?_)) ?_ ?_
    · rw [hcontinues] at hc
      cases first
      · obtain ⟨hne, hn, hd, he⟩ := hfirst
        exact ⟨hne, hnumber.trans hn.symm, hd, hexp.trans he.symm⟩
      · cases hc
    · rw [hcontinues] at hc
      cases first
      · cases hc
      rw [hnumber]
      exact (hfirst hdiff).imp id fun hne => hne.symm
    · show b.sequenceSpan + 1 + count ≤ b.capacity
      omega
    · exact ⟨Nat.succ_ne_zero _, hnumber, hdropped, hexp⟩

theorem Told.enqueueMessage (h : b.Told d) (hb : b.Sound) (message : Bytes) (f : MessageFields)
    (hf : d → b.Follows f) : (b.enqueueMessage message f).2.Told d := by
  obtain ⟨count, hroom, heq⟩ := enqueueMessage_eq hb message f
  rw [heq]
  exact h.enqueuePackets f _ _ _ hroom hf

theorem Told.enqueueStream (h : b.Told d) (hb : b.Sound) (bytes : Bytes) (f : MessageFields)
    (hf : d → b.Follows f) : (b.enqueueStream bytes f).2.Told d := by
  obtain ⟨count, taken, hroom, heq⟩ := enqueueStream_eq hb bytes f
  rw [heq]
  exact h.enqueuePackets _ _ _ _ hroom hf

/-! ## Expiry -/

/-- Entombing goes on to the end of the run of one number. -/
theorem entombFrom_stop (first : SequenceNumber) (number fuel offset bytes : Nat)
    (hb : b.Sound) (hle : offset ≤ b.sequenceSpan) (hfuel : b.sequenceSpan ≤ offset + fuel) :
    (entombFrom first number fuel offset bytes b).1 = b.sequenceSpan
      ∨ (b.slot (entombFrom first number fuel offset bytes b).1).occupied = false
      ∨ (b.slot (entombFrom first number fuel offset bytes b).1).header.messageNumber ≠ number := by
  induction fuel generalizing offset bytes b with
  | zero => exact .inl (show offset = b.sequenceSpan by omega)
  | succ fuel ih =>
    rw [entombFrom_succ]
    split
    · next hstop => exact hstop.imp_left fun hge => by omega
    next hgo =>
    have hcap : b.sequenceSpan ≤ b.capacity := hb.lined.span_le
    have hlt : offset < b.sequenceSpan := Nat.lt_of_not_le fun hge => hgo (.inl hge)
    have hspan := b.entomb_span first offset
    have hb' := hb.entomb first hlt
    have he := (entombFrom_entombed first number fuel (offset + 1)
      (bytes + (b.slot offset).plaintextSize) hb' (by omega)).2
    have hstop := ih (offset + 1) (bytes + (b.slot offset).plaintextSize) hb' (by omega) (by omega)
    generalize (entombFrom first number fuel (offset + 1)
      (bytes + (b.slot offset).plaintextSize) (b.entomb first offset)).1 = stop at he hstop ⊢
    have h1 := he.le
    have h2 := he.bound
    rw [hspan] at hstop h2
    by_cases hend : stop = b.sequenceSpan
    · exact .inl hend
    rw [b.entomb_slot_ne first (by omega) (by omega) (by omega)] at hstop
    exact hstop

/-- The labels change what the tombstones remember, nothing else. -/
theorem labelFrom_slot (last : SequenceNumber) (count stop bytes : Nat) (b : SendBuffer)
    (hcount : count ≤ stop) (hstop : stop ≤ b.capacity) :
    (labelFrom last count stop bytes b).sequenceSpan = b.sequenceSpan
      ∧ (labelFrom last count stop bytes b).firstSequence = b.firstSequence
      ∧ (∀ j < b.capacity, j < stop - count ∨ stop ≤ j →
        (labelFrom last count stop bytes b).slot j = b.slot j)
      ∧ ∀ j, stop - count ≤ j → j < stop →
        ∃ bytes', (labelFrom last count stop bytes b).slot j = { b.slot j with
          metadata := .dropped (b.slot j).metadata.messageFirst last bytes' } := by
  induction count generalizing stop bytes b with
  | zero => exact ⟨rfl, rfl, fun _ _ _ => rfl, fun j hj hlt => by omega⟩
  | succ count ih =>
    unfold labelFrom
    simp only
    generalize hbytes : bytes + (b.slot (stop - 1)).plaintextSize = sum
    generalize hset : b.setSlot (stop - 1) { b.slot (stop - 1) with
      metadata := .dropped (b.slot (stop - 1)).metadata.messageFirst last sum } = c
    have hself : c.slot (stop - 1) = { b.slot (stop - 1) with
        metadata := .dropped (b.slot (stop - 1)).metadata.messageFirst last sum } := by
      rw [← hset]
      exact b.slots.get_set_self _ _
    have hne : ∀ j < b.capacity, j ≠ stop - 1 → c.slot j = b.slot j := fun j hj hne => by
      rw [← hset]
      exact b.slots.get_set_ne (show stop - 1 < b.capacity by omega) hj hne _
    have hspan : c.sequenceSpan = b.sequenceSpan := by rw [← hset]; rfl
    have hfirst : c.firstSequence = b.firstSequence := by rw [← hset]; rfl
    have hcap : c.capacity = b.capacity := by rw [← hset]; rfl
    obtain ⟨h1, h2, h3, h4⟩ := ih (stop - 1) sum c (by omega) (by omega)
    refine ⟨h1.trans hspan, h2.trans hfirst, fun j hj hout => ?_, fun j hj hlt => ?_⟩
    · rw [h3 j (by omega) (by omega), hne j hj (by omega)]
    by_cases heq : j = stop - 1
    · rw [h3 j (by omega) (by omega), heq, hself]
      exact ⟨sum, rfl⟩
    obtain ⟨bytes', hj'⟩ := h4 j (by omega) (by omega)
    rw [hne j (by omega) heq] at hj'
    exact ⟨bytes', hj'⟩

/-- `c` is `b` with the whole messages at `s` to `e` entombed. -/
structure Buried (b c : SendBuffer) (s e : Nat) : Prop where
  le : s ≤ e
  lt : e < b.sequenceSpan
  start : s = 0 ∨ (b.slot s).continues = false
  stop : e + 1 = b.sequenceSpan ∨ (b.slot (e + 1)).continues = false
  live : ∀ j, s ≤ j → j ≤ e → (b.slot j).occupied = true
  span : c.sequenceSpan = b.sequenceSpan
  firstSequence : c.firstSequence = b.firstSequence
  tombs : ∀ j, s ≤ j → j ≤ e → (c.slot j).occupied = false
    ∧ Tombstone (b.slot j) (c.slot j) (b.firstSequence.advanced s) (b.firstSequence.advanced e)
  rest : ∀ j < b.capacity, j < s ∨ e < j → c.slot j = b.slot j

/-- `c` is `b` with the message at `s` to `e` entombed. -/
structure Expired (b c : SendBuffer) (s e : Nat) : Prop extends Buried b c s e where
  extent : Extent b.slot b.sequenceSpan s e

theorem Told.expireMessage (h : b.Told d) (hb : b.Sound) (hlt : i < b.sequenceSpan)
    (ho : (b.slot i).occupied = true) (hstart : i = 0 ∨ (b.slot i).continues = false) :
    ∃ e, Buried b (b.expireMessage i).2 i e ∧ (d → Extent b.slot b.sequenceSpan i e)
      ∧ (b.expireMessage i).1.packets = e + 1 - i
      ∧ (b.expireMessage i).1.firstMessageNumber = (b.slot i).header.messageNumber
      ∧ (b.expireMessage i).1.sequences
        = ⟨b.firstSequence.advanced i, b.firstSequence.advanced e⟩ := by
  have hcap : b.sequenceSpan ≤ b.capacity := hb.lined.span_le
  have he := (entombFrom_entombed (b.firstSequence.advanced i)
    (b.slot i).header.messageNumber b.sequenceSpan i 0 hb (Nat.le_of_lt hlt)).2
  have hend := entombFrom_stop (b.firstSequence.advanced i) (b.slot i).header.messageNumber
    b.sequenceSpan i 0 hb (Nat.le_of_lt hlt) (Nat.le_add_left _ _)
  unfold SendBuffer.expireMessage
  simp only
  generalize entombFrom (b.firstSequence.advanced i) (b.slot i).header.messageNumber
    b.sequenceSpan i 0 b = run at he hend ⊢
  obtain ⟨stop, bytes, c⟩ := run
  simp only at he hend ⊢
  have hle := he.le
  have hbound := he.bound
  have hpos : i < stop := by
    rcases Nat.lt_or_eq_of_le hle with hlt' | rfl
    · exact hlt'
    rcases hend with heq | hocc | hnum
    · omega
    · exact absurd (hocc.symm.trans ho) (by decide)
    · exact absurd rfl hnum
  have hlive : ∀ j, i ≤ j → j < stop → (b.slot j).dropped = false := fun j hj hjs =>
    hb.lined.not_dropped (by omega) (he.live j hj hjs).1
  have hstop : stop - 1 + 1 = b.sequenceSpan
      ∨ (b.slot (stop - 1 + 1)).continues = false := by
    rw [Nat.sub_add_cancel (by omega)]
    by_cases heq : stop = b.sequenceSpan
    · exact .inl heq
    refine .inr (Bool.eq_false_iff.2 fun hc => ?_)
    have hsame := h.same (stop - 1) (by omega) (by rwa [Nat.sub_add_cancel (by omega)])
    rw [Nat.sub_add_cancel (by omega)] at hsame
    rcases hend.resolve_left heq with hocc | hnum
    · have hinside : (b.slot stop).occupied = !(b.slot stop).dropped :=
        hb.lined.inside stop (Nat.zero_le _) (by omega)
      rw [hocc, hsame.2.1, hlive (stop - 1) (by omega) (by omega)] at hinside
      exact Bool.noConfusion hinside
    · exact hnum (hsame.1.trans (he.live (stop - 1) (by omega) (by omega)).2)
  have hextent : d → Extent b.slot b.sequenceSpan i (stop - 1) := by
    refine fun hdiff => ⟨by omega, by omega, fun j hij hj => ?_, hstart, hstop⟩
    · by_contra hc
      have hparted := h.parted hdiff (j - 1) (by omega)
        (by rw [Nat.sub_add_cancel (by omega)]; exact Bool.eq_false_iff.2 hc)
      rw [Nat.sub_add_cancel (by omega), (he.live j (by omega) (by omega)).2,
        (he.live (j - 1) (by omega) (by omega)).2] at hparted
      exact hparted rfl
  have hlast : (b.firstSequence.advanced i).advanced (stop - i - 1)
      = b.firstSequence.advanced (stop - 1) := by
    rw [advanced_advanced, show i + (stop - i - 1) = stop - 1 by omega]
  rw [hlast]
  obtain ⟨hspan, hfirst, hrest, htombs⟩ := labelFrom_slot (b.firstSequence.advanced (stop - 1))
    (stop - i) stop 0 c (by omega) (he.capacity.symm ▸ hbound.trans hcap)
  refine ⟨stop - 1, ⟨by omega, by omega, hstart, hstop, fun j hj hje => (he.live j hj (by omega)).1,
    hspan.trans he.span, hfirst.trans he.firstSequence, fun j hj hje => ?_, fun j hj hout => ?_⟩,
    hextent, by omega, trivial, rfl⟩
  · obtain ⟨bytes', heq⟩ := htombs j (by omega) (by omega)
    rw [heq, he.tombs j hj (by omega)]
    exact ⟨rfl, rfl, rfl, rfl, rfl, rfl⟩
  · rw [hrest j (he.capacity.symm ▸ hj) (by omega), he.rest j hj (by omega)]

theorem Buried.told {s e : Nat} (h : Buried b c s e) (hb : b.Sound) (ht : b.Told d)
    (he : d → Extent b.slot b.sequenceSpan s e) : c.Told d := by
  have hcap : b.sequenceSpan ≤ b.capacity := hb.lined.span_le
  have hlt : b.capacity < 2 ^ 30 := b.capacity_lt
  unfold Told
  rw [h.span, h.firstSequence]
  exact Messages.entomb ht (by omega) h.lt h.start h.stop he
    (fun j hj hout => h.rest j (by omega) hout) (fun j hs he => (h.tombs j hs he).2)

/-- A live packet whose time is over. -/
def Overdue (b : SendBuffer) (now i : Nat) : Prop :=
  (b.slot i).occupied = true ∧ (b.slot i).metadata.expiration ≠ 0
    ∧ (b.slot i).metadata.expiration < now

/-- The first overdue packet from `offset` to `stop`, or none. -/
def Found (b : SendBuffer) (now offset stop : Nat) : Nat ⊕ Nat → Prop
  | .inl i => offset ≤ i ∧ i < stop ∧ b.Overdue now i ∧ ∀ j, offset ≤ j → j < i → ¬ b.Overdue now j
  | .inr _ => ∀ j, offset ≤ j → j < stop → ¬ b.Overdue now j

theorem Found.before {now offset stop : Nat} {found : Nat ⊕ Nat}
    (h : b.Found now (offset + 1) stop found) (hno : ¬ b.Overdue now offset) :
    b.Found now offset stop found := by
  have hcases : ∀ j, offset ≤ j → j = offset ∨ offset + 1 ≤ j := fun j hj => by omega
  cases found with
  | inl i =>
    obtain ⟨hi, hlt, hover, hbefore⟩ := h
    refine ⟨by omega, hlt, hover, fun j hj hji => ?_⟩
    rcases hcases j hj with rfl | hgt
    · exact hno
    · exact hbefore j hgt hji
  | inr _ =>
    intro j hj hlt
    rcases hcases j hj with rfl | hgt
    · exact hno
    · exact h j hgt hlt

theorem expiredFrom_found (b : SendBuffer) (now fuel offset earliest : Nat) :
    b.Found now offset (offset + fuel) (b.expiredFrom now fuel offset earliest) := by
  induction fuel generalizing offset earliest with
  | zero => exact fun j hj hlt => by omega
  | succ fuel ih =>
    have hnext : ∀ earliest', ¬ b.Overdue now offset → b.Found now offset (offset + (fuel + 1))
        (b.expiredFrom now fuel (offset + 1) earliest') := by
      intro earliest' hno
      rw [show offset + (fuel + 1) = offset + 1 + fuel by omega]
      exact (ih (offset + 1) earliest').before hno
    unfold expiredFrom
    simp only
    split
    · next hskip =>
      refine hnext earliest fun hover => ?_
      simp [hover.1, hover.2.1] at hskip
    split
    · next hle => exact hnext _ fun hover => by have := hover.2.2; omega
    next hskip hle =>
    simp only [Bool.or_eq_true, Bool.not_eq_true', beq_iff_eq, not_or] at hskip
    exact ⟨le_rfl, by omega, ⟨by simpa using hskip.1, hskip.2, Nat.lt_of_not_le hle⟩,
      fun j hj hlt => by omega⟩

/-- What `drop_expired_message` does: nothing when no packet is overdue,
and otherwise it entombs the message of the first one. -/
theorem Told.dropExpiredMessage (h : b.Told d) (hb : b.Sound) (now : Nat) :
    ((∀ i < b.sequenceSpan, ¬ b.Overdue now i) ∧ (b.dropExpiredMessage now).1.packets = 0
        ∧ (b.dropExpiredMessage now).2.slots = b.slots
        ∧ (b.dropExpiredMessage now).2.sequenceSpan = b.sequenceSpan
        ∧ (b.dropExpiredMessage now).2.firstSequence = b.firstSequence)
      ∨ ∃ s e, b.Overdue now s ∧ Buried b (b.dropExpiredMessage now).2 s e
        ∧ (d → Extent b.slot b.sequenceSpan s e)
        ∧ (b.dropExpiredMessage now).1.packets = e + 1 - s
        ∧ (b.dropExpiredMessage now).1.firstMessageNumber = (b.slot s).header.messageNumber
        ∧ (b.dropExpiredMessage now).1.sequences
          = ⟨b.firstSequence.advanced s, b.firstSequence.advanced e⟩ := by
  unfold SendBuffer.dropExpiredMessage
  split
  · next hnone =>
    refine .inl ⟨fun i hi hover => ?_, rfl, rfl, rfl, rfl⟩
    obtain ⟨ho, hne, hlt⟩ := hover
    rcases hnone with hzero | hle
    · exact hne (hb.booked.expiration_eq_zero hzero ho)
    have hearliest : b.earliestExpiration ≤ (b.slot i).metadata.expiration :=
      hb.lined.earliest i hi ho hne
    omega
  have hscan := b.expiredFrom_found now b.sequenceSpan 0 (2 ^ 64 - 1)
  split
  · next i hrun =>
    rw [hrun] at hscan
    obtain ⟨-, hi, hover, hbefore⟩ := hscan
    have hlt : i < b.sequenceSpan := by omega
    have hstart : i = 0 ∨ (b.slot i).continues = false := by
      by_cases hzero : i = 0
      · exact .inl hzero
      refine .inr (Bool.eq_false_iff.2 fun hc => ?_)
      -- the packet before it would have been found
      have hsame := h.same (i - 1) (by omega) (by rwa [Nat.sub_add_cancel (by omega)])
      rw [Nat.sub_add_cancel (by omega)] at hsame
      have hd : (b.slot (i - 1)).dropped = false :=
        hsame.2.1.symm.trans (hb.lined.not_dropped hlt hover.1)
      have hinside : (b.slot (i - 1)).occupied = !(b.slot (i - 1)).dropped :=
        hb.lined.inside (i - 1) (Nat.zero_le _) (by omega)
      rw [hd] at hinside
      refine hbefore (i - 1) (Nat.zero_le _) (by omega) ⟨hinside, ?_⟩
      rw [← hsame.2.2 hd]
      exact hover.2
    obtain ⟨e, hburied, hextent, hpackets, hnumber, hseqs⟩ :=
      h.expireMessage hb hlt hover.1 hstart
    exact .inr ⟨i, e, hover, hburied, hextent, hpackets, hnumber, hseqs⟩
  next hrun =>
  rw [hrun] at hscan
  exact .inl ⟨fun i hi => hscan i (Nat.zero_le _) (by omega), rfl, rfl, rfl, rfl⟩

/-! ## Drop requests -/

theorem nextMessageDrop_some (fuel : Nat) (b : SendBuffer) {result : SendDropResult}
    (h : (nextMessageDrop fuel b).1 = some result) :
    ∃ i < b.sequenceSpan, (b.slot i).dropped = true ∧ (b.slot i).dropRequestQueued = true
      ∧ result = b.dropResult i (b.firstSequence.advanced i) := by
  induction fuel generalizing b with
  | zero => cases h
  | succ fuel ih =>
    unfold nextMessageDrop at h
    split at h
    · cases h
    next sequence _ =>
    simp only at h
    split at h
    · exact ih { b with dropRequests := b.dropRequests.tail } h
    next i hoffset =>
    split at h
    · exact ih { b with dropRequests := b.dropRequests.tail } h
    next hstands =>
    obtain ⟨hi, hsequence⟩ := offsetOf_eq_some hoffset
    rw [Bool.not_eq_true', Bool.not_eq_false, Bool.and_eq_true] at hstands
    exact ⟨i, hi, hstands.1, hstands.2, hsequence ▸ (Option.some.inj h).symm⟩

theorem nextMessageDrop_ranges (fuel : Nat) (b : SendBuffer) :
    (nextMessageDrop fuel b).2.rangeDropRequests = b.rangeDropRequests := by
  induction fuel generalizing b with
  | zero => rfl
  | succ fuel ih =>
    unfold nextMessageDrop
    split
    · rfl
    simp only
    split
    · exact ih _
    split
    · exact ih _
    · rfl

/-- The request for a message names what is left of it. -/
structure Requests (b : SendBuffer) (result : SendDropResult) (s e : Nat) : Prop where
  extent : Extent b.slot b.sequenceSpan s e
  tombs : ∀ j, s ≤ j → j ≤ e → (b.slot j).dropped = true
    ∧ (b.slot j).header.messageNumber = result.firstMessageNumber
  packets : result.packets = e - s + 1
  sequences : result.sequences = ⟨b.firstSequence.advanced s, b.firstSequence.advanced e⟩

theorem Told.dropResult (h : b.Told d) (hdiff : d) (hb : b.Sound) (hi : i < b.sequenceSpan)
    (hd : (b.slot i).dropped = true) (hq : (b.slot i).dropRequestQueued = true) :
    ∃ e, b.Requests (b.dropResult i (b.firstSequence.advanced i)) i e := by
  have hcap : b.sequenceSpan ≤ b.capacity := hb.lined.span_le
  have hlt : b.capacity < 2 ^ 30 := b.capacity_lt
  obtain ⟨s, e, he, hs, hie, -, hlast⟩ := h.messageOffset hdiff hi hd
  have hes := he.lt
  -- a marked tombstone is the first of its extent
  have hsi : s = i := by
    by_contra hne
    rcases h.marked hdiff i hi hd hq with hzero | hc
    · omega
    · exact Bool.noConfusion (hc.symm.trans (he.joined i (by omega) hie))
  subst hsi
  have hdist : ((b.slot s).metadata.messageLast.distanceFrom b.firstSequence).toNat = e := by
    rw [hlast]
    have hadv := distanceFrom_advanced (s := b.firstSequence) (m := e) (n := 0)
      (by omega) (by omega)
    rw [advanced_zero] at hadv
    rw [hadv]
    omega
  refine ⟨e, he, fun j hsj hje => ⟨?_, h.number_eq he hsj hje⟩, ?_, ?_⟩
  · rw [h.dropped_eq he hsj hje]
    exact hd
  · unfold dropResult
    simp only [hdist]
  unfold dropResult
  simp only [hdist]

/-! ## Runs -/

/-- The fields of the message an operation enqueues. -/
def Op.fields : Op → Option MessageFields
  | .enqueueMessage _ fields => some fields
  | .enqueueStream _ fields => some fields
  | _ => none

instance (b : SendBuffer) (f : MessageFields) : Decidable (b.Follows f) :=
  inferInstanceAs (Decidable (_ ∨ _))

/-- No message is enqueued behind one of its own number. -/
def DistinctNumbers (b : SendBuffer) (op : Op) : Prop :=
  (op.fields.all fun f => decide (b.Follows f)) = true

instance (b : SendBuffer) (op : Op) : Decidable (b.DistinctNumbers op) :=
  inferInstanceAs (Decidable (_ = true))

theorem Told.of_empty (hspan : b.sequenceSpan = 0) : b.Told d := by
  unfold Told
  rw [hspan]
  exact ⟨fun _ hi => absurd hi (Nat.not_lt_zero _), fun _ _ hi => absurd hi (Nat.not_lt_zero _),
    fun _ _ hi => absurd hi (Nat.not_lt_zero _), fun _ _ hi => absurd hi (Nat.not_lt_zero _)⟩

theorem told_make {initial : SequenceNumber} {n size : Nat} (h : make initial n size = some b) :
    b.Told d := by
  unfold make at h
  split at h
  · cases h
    exact .of_empty rfl
  · cases h

theorem Told.synchronizeEmpty (h : b.Told d) (next : SequenceNumber) :
    (b.synchronizeEmpty next).2.Told d := by
  unfold SendBuffer.synchronizeEmpty
  split
  · exact h
  next hempty =>
  simp only
  split
  · exact h
  · exact .of_empty (show b.sequenceSpan = 0 by omega)

theorem Told.apply (h : b.Told d) (hb : b.Sound) (op : Op) (hg : d → b.DistinctNumbers op) :
    (b.apply op).Told d := by
  -- the cases follow the alternatives of `apply`
  fun_cases SendBuffer.apply b op with
  | case1 next => exact h.synchronizeEmpty next
  | case2 message fields =>
    exact h.enqueueMessage hb message fields fun hdiff => of_decide_eq_true (hg hdiff)
  | case3 bytes fields =>
    exact h.enqueueStream hb bytes fields fun hdiff => of_decide_eq_true (hg hdiff)
  | case4 defer allow now => exact h.nextPacket hb defer allow now
  | case5 => exact (idle_peekRetransmissionFrom _ b).told hb h
  | case6 sequence => exact (b.idle_requeuePreparedRetransmission sequence).told hb h
  | case7 sequence key mode payload =>
    exact h.preserveProtectedPayload hb sequence key mode payload
  | case8 sequence => exact (b.rests_notePacketSubmitted sequence).told hb h
  | case9 sequence => exact h.acknowledgeSubmittedBefore hb sequence
  | case10 sequence => exact h.acknowledgeBefore hb sequence
  | case11 range now repeatAfter =>
    exact (b.idle_requestRetransmission range now repeatAfter).told hb h
  | case12 sequence now => exact (hb.idle_noteRetransmissionSent sequence now).told hb h
  | case13 => exact (b.idle_requestLastSentFrom _).told hb h
  | case14 => exact (idle_requestAllSentFrom _ _ _ b).told hb h
  | case15 => exact b.rests_nextPendingDropRequest.told hb h
  | case16 => exact b.rests_hasPendingDropRequest.told hb h
  | case17 => exact (rests_queueRetainedFrom _ _ _ b).told hb h
  | case18 => exact h.releaseRetiredPrefix hb
  | case19 => exact b.idle_compactRetransmissionQueue.told hb h
  | case20 ranges => exact (b.rests_queueRangeDropRequests ranges).told hb h
  | case21 cutoff => exact (h.dropMessagesOlderThan hb cutoff).1
  | case22 now =>
    rcases h.dropExpiredMessage hb now with
      ⟨-, -, hslots, hspan, hfirst⟩ | ⟨s, e, -, hburied, hextent, -⟩
    · refine h.of_slots hspan hfirst fun j _ => ?_
      rw [show (b.dropExpiredMessage now).2.slot j = b.slot j from
        congrArg (SlotRing.get · j) hslots]
      exact ⟨.refl _, id⟩
    · exact hburied.told hb h hextent

theorem told_of_reaches {guard : SendBuffer → Op → Prop}
    (hd : ∀ b op, guard b op → d → b.DistinctNumbers op) (h : Lts.Reaches system guard b) :
    b.Told d := by
  refine h.invariant (I := Told d) ?_ ?_
  · rintro b ⟨_, _, _, hmake⟩
    exact told_make hmake
  rintro b op _ hreaches hb hg rfl
  exact hb.apply (sound_of_reaches hreaches) op (hd b op hg)

/-- The packets of a message are overdue together. -/
theorem Told.overdue (h : b.Told d) {now s e j : Nat} (hover : b.Overdue now s)
    (he : Extent b.slot b.sequenceSpan s e)
    (hlive : ∀ j, s ≤ j → j ≤ e → (b.slot j).occupied = true) (hb : b.Sound) (hs : s ≤ j)
    (hj : j ≤ e) : b.Overdue now j := by
  induction j, hs using Nat.le_induction with
  | base => exact hover
  | succ j hs ih =>
    have hlt := he.lt
    have hbefore := ih (by omega)
    have hsame := (h.same j (by omega) (he.joined (j + 1) (by omega) hj)).2.2
      (hb.lined.not_dropped (by omega) hbefore.1)
    exact ⟨hlive (j + 1) (by omega) hj, hsame ▸ hbefore.2⟩

/-- What a pending drop request for a message names. -/
theorem Told.nextPendingDropRequest (h : b.Told True) (hb : b.Sound) {result : SendDropResult}
    (hresult : b.nextPendingDropRequest.1 = some result) :
    (∃ s e, b.Requests result s e)
      ∨ ∃ range rest, RangeDropQueue.next b.rangeDropRequests = some (range, rest)
        ∧ result.sequences = range := by
  have hranges := nextMessageDrop_ranges b.dropRequests.size b
  unfold SendBuffer.nextPendingDropRequest at hresult
  split at hresult
  · next found c hrun =>
    obtain ⟨i, hi, hd, hq, heq⟩ := nextMessageDrop_some b.dropRequests.size b (by rw [hrun])
    obtain ⟨e, hrequests⟩ := h.dropResult trivial hb hi hd hq
    rw [← heq, Option.some.inj hresult] at hrequests
    exact .inl ⟨i, e, hrequests⟩
  next c hrun =>
  rw [hrun] at hranges
  split at hresult
  · next range rest hnext =>
    rw [show c.rangeDropRequests = _ from hranges] at hnext
    exact .inr ⟨range, rest, hnext, by rw [← Option.some.inj hresult]⟩
  · cases hresult

/-- A message is left as it is or gone as a whole. -/
theorem Told.spared_by_dropMessagesOlderThan (h : b.Told d) (hb : b.Sound) (cutoff : Nat)
    {s e : Nat} (he : Extent b.slot b.sequenceSpan s e) :
    e < (b.dropMessagesOlderThan cutoff).1.packets
      ∨ ((b.dropMessagesOlderThan cutoff).1.packets ≤ s
        ∧ ∀ j, s ≤ j → j ≤ e → (b.dropMessagesOlderThan cutoff).2.slot
          (j - (b.dropMessagesOlderThan cutoff).1.packets) = b.slot j) := by
  obtain ⟨-, hle, hslots, hstop⟩ := h.dropMessagesOlderThan hb cutoff
  generalize (b.dropMessagesOlderThan cutoff).1.packets = k at hle hslots hstop ⊢
  have hlt := he.lt
  by_cases hek : e < k
  · exact .inl hek
  have hks : k ≤ s := by
    by_contra hgt
    rcases hstop with rfl | rfl | hc
    · omega
    · omega
    · exact Bool.noConfusion (hc.symm.trans (he.joined k (by omega) (by omega)))
  refine .inr ⟨hks, fun j hsj hje => ?_⟩
  rw [hslots (j - k) (by omega), Nat.add_sub_cancel' (by omega)]

/-- In every run `drop_expired_message` drops if and only if a packet is overdue
and `drop_messages_older_than` takes no message in part; where neighbouring
messages differ in number, what expires is what is left of one message, all of
it overdue, and each drop request for a message names what is left of it. -/
theorem messages_expire_whole (h : Lts.Reachable system b) :
    (∀ now, (b.dropExpiredMessage now).1.packets ≠ 0 ↔ ∃ i < b.sequenceSpan, b.Overdue now i)
      ∧ (Lts.Reaches system DistinctNumbers b →
        ∀ now, (b.dropExpiredMessage now).1.packets ≠ 0 →
          ∃ s e, (∀ j, s ≤ j → j ≤ e → b.Overdue now j)
            ∧ Expired b (b.dropExpiredMessage now).2 s e)
      ∧ (Lts.Reaches system DistinctNumbers b →
        ∀ result, b.nextPendingDropRequest.1 = some result →
          (∃ s e, b.Requests result s e)
            ∨ ∃ range rest, RangeDropQueue.next b.rangeDropRequests = some (range, rest)
              ∧ result.sequences = range)
      ∧ ∀ cutoff s e, Extent b.slot b.sequenceSpan s e →
        e < (b.dropMessagesOlderThan cutoff).1.packets
          ∨ ((b.dropMessagesOlderThan cutoff).1.packets ≤ s
            ∧ ∀ j, s ≤ j → j ≤ e → (b.dropMessagesOlderThan cutoff).2.slot
              (j - (b.dropMessagesOlderThan cutoff).1.packets) = b.slot j) := by
  have hb := sound_of_reaches h
  have ht : b.Told False := told_of_reaches (fun _ _ _ => False.elim) h
  have hdistinct : Lts.Reaches system DistinctNumbers b → b.Told True :=
    told_of_reaches fun _ _ hg _ => hg
  refine ⟨fun now => ?_, fun hrun now hne => ?_, fun hrun result hresult => ?_,
    fun cutoff s e he => ht.spared_by_dropMessagesOlderThan hb cutoff he⟩
  · rcases ht.dropExpiredMessage hb now with
      ⟨hnone, hzero, -⟩ | ⟨s, e, hover, hburied, -, hpackets, -⟩
    · exact ⟨fun hne => absurd hzero hne, fun ⟨i, hi, hover⟩ => absurd hover (hnone i hi)⟩
    have hle := hburied.le
    have hlt := hburied.lt
    exact ⟨fun _ => ⟨s, by omega, hover⟩, fun _ => by omega⟩
  · rcases (hdistinct hrun).dropExpiredMessage hb now with
      ⟨-, hzero, -⟩ | ⟨s, e, hover, hburied, hextent, -⟩
    · exact absurd hzero hne
    exact ⟨s, e, fun j => (hdistinct hrun).overdue hover (hextent trivial) hburied.live hb,
      hburied, hextent trivial⟩
  · exact (hdistinct hrun).nextPendingDropRequest hb hresult

/-- A message with a deadline in two packets, half sent, and one without. -/
def overdueRun : SendBuffer :=
  [.enqueueMessage [1, 2, 3] { messageNumber := 5, expiration := 10 }, .nextPacket false true 0,
    .enqueueMessage [4] { messageNumber := 6 }].foldl apply exampleSender

/-- The first one has expired, half of it is acknowledged, and its request is queued. -/
def requestedRun : SendBuffer :=
  [Op.dropExpiredMessage 11, .acknowledgeBefore (.ofNat 0), .queueRetainedDropRequests].foldl apply
    overdueRun

theorem messages_expire_whole_overdueRun :
    (overdueRun.dropExpiredMessage 11).1.packets ≠ 0
      ∧ (∃ s e, (∀ j, s ≤ j → j ≤ e → overdueRun.Overdue 11 j)
        ∧ Expired overdueRun (overdueRun.dropExpiredMessage 11).2 s e)
      ∧ (∃ result s e, requestedRun.nextPendingDropRequest.1 = some result
        ∧ requestedRun.Requests result s e)
      ∧ ∀ s e, Extent overdueRun.slot overdueRun.sequenceSpan s e →
        e < (overdueRun.dropMessagesOlderThan 100).1.packets
          ∨ (overdueRun.dropMessagesOlderThan 100).1.packets ≤ s := by
  have hrun : Lts.Reaches system DistinctNumbers overdueRun :=
    exampleSender_reached.foldl (by decide +kernel)
  have hrequested : Lts.Reaches system DistinctNumbers requestedRun :=
    hrun.foldl (by decide +kernel)
  have hall : ∀ {b}, Lts.Reaches system DistinctNumbers b → Lts.Reachable system b :=
    Lts.Reaches.mono fun _ _ _ => trivial
  obtain ⟨hdrops, hwhole, -, holder⟩ := messages_expire_whole (hall hrun)
  have hpackets := (hdrops 11).2 ⟨0, by decide +kernel, by decide +kernel, by decide +kernel,
    by decide +kernel⟩
  refine ⟨hpackets, hwhole hrun 11 hpackets, ?_, fun s e he => ?_⟩
  · obtain ⟨result, hresult⟩ := Option.isSome_iff_exists.1
      (show requestedRun.nextPendingDropRequest.1.isSome = true by decide +kernel)
    rcases (messages_expire_whole (hall hrequested)).2.2.1 hrequested result hresult with
      ⟨s, e, hrequests⟩ | ⟨range, rest, hnext, -⟩
    · exact ⟨result, s, e, hresult, hrequests⟩
    · have hnone : RangeDropQueue.next requestedRun.rangeDropRequests = none := by decide +kernel
      rw [hnone] at hnext
      cases hnext
  · exact (holder 100 s e he).imp_right And.left

/-- Two messages of number 5, the first with a deadline. -/
def sameNumberRun : SendBuffer :=
  [.enqueueMessage [1] { messageNumber := 5, expiration := 10 },
    .enqueueMessage [2] { messageNumber := 5 }].foldl apply exampleSender

/-- The second message has no deadline, and it is dropped with the first. -/
theorem message_without_deadline_expires :
    Lts.Reachable system sameNumberRun ∧ (sameNumberRun.slot 1).header.boundary = .solo
      ∧ (sameNumberRun.slot 1).occupied = true ∧ (sameNumberRun.slot 1).metadata.expiration = 0
      ∧ (sameNumberRun.dropExpiredMessage 11).1.packets = 2
      ∧ ((sameNumberRun.dropExpiredMessage 11).2.slot 1).dropped = true :=
  ⟨exampleSender_reached.foldl (by decide +kernel), by decide +kernel, by decide +kernel,
    by decide +kernel, by decide +kernel, by decide +kernel⟩

end SendBuffer

end Srt
