/-
# `PeerDrop` — messages that a peer's drop request spares

The loop of `drop_peer_requested_range` keeps the packets of whole messages.
What can still take a complete message are the trim behind the loop, which
passes dropped markers, rejected packets and every packet of a message that is
being discarded or of which a rejected packet is held, and the skip behind the
trim.  Both are followed here slot by slot, so that the condition under which
the frontier stops in front of every packet that can be read is exact, and it
is one on the buffer before the call.
-/
import Srt.Reliability.WholeMessages

namespace Srt

open ReceiveBuffer ReceiveSlot

namespace ReceiveBuffer

variable {b c : ReceiveBuffer} {i n message j : Nat}

/-- A message of `n` packets at offset `i`: all are held, none is rejected or
read from, and the boundaries say where it starts and ends. -/
structure CompleteMessage (b : ReceiveBuffer) (i n message : Nat) : Prop where
  pos : 0 < n
  within : i + n ≤ b.capacity
  readable : ∀ j, i ≤ j → j < i + n → (b.slot j).readable = true
  sequence : ∀ j, i ≤ j → j < i + n → (b.slot j).header.sequence = b.firstStored.advanced j
  number : ∀ j, i ≤ j → j < i + n → (b.slot j).header.messageNumber = message
  unread : ∀ j, i ≤ j → j < i + n → (b.slot j).payloadOffset = 0
  solo : n = 1 → (b.slot i).header.boundary = .solo
  first : 1 < n → (b.slot i).header.boundary = .first
  middle : ∀ j, i < j → j + 1 < i + n → (b.slot j).header.boundary = .subsequent
  last : ∀ j, i < j → j + 1 = i + n → (b.slot j).header.boundary = .last

theorem CompleteMessage.held (h : CompleteMessage b i n message) (start : Nat) :
    HeldMessage b start i n message :=
  ⟨h.pos, h.within, fun j hj hjn => occupied_of_readable (h.readable j hj hjn), h.sequence,
    h.number, fun j hj hjn _ => h.unread j hj hjn, h.solo, h.first, h.middle, h.last⟩

/-- A complete message is not given up. -/
theorem CompleteMessage.not_givenUp {range : SequenceRange} (h : CompleteMessage b i n message)
    (hs : b.Stored) (hj : i ≤ j) (hjn : j < i + n) : ¬ b.GivenUp range j := by
  rintro (hdropped | ⟨-, -, hlost⟩)
  · rw [(hs.slot j).exclusive (occupied_of_readable (h.readable j hj hjn))] at hdropped
    cases hdropped
  · exact (h.held _).not_lost hj hjn hlost

/-- What a drop leaves of the messages it spares. -/
structure Spares (b c : ReceiveBuffer) (i n k : Nat) : Prop where
  capacity : c.capacity = b.capacity
  first : c.firstStored = b.firstStored.advanced k
  le : k ≤ i
  slot : ∀ j, i ≤ j → j < i + n → c.slot (j - k) = b.slot j
  payload : ∀ j, i ≤ j → j < i + n → c.payloadOf (j - k) = b.payloadOf j

theorem Spares.complete (h : Spares b c i n k) (hm : CompleteMessage b i n message) :
    CompleteMessage c (i - k) n message := by
  have hle := h.le
  have hwithin := hm.within
  have hpos := hm.pos
  have hat : ∀ j, i - k ≤ j → j < i - k + n → c.slot j = b.slot (j + k) := by
    intro j hj hjn
    rw [← h.slot (j + k) (by omega) (by omega), Nat.add_sub_cancel]
  constructor
  · exact hpos
  · have hcap := h.capacity
    omega
  · intro j hj hjn
    rw [hat j hj hjn]
    exact hm.readable (j + k) (by omega) (by omega)
  · intro j hj hjn
    rw [hat j hj hjn, hm.sequence (j + k) (by omega) (by omega), h.first,
      SequenceNumber.advanced_advanced, Nat.add_comm]
  · intro j hj hjn
    rw [hat j hj hjn]
    exact hm.number (j + k) (by omega) (by omega)
  · intro j hj hjn
    rw [hat j hj hjn]
    exact hm.unread (j + k) (by omega) (by omega)
  · intro hn
    rw [hat _ le_rfl (by omega), Nat.sub_add_cancel hle]
    exact hm.solo hn
  · intro hn
    rw [hat _ le_rfl (by omega), Nat.sub_add_cancel hle]
    exact hm.first hn
  · intro j hj hjn
    rw [hat j (by omega) (by omega)]
    exact hm.middle (j + k) (by omega) (by omega)
  intro j hj hjn
  rw [hat j (by omega) (by omega)]
  exact hm.last (j + k) (by omega) (by omega)

/-! ## The trim -/

/-- A slot that the trim passes in any case: a dropped marker or a rejected
packet. -/
def Skippable (s : ReceiveSlot) : Prop :=
  s.dropped = true ∨ s.occupied = true ∧ s.rejectedPayload = true

/-- The message being discarded once `k` such slots are passed. -/
def discardingBehind (b : ReceiveBuffer) : Nat → Option Nat
  | 0 => b.discardingMessage
  | k + 1 =>
    if (b.slot k).dropped then b.discardingBehind k
    else if (b.slot k).endsMessage then none
    else some (b.slot k).header.messageNumber

variable {k fuel : Nat}

theorem retireHead_discardingMessage (b : ReceiveBuffer) (s : ReceiveSlot) :
    (b.retireHead s).discardingMessage = b.discardingMessage := by
  unfold retireHead
  rw [removeRejectedMessage_eq]
  rfl

theorem retireHead_firstStored (b : ReceiveBuffer) (s : ReceiveSlot) :
    (b.retireHead s).firstStored = b.firstStored.advanced 1 := by
  unfold retireHead
  rw [removeRejectedMessage_eq]
  rfl

theorem trimDroppedPrefixFrom_firstStored (fuel : Nat) (b : ReceiveBuffer) :
    ∃ q ≤ fuel, (b.trimDroppedPrefixFrom fuel).firstStored = b.firstStored.advanced q := by
  have hstay : b.firstStored = b.firstStored.advanced 0 := (SequenceNumber.advanced_zero _).symm
  induction fuel generalizing b with
  | zero => exact ⟨0, le_rfl, hstay⟩
  | succ fuel ih =>
    have hpass : ∀ (c : ReceiveBuffer) s, c.firstStored = b.firstStored → ∃ q ≤ fuel + 1,
        ((c.retireHead s).trimDroppedPrefixFrom fuel).firstStored = b.firstStored.advanced q := by
      intro c s hc
      obtain ⟨q, hq, heq⟩ := ih (c.retireHead s) (SequenceNumber.advanced_zero _).symm
      refine ⟨1 + q, by omega, ?_⟩
      rw [heq, retireHead_firstStored, hc, SequenceNumber.advanced_advanced]
    unfold trimDroppedPrefixFrom
    dsimp only
    split
    · exact hpass b _ rfl
    split
    · exact ⟨0, Nat.zero_le _, hstay⟩
    split
    · exact ⟨0, Nat.zero_le _, hstay⟩
    split <;> exact hpass _ _ rfl

/-- What the head packet makes the message being discarded. -/
theorem discardingAt_eq (b : ReceiveBuffer) (s : ReceiveSlot) :
    b.discardingAt s = if b.discardingMessage = some s.header.messageNumber
        ∨ b.messageRejected s.header.messageNumber = true then some s.header.messageNumber
      else none := by
  unfold discardingAt
  cases hd : b.discardingMessage with
  | none => simp [Option.filter]
  | some m =>
    by_cases hm : m = s.header.messageNumber
    · simp [Option.filter, hm]
    · simp [Option.filter, hm]

/-- The trim runs over the slots that it passes in any case. -/
theorem trim_skips (hs : b.Stored) (hk : k ≤ b.capacity)
    (hskip : ∀ i < k, Skippable (b.slot i)) :
    ∃ c, Shifted b c k ∧ c.Stored ∧ c.discardingMessage = b.discardingBehind k
      ∧ ∀ fuel, b.trimDroppedPrefixFrom (k + fuel) = c.trimDroppedPrefixFrom fuel := by
  induction k with
  | zero => exact ⟨b, .refl b, hs, rfl, fun fuel => by rw [Nat.zero_add]⟩
  | succ k ih =>
    obtain ⟨c, hc, hstored, hdiscarding, hrun⟩ := ih (by omega) fun i hi => hskip i (by omega)
    have hslot : c.slot 0 = b.slot k := by
      have hkept := hc.kept 0 (by omega)
      rwa [Nat.zero_add] at hkept
    have hstep : ∀ d, Shifted c d 1 → d.Stored →
        d.discardingMessage = b.discardingBehind (k + 1) →
        (∀ fuel, c.trimDroppedPrefixFrom (fuel + 1) = d.trimDroppedPrefixFrom fuel) →
        ∃ d, Shifted b d (k + 1) ∧ d.Stored ∧ d.discardingMessage = b.discardingBehind (k + 1)
          ∧ ∀ fuel, b.trimDroppedPrefixFrom (k + 1 + fuel) = d.trimDroppedPrefixFrom fuel := by
      intro d hd hstored hdiscarding hnext
      refine ⟨d, hc.trans hd hk, hstored, hdiscarding, fun fuel => ?_⟩
      rw [show k + 1 + fuel = k + (fuel + 1) by omega, hrun, hnext]
    rcases hskip k (by omega) with hdropped | ⟨hocc, hrejected⟩
    · rw [← hslot] at hdropped
      have hempty : (c.slot 0).occupied = false := by
        by_contra ho
        rw [(hstored.slot 0).exclusive (by simpa using ho)] at hdropped
        cases hdropped
      refine hstep _ (shifted_retireDropped c hempty) (hstored.retireDropped hdropped) ?_ ?_
      · rw [retireHead_discardingMessage, hdiscarding, discardingBehind, ← hslot, if_pos hdropped]
      · intro fuel
        rw [trimDroppedPrefixFrom]
        dsimp only
        rw [if_pos hdropped]
    rw [← hslot] at hocc hrejected
    have hpos : 0 < c.capacity := c.slots.capacity_pos
    have hkept := (hstored.slot 0).exclusive hocc
    have hdiscard : c.discardingAt (c.slot 0) = some (c.slot 0).header.messageNumber := by
      rw [discardingAt_eq, if_pos]
      exact .inr ((hstored.messageRejected_iff _).2 ⟨0, hpos, hrejected, rfl⟩)
    have hbehind : b.discardingBehind (k + 1) = if (c.slot 0).endsMessage then none
        else some (c.slot 0).header.messageNumber := by
      rw [discardingBehind, ← hslot, if_neg (by simp [hkept])]
    refine hstep _ (shifted_retireOccupied hstored hocc (b.discardingBehind (k + 1)))
      (hstored.retireOccupied hocc _) ?_ ?_
    · rw [retireHead_discardingMessage]
    · intro fuel
      rw [hbehind, trimDroppedPrefixFrom]
      dsimp only
      rw [if_neg (by simp [hkept]), if_neg (by simp [hocc]), hdiscard, if_neg (by simp)]
      split <;> rfl

/-- At a packet that can be read the trim ends unless the message is being
discarded or a rejected packet of it is held. -/
def Stops (b : ReceiveBuffer) (k : Nat) : Prop :=
  b.discardingBehind k ≠ some (b.slot k).header.messageNumber
    ∧ ∀ i < b.capacity, k < i → (b.slot i).rejectedPayload = true →
      (b.slot i).header.messageNumber ≠ (b.slot k).header.messageNumber

theorem Stored.not_skippable (hs : b.Stored) (hread : (b.slot j).readable = true) :
    ¬ Skippable (b.slot j) := by
  rintro (hdropped | ⟨-, hrejected⟩)
  · rw [(hs.slot j).exclusive (occupied_of_readable hread)] at hdropped
    cases hdropped
  · rw [rejected_of_readable hread] at hrejected
    cases hrejected

/-- Behind a prefix that has gone, in front of a readable packet: the message
of the packet is rejected by one that follows it. -/
theorem Shifted.messageRejected_iff (hc : Shifted b c k) (hstored : c.Stored)
    (hread : (b.slot k).readable = true) :
    c.messageRejected (b.slot k).header.messageNumber = true ↔ ∃ i < b.capacity,
      k < i ∧ (b.slot i).rejectedPayload = true
        ∧ (b.slot i).header.messageNumber = (b.slot k).header.messageNumber := by
  have hcap := hc.capacity
  rw [hstored.messageRejected_iff]
  constructor
  · rintro ⟨j, hj, hrej, hnumber⟩
    by_cases hin : j + k < b.capacity
    · rw [hc.kept j hin] at hrej hnumber
      refine ⟨j + k, hin, ?_, hrej, hnumber⟩
      by_contra hle
      obtain rfl : j = 0 := by omega
      rw [Nat.zero_add, rejected_of_readable hread] at hrej
      cases hrej
    have hempty := settled_eq_false.1 (hc.emptied j (by omega) (by omega))
    rw [hstored.rejectedPayload_of_empty hempty.1] at hrej
    cases hrej
  · rintro ⟨i, hi, hki, hrej, hnumber⟩
    refine ⟨i - k, by omega, ?_⟩
    rw [hc.kept (i - k) (by omega), Nat.sub_add_cancel (by omega)]
    exact ⟨hrej, hnumber⟩

variable {m : Nat}

section

variable (hs : b.Stored) (hk : k < b.capacity) (hskip : ∀ i < k, Skippable (b.slot i))
variable (htrim : Trimmed b b.trimDroppedPrefix m)
include hs hk hskip htrim

/-- How far the trim goes, counted from the slots it passes in any case. -/
theorem trim_length : ∃ c, Shifted b c k ∧ c.Stored ∧ c.discardingMessage = b.discardingBehind k
    ∧ b.trimDroppedPrefix = c.trimDroppedPrefixFrom (b.capacity - k)
    ∧ ∀ q ≤ b.capacity - k,
      (c.trimDroppedPrefixFrom (b.capacity - k)).firstStored = c.firstStored.advanced q →
      m = k + q := by
  obtain ⟨c, hc, hstored, hdiscarding, hrun⟩ := trim_skips hs hk.le hskip
  have heq : b.trimDroppedPrefix = c.trimDroppedPrefixFrom (b.capacity - k) := by
    rw [← hrun, Nat.add_sub_cancel' hk.le]
    rfl
  refine ⟨c, hc, hstored, hdiscarding, heq, fun q hq hfirst => ?_⟩
  have hcap : b.capacity < 2 ^ 30 := b.capacity_lt
  have hle := htrim.le
  rw [← heq, htrim.first, hc.first, SequenceNumber.advanced_advanced,
    SequenceNumber.advanced_inj_of_lt (by omega) (by omega)] at hfirst
  exact hfirst

theorem trim_ge : k ≤ m := by
  obtain ⟨c, -, -, -, -, hlength⟩ := trim_length hs hk hskip htrim
  obtain ⟨q, hq, hfirst⟩ := trimDroppedPrefixFrom_firstStored (b.capacity - k) c
  have hm := hlength q hq hfirst
  omega

/-- An empty slot ends the trim. -/
theorem trim_at_gap (hgap : (b.slot k).occupied = false) (hdropped : (b.slot k).dropped = false) :
    m = k := by
  obtain ⟨c, hc, -, -, -, hlength⟩ := trim_length hs hk hskip htrim
  have hslot : c.slot 0 = b.slot k := by
    have hkept := hc.kept 0 (by omega)
    rwa [Nat.zero_add] at hkept
  refine (hlength 0 (Nat.zero_le _) ?_).trans (Nat.add_zero k)
  rw [SequenceNumber.advanced_zero]
  cases b.capacity - k with
  | zero => rfl
  | succ fuel =>
    rw [trimDroppedPrefixFrom]
    dsimp only
    rw [hslot, if_neg (by simp [hdropped]), if_pos (by simp [hgap])]

theorem trim_at_readable (hread : (b.slot k).readable = true) : m = k ↔ b.Stops k := by
  obtain ⟨c, hc, hstored, hdiscarding, -, hlength⟩ := trim_length hs hk hskip htrim
  have hcap := hc.capacity
  have hslot : c.slot 0 = b.slot k := by
    have hkept := hc.kept 0 (by omega)
    rwa [Nat.zero_add] at hkept
  have hocc := occupied_of_readable hread
  have hdropped := (hs.slot k).exclusive hocc
  have hrejected := hc.messageRejected_iff hstored hread
  have hnext : b.capacity - k = b.capacity - k - 1 + 1 := by omega
  by_cases hgo : c.discardingMessage = some (b.slot k).header.messageNumber
      ∨ c.messageRejected (b.slot k).header.messageNumber = true
  · -- the packet is discarded with its message
    have hdiscard : c.discardingAt (c.slot 0) = some (b.slot k).header.messageNumber := by
      rw [discardingAt_eq, hslot, if_pos hgo]
    have hpassed : ∃ q ≤ b.capacity - k, 0 < q
        ∧ (c.trimDroppedPrefixFrom (b.capacity - k)).firstStored = c.firstStored.advanced q := by
      rw [hnext, trimDroppedPrefixFrom]
      dsimp only
      rw [hdiscard, hslot, if_neg (by simp [hdropped]), if_neg (by simp [hocc]), if_neg (by simp)]
      obtain ⟨q, hq, hfirst⟩ := trimDroppedPrefixFrom_firstStored (b.capacity - k - 1) _
      refine ⟨1 + q, by omega, by omega, hfirst.trans ?_⟩
      rw [retireHead_firstStored, SequenceNumber.advanced_advanced]
      split <;> rfl
    obtain ⟨q, hq, hpos, hfirst⟩ := hpassed
    have hm := hlength q hq hfirst
    refine iff_of_false (by omega) ?_
    rintro ⟨hother, hnone⟩
    rcases hgo with hsame | hheld
    · exact hother (hdiscarding ▸ hsame)
    · obtain ⟨i, hi, hki, hrej, hnumber⟩ := hrejected.1 hheld
      exact hnone i hi hki hrej hnumber
  have hdiscard : c.discardingAt (c.slot 0) = none := by
    rw [discardingAt_eq, hslot, if_neg hgo]
  have hstays : (c.trimDroppedPrefixFrom (b.capacity - k)).firstStored
      = c.firstStored.advanced 0 := by
    rw [hnext, trimDroppedPrefixFrom]
    dsimp only
    rw [hdiscard, hslot, if_neg (by simp [hdropped]), if_neg (by simp [hocc]),
      if_pos Option.isNone_none,
      SequenceNumber.advanced_zero]
  rw [not_or] at hgo
  refine iff_of_true ((hlength 0 (Nat.zero_le _) hstays).trans (Nat.add_zero k)) ⟨?_, ?_⟩
  · rw [← hdiscarding]
    exact hgo.1
  · intro i hi hki hrej hnumber
    exact hgo.2 (hrejected.2 ⟨i, hi, hki, hrej, hnumber⟩)

end

/-! ## The frontier -/

section

variable {start last : Nat} {range : SequenceRange}

/-- A packet that the trim passes in any case: it is given up or rejected. -/
def Skipped (b : ReceiveBuffer) (range : SequenceRange) (j : Nat) : Prop :=
  b.GivenUp range j ∨ (b.slot j).rejectedPayload = true

/-- The message is discarded when the trim comes to offset `j`: the last packet
in front that is not given up is of the message and does not end it. -/
def DiscardedAt (b : ReceiveBuffer) (range : SequenceRange) (j message : Nat) : Prop :=
  (∃ i < j, ¬ b.GivenUp range i ∧ (b.slot i).header.messageNumber = message
      ∧ (b.slot i).endsMessage = false ∧ ∀ q, i < q → q < j → b.GivenUp range q)
    ∨ b.discardingMessage = some message ∧ ∀ q < j, b.GivenUp range q

theorem discardedAt_zero (message : Nat) :
    b.DiscardedAt range 0 message ↔ b.discardingMessage = some message := by
  unfold DiscardedAt
  refine ⟨?_, fun h => .inr ⟨h, by omega⟩⟩
  rintro (⟨i, hi, -⟩ | h)
  · omega
  · exact h.1

/-- The drop ends in front of the packet at offset `j`: no rejected packet of
its message is held behind it, the message is not discarded when the trim comes
there, and where the range reaches from the frontier to the packet, everything
in front is given up and the range is shorter than half the number space. -/
structure SparesAt (b : ReceiveBuffer) (range : SequenceRange) (j : Nat) : Prop where
  later : ∀ i < b.capacity, j < i → ¬ b.GivenUp range i → (b.slot i).rejectedPayload = true →
    (b.slot i).header.messageNumber ≠ (b.slot j).header.messageNumber
  discarded : ¬ b.DiscardedAt range j (b.slot j).header.messageNumber
  reached : range.first.distanceFrom b.firstStored ≤ 0 →
    j ≤ range.last.distanceFrom b.firstStored →
    (∀ i < j, b.GivenUp range i)
      ∧ (0 < j ∨ range.last.distanceFrom b.firstStored + 1 < 2 ^ 30)

/-- The first packet that is neither given up nor rejected is spared. -/
def SparesMessages (b : ReceiveBuffer) (range : SequenceRange) : Prop :=
  0 ≤ range.last.distanceFrom range.first → 0 ≤ range.last.distanceFrom b.firstStored →
    ∀ j < b.capacity, (∀ i < j, b.Skipped range i) → (b.slot j).readable = true →
      ¬ b.GivenUp range j → b.SparesAt range j

theorem DropSpan.last_eq (h : DropSpan b range start last) :
    range.last = b.firstStored.advanced last := by
  have heq := SequenceNumber.advanced_distanceFrom (s := range.last) (o := b.firstStored)
    (by rw [h.last]; omega)
  rw [h.last, Int.toNat_natCast] at heq
  exact heq.symm

/-- What the trim of a drop starts from. -/
def dropMarked (b : ReceiveBuffer) (range : SequenceRange) : ReceiveBuffer :=
  (b.dropWithin range .completeMessages).buffer.advanceAcknowledgement

theorem advanceAcknowledgement_discardingMessage (b : ReceiveBuffer) :
    b.advanceAcknowledgement.discardingMessage = b.discardingMessage := by
  obtain ⟨m, hm⟩ := advanceAcknowledgementFrom_eq b.capacity b
  unfold advanceAcknowledgement
  rw [hm]

section

variable (hs : b.Stored) (hspan : DropSpan b range start last)
include hs hspan

theorem dropMarked_capacity : (b.dropMarked range).capacity = b.capacity :=
  (advanceAcknowledgement_capacity _).trans (dropWithin_exact hs hspan).capacity

theorem dropMarked_stored : (b.dropMarked range).Stored :=
  (dropWithin_exact hs hspan).stored.advanceAcknowledgement

theorem dropMarked_firstStored : (b.dropMarked range).firstStored = b.firstStored :=
  (advanceAcknowledgement_firstStored _).trans (dropWithin_exact hs hspan).first

theorem dropMarked_dropped (hj : j < b.capacity) :
    ((b.dropMarked range).slot j).dropped = true ↔ b.GivenUp range j := by
  unfold dropMarked
  rw [advanceAcknowledgement_slot]
  refine ⟨fun hdropped => ?_, fun h => h.dropped hs hspan hj⟩
  by_contra hkept
  rw [slot_of_not_givenUp hkept hs hspan hj] at hdropped
  exact hkept (.inl hdropped)

theorem dropMarked_slot (h : ¬ b.GivenUp range j) (hj : j < b.capacity) :
    (b.dropMarked range).slot j = b.slot j := by
  unfold dropMarked
  rw [advanceAcknowledgement_slot, slot_of_not_givenUp h hs hspan hj]

theorem dropMarked_rejected (hj : j < b.capacity) :
    ((b.dropMarked range).slot j).rejectedPayload = true
      ↔ ¬ b.GivenUp range j ∧ (b.slot j).rejectedPayload = true := by
  by_cases hgiven : b.GivenUp range j
  · refine iff_of_false ?_ fun h => h.1 hgiven
    have hstored := dropMarked_stored hs hspan
    have hdropped := (dropMarked_dropped hs hspan hj).2 hgiven
    rw [hstored.rejectedPayload_of_empty]
    · exact nofun
    by_contra hocc
    rw [(hstored.slot j).exclusive (by simpa using hocc)] at hdropped
    cases hdropped
  · rw [dropMarked_slot hs hspan hgiven hj]
    exact ⟨fun h => ⟨hgiven, h⟩, fun h => h.2⟩

theorem dropMarked_readable (hj : j < b.capacity) :
    ((b.dropMarked range).slot j).readable = true
      ↔ ¬ b.GivenUp range j ∧ (b.slot j).readable = true := by
  by_cases hgiven : b.GivenUp range j
  · refine iff_of_false (fun hread => ?_) fun h => h.1 hgiven
    have hdropped := (dropMarked_dropped hs hspan hj).2 hgiven
    rw [((dropMarked_stored hs hspan).slot j).exclusive (occupied_of_readable hread)] at hdropped
    cases hdropped
  · rw [dropMarked_slot hs hspan hgiven hj]
    exact ⟨fun h => ⟨hgiven, h⟩, fun h => h.2⟩

theorem dropMarked_skippable (hj : j < b.capacity) :
    Skippable ((b.dropMarked range).slot j) ↔ b.Skipped range j := by
  have hdropped := dropMarked_dropped hs hspan hj
  have hrejected := dropMarked_rejected hs hspan hj
  unfold Skippable Skipped
  rw [hdropped, hrejected]
  refine ⟨fun h => h.imp_right fun h => h.2.2, fun h => ?_⟩
  by_cases hgiven : b.GivenUp range j
  · exact .inl hgiven
  have hrej := h.resolve_left hgiven
  refine .inr ⟨?_, hgiven, hrej⟩
  rw [dropMarked_slot hs hspan hgiven hj]
  by_contra hempty
  rw [hs.rejectedPayload_of_empty (by simpa using hempty)] at hrej
  cases hrej

theorem dropMarked_discardingMessage :
    (b.dropMarked range).discardingMessage = b.discardingMessage := by
  unfold dropMarked
  rw [advanceAcknowledgement_discardingMessage]
  exact (dropWithin_exact hs hspan).discarding

theorem dropMarked_discarding (hj : j ≤ b.capacity) (message : Nat) :
    (b.dropMarked range).discardingBehind j = some message ↔ b.DiscardedAt range j message := by
  induction j with
  | zero =>
    rw [discardingBehind, dropMarked_discardingMessage hs hspan, discardedAt_zero]
  | succ j ih =>
    have hgiven := dropMarked_dropped hs hspan (j := j) (by omega)
    rw [discardingBehind]
    by_cases hup : b.GivenUp range j
    · rw [if_pos (hgiven.2 hup), ih (by omega)]
      unfold DiscardedAt
      have hall : ∀ i, (∀ q, i < q → q < j + 1 → b.GivenUp range q)
          ↔ ∀ q, i < q → q < j → b.GivenUp range q := by
        intro i
        refine ⟨fun h q hiq hqj => h q hiq (by omega), fun h q hiq hqj => ?_⟩
        by_cases hq : q = j
        · exact hq ▸ hup
        · exact h q hiq (by omega)
      have hfront : (∀ q < j + 1, b.GivenUp range q) ↔ ∀ q < j, b.GivenUp range q := by
        refine ⟨fun h q hqj => h q (by omega), fun h q hqj => ?_⟩
        by_cases hq : q = j
        · exact hq ▸ hup
        · exact h q (by omega)
      rw [hfront]
      refine or_congr_left ⟨?_, ?_⟩
      · rintro ⟨i, hi, hkept, hnumber, hend, hbetween⟩
        exact ⟨i, by omega, hkept, hnumber, hend, (hall i).2 hbetween⟩
      · rintro ⟨i, hi, hkept, hnumber, hend, hbetween⟩
        refine ⟨i, ?_, hkept, hnumber, hend, (hall i).1 hbetween⟩
        by_contra hle
        obtain rfl : i = j := by omega
        exact hkept hup
    · rw [if_neg (fun h => hup (hgiven.1 h)), dropMarked_slot hs hspan hup (by omega)]
      unfold DiscardedAt
      constructor
      · intro h
        split at h
        · cases h
        next hend =>
        exact .inl ⟨j, by omega, hup, Option.some.inj h, by simpa using hend, by omega⟩
      · rintro (⟨i, hi, hkept, hnumber, hend, hbetween⟩ | ⟨-, hall⟩)
        · obtain rfl : i = j := by
            by_contra hne
            exact hup (hbetween j (by omega) (by omega))
          rw [if_neg (by simp [hend]), hnumber]
        · exact absurd (hall j (by omega)) hup

end

end

/-- The distance as `std::size_t` leads to the number itself. -/
theorem advanced_distanceFrom_wrapped (s o : SequenceNumber) :
    o.advanced ((s.distanceFrom o) % 2 ^ 64).toNat = s := by
  have := s.value_lt
  have := o.value_lt
  ext
  rw [SequenceNumber.advanced_value, SequenceNumber.distanceFrom_eq_bmod, Int.bmod_def]
  omega

/-- The first packet that is not given up is the one that is remembered. -/
theorem firstPreserved_eq {start last : Nat} {range : SequenceRange} (hs : b.Stored)
    (hspan : DropSpan b range start last) (hstart : start = 0) (hj : j < b.capacity)
    (hjl : j ≤ last) (hkept : ¬ b.GivenUp range j) (hall : ∀ i < j, b.GivenUp range i) :
    (b.dropWithin range .completeMessages).firstPreserved = some (b.firstStored.advanced j) := by
  have hexact := dropWithin_exact hs hspan
  have hnot : ((b.dropWithin range .completeMessages).buffer.slot j).dropped ≠ true := by
    rw [slot_of_not_givenUp hkept hs hspan hj]
    exact fun hdropped => hkept (.inl hdropped)
  cases hp : (b.dropWithin range .completeMessages).firstPreserved with
  | none => exact absurd ((hexact.none_preserved hp).2 j (by omega) (by omega)) hnot
  | some s =>
    obtain ⟨p, -, hpn, hseq, hsame, hocc, hbefore⟩ := hexact.some_preserved s hp
    have hle : p ≤ j := by
      by_contra hlt
      exact hnot (hbefore j (by omega) (by omega))
    have hge : j ≤ p := by
      by_contra hlt
      have hdropped := (hall p (by omega)).dropped hs hspan (by omega)
      rw [hsame, (hs.slot p).exclusive hocc] at hdropped
      cases hdropped
    rw [hseq, Nat.le_antisymm hle hge]

section

variable {start last : Nat} {range : SequenceRange}
variable (hs : b.Stored) (hspan : DropSpan b range start last)
variable (htrim : Trimmed (b.dropMarked range) (b.dropTrimmed range .completeMessages) m)
include hs hspan htrim

theorem dropTrimmed_firstStored :
    (b.dropTrimmed range .completeMessages).firstStored = b.firstStored.advanced m := by
  rw [htrim.first, dropMarked_firstStored hs hspan]

/-- Where the skip is asked for. -/
theorem reaches_iff : (range.first.distanceFrom b.firstStored ≤ 0
      ∧ range.last.distanceFrom (b.dropTrimmed range .completeMessages).firstStored ≥ 0)
    ↔ range.first.distanceFrom b.firstStored ≤ 0 ∧ m ≤ last := by
  have hlt := hspan.last ▸ range.last.distanceFrom_lt b.firstStored
  have hcap : b.capacity < 2 ^ 30 := b.capacity_lt
  have hle := htrim.le
  rw [dropMarked_capacity hs hspan] at hle
  have hlast : range.last = b.firstStored.advanced last := hspan.last_eq
  rw [dropTrimmed_firstStored hs hspan htrim, hlast,
    SequenceNumber.distanceFrom_advanced _ (by omega) (by omega)]
  omega

/-- Where the frontier comes to: not behind the trim, and where the range
reaches beyond it, at the trim only when a preserved packet is there. -/
theorem frontier_of_drop : ∃ K, m ≤ K ∧ K ≤ 2 ^ 30
    ∧ (b.dropTrimmed range .completeMessages).firstStored.advanced
        (b.additionalAdvance range .completeMessages) = b.firstStored.advanced K
    ∧ (K = m → range.first.distanceFrom b.firstStored ≤ 0 → m ≤ last →
      (b.dropWithin range .completeMessages).firstPreserved = some (b.firstStored.advanced m)
        ∧ last + 1 < m + 2 ^ 30) := by
  have hlt := hspan.last ▸ range.last.distanceFrom_lt b.firstStored
  have hcap : b.capacity < 2 ^ 30 := b.capacity_lt
  have hle := htrim.le
  rw [dropMarked_capacity hs hspan] at hle
  have hfirst := dropTrimmed_firstStored hs hspan htrim
  have hreach := reaches_iff hs hspan htrim
  have hnext : range.last.next = b.firstStored.advanced (last + 1) := by
    rw [hspan.last_eq, SequenceNumber.next_advanced]
  unfold additionalAdvance
  dsimp only
  split
  · next hyes =>
    have hml := (hreach.1 hyes).2
    unfold dropAdvance
    dsimp only
    rw [advanced_distanceFrom_wrapped]
    cases hp : (b.dropWithin range .completeMessages).firstPreserved with
    | none => exact ⟨last + 1, by omega, by omega, hnext, by omega⟩
    | some s =>
      obtain ⟨p, hsp, hpn, hseq, -, -, -⟩ := (dropWithin_exact hs hspan).some_preserved s hp
      dsimp only
      split
      · next hcapped =>
        rw [hnext, hseq, hfirst, SequenceNumber.distanceFrom_advanced _ (by omega) (by omega),
          SequenceNumber.distanceFrom_advanced_eq_bmod, Int.bmod_def] at hcapped
        refine ⟨p, by omega, by omega, hseq, fun hpm _ _ => ⟨?_, by omega⟩⟩
        rw [hseq, hpm]
      · exact ⟨last + 1, by omega, by omega, hnext, by omega⟩
  · next hno =>
    refine ⟨m, le_rfl, by omega, ?_, fun _ hbefore hml => absurd (hreach.2 ⟨hbefore, hml⟩) hno⟩
    rw [SequenceNumber.advanced_zero, hfirst]

/-- Nothing is skipped where the trim ends at the first packet that is not
given up. -/
theorem additionalAdvance_eq_zero (hm : m < b.capacity) (hgiven : ¬ b.GivenUp range m)
    (hreached : range.first.distanceFrom b.firstStored ≤ 0 → m ≤ last →
      (∀ i < m, b.GivenUp range i)
        ∧ (0 < m ∨ range.last.distanceFrom b.firstStored + 1 < 2 ^ 30)) :
    b.additionalAdvance range .completeMessages = 0 := by
  have hlt := hspan.last ▸ range.last.distanceFrom_lt b.firstStored
  have hhalf : b.capacity < 2 ^ 30 := b.capacity_lt
  have hstart := hspan.start
  have hend := hspan.last
  unfold additionalAdvance
  dsimp only
  split
  · next hyes =>
    obtain ⟨hbefore, hml⟩ := (reaches_iff hs hspan htrim).1 hyes
    obtain ⟨hall, hshort⟩ := hreached hbefore hml
    have hp := firstPreserved_eq hs hspan (by omega) hm hml hgiven hall
    have hnear : (b.firstStored.advanced m).distanceFrom (b.firstStored.advanced m) = 0 := by
      rw [SequenceNumber.distanceFrom_advanced _ (by omega) (by omega), Int.sub_self]
    have hbeyond : (b.firstStored.advanced (last + 1)).distanceFrom (b.firstStored.advanced m)
        > 0 := by
      rw [SequenceNumber.distanceFrom_advanced _ (by omega) (by omega)]
      omega
    unfold dropAdvance
    rw [hp, dropTrimmed_firstStored hs hspan htrim, hspan.last_eq, SequenceNumber.next_advanced]
    dsimp only
    rw [if_pos ⟨ge_of_eq hnear, hbeyond⟩, hnear]
    rfl
  · rfl

/-- The trim ends in front of every packet that can still be read, and nothing
is skipped. -/
theorem SparesMessages.stays (h : b.SparesMessages range)
    (hrange : 0 ≤ range.last.distanceFrom range.first) (hj : j < b.capacity)
    (hread : ((b.dropMarked range).slot j).readable = true) :
    m ≤ j ∧ b.additionalAdvance range .completeMessages = 0 := by
  classical
  have hstored := dropMarked_stored hs hspan
  have hcap := dropMarked_capacity hs hspan
  -- the first slot that is not passed in any case
  have hex : ∃ q, ¬ Skippable ((b.dropMarked range).slot q) := ⟨j, hstored.not_skippable hread⟩
  obtain ⟨k, hk⟩ : ∃ k, k = Nat.find hex := ⟨_, rfl⟩
  have hkj : k ≤ j := hk ▸ Nat.find_min' hex (hstored.not_skippable hread)
  have hstop : ¬ Skippable ((b.dropMarked range).slot k) := hk ▸ Nat.find_spec hex
  have hskip : ∀ i < k, Skippable ((b.dropMarked range).slot i) := fun i hi =>
    not_not.1 (Nat.find_min hex (hk ▸ hi))
  have hkept : ((b.dropMarked range).slot k).dropped = false :=
    Bool.eq_false_iff.2 fun hdropped => hstop (.inl hdropped)
  have hgiven : ¬ b.GivenUp range k := fun hgiven => by
    rw [(dropMarked_dropped hs hspan (by omega)).2 hgiven] at hkept
    cases hkept
  have hskipped : ∀ i < k, b.Skipped range i := fun i hi =>
    (dropMarked_skippable hs hspan (by omega)).1 (hskip i hi)
  have hlast : 0 ≤ range.last.distanceFrom b.firstStored := by
    rw [hspan.last]
    omega
  have hspares : ((b.dropMarked range).slot k).occupied = true →
      ((b.dropMarked range).slot k).readable = true ∧ b.SparesAt range k := by
    intro hocc
    have hreadable : ((b.dropMarked range).slot k).readable = true := by
      unfold ReceiveSlot.readable
      rw [hocc, Bool.true_and, Bool.not_eq_true']
      exact Bool.eq_false_iff.2 fun hrejected => hstop (.inr ⟨hocc, hrejected⟩)
    exact ⟨hreadable, h hrange hlast k (by omega) hskipped
      ((dropMarked_readable hs hspan (by omega)).1 hreadable).2 hgiven⟩
  have hslot := dropMarked_slot hs hspan hgiven (j := k) (by omega)
  obtain rfl : m = k := by
    by_cases hocc : ((b.dropMarked range).slot k).occupied = true
    · obtain ⟨hreadable, hspares⟩ := hspares hocc
      refine (trim_at_readable hstored (by omega) hskip htrim hreadable).2 ⟨?_, ?_⟩
      · rw [ne_eq, hslot, dropMarked_discarding hs hspan (by omega)]
        exact hspares.discarded
      · intro i hi hki hrejected
        rw [hcap] at hi
        obtain ⟨hup, hrej⟩ := (dropMarked_rejected hs hspan hi).1 hrejected
        rw [dropMarked_slot hs hspan hup hi, hslot]
        exact hspares.later i hi hki hup hrej
    · exact trim_at_gap hstored (by omega) hskip htrim (by simpa using hocc) hkept
  refine ⟨hkj, additionalAdvance_eq_zero hs hspan htrim (by omega) hgiven fun hbefore hml => ?_⟩
  -- inside the range only packets of whole messages are left
  have hocc : (b.slot m).occupied = true := by
    have hheld : ¬ b.Lost (range.first.distanceFrom b.firstStored).toNat m := fun hlost =>
      hgiven (.inr ⟨by omega, by rw [hspan.last]; omega, hlost⟩)
    unfold Lost at hheld
    push Not at hheld
    obtain ⟨i, n, message, hi, hn, hm⟩ := hheld
    exact hm.occupied m hi hn
  exact (hspares (hslot ▸ hocc)).2.reached hbefore (by rw [hspan.last]; omega)

end

/-! ## What is left -/

theorem catchUpAcknowledgement_frame (b : ReceiveBuffer) :
    b.catchUpAcknowledgement.capacity = b.capacity
      ∧ b.catchUpAcknowledgement.firstStored = b.firstStored
      ∧ b.catchUpAcknowledgement.slots = b.slots
      ∧ b.catchUpAcknowledgement.payloads = b.payloads := by
  unfold catchUpAcknowledgement
  split
  · obtain ⟨m, hm⟩ := advanceAcknowledgementFrom_eq b.capacity { b with nextAck := b.firstStored }
    have heq : ({ b with nextAck := b.firstStored } : ReceiveBuffer).advanceAcknowledgement
      = _ := hm
    rw [heq]
    exact ⟨rfl, rfl, rfl, rfl⟩
  · exact ⟨rfl, rfl, rfl, rfl⟩

theorem skipFrontier_payloads (b : ReceiveBuffer) (n : Nat) :
    (b.skipFrontier n).payloads = b.payloads := by
  unfold skipFrontier
  split <;> rfl

theorem advanceAcknowledgement_payloads (b : ReceiveBuffer) :
    b.advanceAcknowledgement.payloads = b.payloads := by
  obtain ⟨m, hm⟩ := advanceAcknowledgementFrom_eq b.capacity b
  unfold advanceAcknowledgement
  rw [hm]

theorem payloadOf_congr {q : Nat} (hslot : c.slot q = b.slot j)
    (hget : c.payloads.get (b.slot j).payloadIndex = b.payloads.get (b.slot j).payloadIndex) :
    c.payloadOf q = b.payloadOf j := by
  unfold payloadOf
  rw [hslot, hget]

theorem catchUpAcknowledgement_slot (c : ReceiveBuffer) (q : Nat) :
    (c.skipFrontier 0).catchUpAcknowledgement.slot q = c.slot q := by
  rw [← c.skipFrontier_zero_slot q]
  exact congrArg (SlotRing.get · q) (c.skipFrontier 0).catchUpAcknowledgement_frame.2.2.1

theorem Spares.catchUp (h : Spares b c i n k) :
    Spares b (c.skipFrontier 0).catchUpAcknowledgement i n k := by
  obtain ⟨hcap, hfirst, -, hpayloads⟩ := (c.skipFrontier 0).catchUpAcknowledgement_frame
  rw [skipFrontier_payloads] at hpayloads
  have hslot := c.catchUpAcknowledgement_slot
  refine ⟨hcap.trans ((skipFrontier_capacity c 0).trans h.capacity), ?_, h.le, ?_, ?_⟩
  · rw [hfirst, skipFrontier_firstStored, SequenceNumber.advanced_zero, h.first]
  · intro j hj hjn
    rw [hslot, h.slot j hj hjn]
  intro j hj hjn
  rw [← h.payload j hj hjn]
  exact payloadOf_congr (hslot _) (by rw [hpayloads])

theorem Spares.refl (b : ReceiveBuffer) (i n : Nat) : Spares b b i n 0 :=
  ⟨rfl, (SequenceNumber.advanced_zero _).symm, Nat.zero_le _, fun _ _ _ => rfl, fun _ _ _ => rfl⟩

theorem dropMarked_payload {start last : Nat} {range : SequenceRange} (hs : b.Stored)
    (hspan : DropSpan b range start last) (h : ¬ b.GivenUp range j) (hj : j < b.capacity)
    (hocc : (b.slot j).occupied = true) :
    (b.dropMarked range).payloads.get (b.slot j).payloadIndex
      = b.payloads.get (b.slot j).payloadIndex := by
  unfold dropMarked
  rw [advanceAcknowledgement_payloads]
  exact (dropWithin_exact hs hspan).payload j hj (slot_of_not_givenUp h hs hspan hj) hocc

/-- The trim moves the message with the ring. -/
theorem CompleteMessage.spared_by_trim {start last : Nat} {range : SequenceRange}
    (h : CompleteMessage b i n message) (hs : b.Stored) (hspan : DropSpan b range start last)
    (hk : Trimmed (b.dropMarked range) (b.dropTrimmed range .completeMessages) k) (hki : k ≤ i) :
    Spares b (b.dropTrimmed range .completeMessages) i n k := by
  have hin := h.within
  have hcap := dropMarked_capacity hs hspan
  have hgiven : ∀ j, i ≤ j → j < i + n → ¬ b.GivenUp range j := fun j hj hjn =>
    h.not_givenUp hs hj hjn
  have hsame : ∀ j, i ≤ j → j < i + n → (b.dropMarked range).slot j = b.slot j := fun j hj hjn =>
    dropMarked_slot hs hspan (hgiven j hj hjn) (by omega)
  have hslot : ∀ j, i ≤ j → j < i + n →
      (b.dropTrimmed range .completeMessages).slot (j - k) = b.slot j := by
    intro j hj hjn
    rw [hk.kept (j - k) (by omega), Nat.sub_add_cancel (by omega), hsame j hj hjn]
  refine ⟨hk.capacity.trans hcap, dropTrimmed_firstStored hs hspan hk, hki, hslot, ?_⟩
  intro j hj hjn
  have hocc := occupied_of_readable (h.readable j hj hjn)
  have hget := hk.payload (j - k) (by omega) (by
    rw [Nat.sub_add_cancel (by omega), hsame j hj hjn]
    exact hocc)
  rw [Nat.sub_add_cancel (by omega), hsame j hj hjn,
    dropMarked_payload hs hspan (hgiven j hj hjn) (by omega) hocc] at hget
  exact payloadOf_congr (hslot j hj hjn) hget

/-! ## Which drops spare the complete messages -/

section

variable {range : SequenceRange}

theorem exists_dropSpan (h : 0 ≤ range.last.distanceFrom b.firstStored) :
    ∃ start last, DropSpan b range start last :=
  ⟨_, (range.last.distanceFrom b.firstStored).toNat, rfl, (Int.toNat_of_nonneg h).symm⟩

theorem exists_trimmed {start last : Nat} (hs : b.Stored) (hspan : DropSpan b range start last) :
    ∃ m, Trimmed (b.dropMarked range) (b.dropTrimmed range .completeMessages) m :=
  trimDroppedPrefix_spec (dropMarked_stored hs hspan)

theorem dropPeerRequestedRange_eq (hrange : 0 ≤ range.last.distanceFrom range.first)
    (hlast : 0 ≤ range.last.distanceFrom b.firstStored) :
    b.dropPeerRequestedRange range = ((b.dropTrimmed range .completeMessages).skipFrontier
      (b.additionalAdvance range .completeMessages)).catchUpAcknowledgement := by
  unfold dropPeerRequestedRange dropRangeImpl
  rw [if_neg (not_lt.2 hrange), if_neg (not_lt.2 hlast)]

theorem dropPeerRequestedRange_ignored (h : ¬ (0 ≤ range.last.distanceFrom range.first
    ∧ 0 ≤ range.last.distanceFrom b.firstStored)) : b.dropPeerRequestedRange range = b := by
  unfold dropPeerRequestedRange dropRangeImpl
  split
  · rfl
  next hrange =>
  rw [if_pos]
  by_contra hlast
  exact h ⟨not_lt.1 hrange, not_lt.1 hlast⟩

theorem dropRounds_state (hs : b.Stored) {start count : Nat}
    (hin : start + count ≤ b.capacity ∨ count = 0) :
    DropState b start count (dropRounds .completeMessages count start { buffer := b }) := by
  rcases hin with hin | rfl
  · have hspec := dropRounds_spec (dropState_start hs start) (k := count) (by omega)
      .completeMessages
    rw [Nat.zero_add] at hspec
    exact hspec
  · exact dropState_start hs start

/-- Whatever the range is, the loop leaves what can still be read. -/
theorem dropWithin_readable (hs : b.Stored) (hj : j < b.capacity)
    (hread : ((b.dropWithin range .completeMessages).buffer.slot j).readable = true) :
    (b.dropWithin range .completeMessages).buffer.slot j = b.slot j := by
  have hpos : 0 < b.capacity := b.slots.capacity_pos
  have hspec : ∃ start count, DropState b start count (b.dropWithin range .completeMessages) := by
    unfold dropWithin
    dsimp only
    exact ⟨_, _, dropRounds_state hs (by omega)⟩
  obtain ⟨start, count, hspec⟩ := hspec
  rcases hspec.slot_cases hj with ⟨-, -, -, hempty⟩ | hsame
  · rw [occupied_of_readable hread] at hempty
    cases hempty
  · exact hsame

/-- The drop moves nothing past a packet that the loop leaves. -/
theorem SparesMessages.keeps (h : b.SparesMessages range) (hs : b.Stored) (hj : j < b.capacity)
    (hread : ((b.dropWithin range .completeMessages).buffer.slot j).readable = true) :
    ∃ k ≤ j, (b.dropPeerRequestedRange range).firstStored = b.firstStored.advanced k
      ∧ (b.dropPeerRequestedRange range).slot (j - k)
        = (b.dropWithin range .completeMessages).buffer.slot j := by
  by_cases hrun : 0 ≤ range.last.distanceFrom range.first
      ∧ 0 ≤ range.last.distanceFrom b.firstStored
  · obtain ⟨hrange, hlast⟩ := hrun
    obtain ⟨start, last, hspan⟩ := exists_dropSpan hlast
    obtain ⟨m, htrim⟩ := exists_trimmed hs hspan
    have hcap := dropMarked_capacity hs hspan
    have hslot : (b.dropMarked range).slot j
        = (b.dropWithin range .completeMessages).buffer.slot j := by
      unfold dropMarked
      rw [advanceAcknowledgement_slot]
    obtain ⟨hmj, hzero⟩ := h.stays hs hspan htrim hrange hj (hslot ▸ hread)
    obtain ⟨-, hfirst, -, -⟩ := ((b.dropTrimmed range .completeMessages).skipFrontier
      0).catchUpAcknowledgement_frame
    rw [dropPeerRequestedRange_eq hrange hlast, hzero]
    refine ⟨m, hmj, ?_, ?_⟩
    · rw [hfirst, skipFrontier_firstStored, SequenceNumber.advanced_zero,
        dropTrimmed_firstStored hs hspan htrim]
    · rw [catchUpAcknowledgement_slot, htrim.kept (j - m) (by omega), Nat.sub_add_cancel hmj,
        hslot]
  rw [dropPeerRequestedRange_ignored hrun, dropWithin_readable hs hj hread]
  exact ⟨0, Nat.zero_le j, (SequenceNumber.advanced_zero _).symm, rfl⟩

theorem CompleteMessage.spared (h : CompleteMessage b i n message) (hs : b.Stored)
    (hspares : b.SparesMessages range) : ∃ k, Spares b (b.dropPeerRequestedRange range) i n k := by
  by_cases hrun : 0 ≤ range.last.distanceFrom range.first
      ∧ 0 ≤ range.last.distanceFrom b.firstStored
  · obtain ⟨hrange, hlast⟩ := hrun
    obtain ⟨start, last, hspan⟩ := exists_dropSpan hlast
    obtain ⟨m, htrim⟩ := exists_trimmed hs hspan
    have hpos := h.pos
    have hwithin := h.within
    have hread : ((b.dropMarked range).slot i).readable = true :=
      (dropMarked_readable hs hspan (by omega)).2
        ⟨h.not_givenUp hs le_rfl (by omega), h.readable i le_rfl (by omega)⟩
    obtain ⟨hmi, hzero⟩ := hspares.stays hs hspan htrim hrange (by omega) hread
    rw [dropPeerRequestedRange_eq hrange hlast, hzero]
    exact ⟨m, (h.spared_by_trim hs hspan htrim hmi).catchUp⟩
  · rw [dropPeerRequestedRange_ignored hrun]
    exact ⟨0, .refl b i n⟩

/-- A drop that moves nothing past such a packet meets the condition. -/
theorem sparesMessages_of_keeps (hs : b.Stored)
    (h : ∀ j < b.capacity, ((b.dropWithin range .completeMessages).buffer.slot j).readable = true →
      ∃ k ≤ j, (b.dropPeerRequestedRange range).firstStored = b.firstStored.advanced k) :
    b.SparesMessages range := by
  intro hrange hlast j hj hskipped hread hgiven
  obtain ⟨start, last, hspan⟩ := exists_dropSpan hlast
  have hstored := dropMarked_stored hs hspan
  have hcap := dropMarked_capacity hs hspan
  obtain ⟨m, htrim⟩ := exists_trimmed hs hspan
  have hslot := dropMarked_slot hs hspan hgiven hj
  have hskip : ∀ i < j, Skippable ((b.dropMarked range).slot i) := fun i hi =>
    (dropMarked_skippable hs hspan (by omega)).2 (hskipped i hi)
  have hmarked : ((b.dropMarked range).slot j).readable = true := by
    rw [hslot]
    exact hread
  obtain ⟨k, hkj, hk⟩ := h j hj (by rw [slot_of_not_givenUp hgiven hs hspan hj]; exact hread)
  obtain ⟨K, hmK, hK, hfirst, hend⟩ := frontier_of_drop hs hspan htrim
  have hge := trim_ge hstored (by omega) hskip htrim
  -- the frontier is where the packet is
  have hKj : K = j ∧ m = j := by
    have hhalf : b.capacity < 2 ^ 30 := b.capacity_lt
    obtain ⟨-, hcatch, -, -⟩ := ((b.dropTrimmed range .completeMessages).skipFrontier
      (b.additionalAdvance range .completeMessages)).catchUpAcknowledgement_frame
    rw [dropPeerRequestedRange_eq hrange hlast, hcatch, skipFrontier_firstStored, hfirst,
      SequenceNumber.advanced_inj_of_lt (by omega) (by omega)] at hk
    omega
  obtain ⟨rfl, rfl⟩ := hKj
  have hstops := (trim_at_readable hstored (by omega) hskip htrim hmarked).1 rfl
  refine ⟨?_, ?_, ?_⟩
  · intro i hi hmi hup hrejected
    have hother := hstops.2 i (by omega) hmi
      ((dropMarked_rejected hs hspan hi).2 ⟨hup, hrejected⟩)
    rwa [dropMarked_slot hs hspan hup hi, hslot] at hother
  · intro hdiscarded
    refine hstops.1 ?_
    rw [hslot]
    exact (dropMarked_discarding hs hspan hj.le _).2 hdiscarded
  · intro hbefore hreach
    have hstart := hspan.start
    have hbound := hspan.last
    obtain ⟨hp, hshort⟩ := hend rfl hbefore (by omega)
    obtain ⟨p, -, hpn, hseq, -, -, hall⟩ := (dropWithin_exact hs hspan).some_preserved _ hp
    have hhalf : b.capacity < 2 ^ 30 := b.capacity_lt
    rw [SequenceNumber.advanced_inj_of_lt (by omega) (by omega)] at hseq
    refine ⟨fun i hi => ?_, by omega⟩
    refine (dropMarked_dropped hs hspan (by omega)).1 ?_
    unfold dropMarked
    rw [advanceAcknowledgement_slot]
    exact hall i (by omega) (by omega)

end

/-! ## The pop -/

/-- The bytes of the packets from offset `q` on. -/
def sizeFrom (b : ReceiveBuffer) (q count : Nat) : Nat :=
  ((List.range' q count).map fun j => (b.slot j).payloadSize).sum

section

variable (h : CompleteMessage b 0 n message)
include h

theorem CompleteMessage.find (hj : j < n) : b.find (b.firstStored.advanced j) = some j := by
  have hin := h.within
  exact find_eq_some_iff.2 ⟨by omega, rfl, h.readable j (Nat.zero_le j) (by omega),
    h.sequence j (Nat.zero_le j) (by omega)⟩

theorem CompleteMessage.endsMessage (hj : j < n) : (b.slot j).endsMessage = decide (j + 1 = n) := by
  have hpos := h.pos
  unfold ReceiveSlot.endsMessage
  by_cases hn : n = 1
  · obtain rfl : j = 0 := by omega
    rw [h.solo hn, hn]
    rfl
  by_cases hj0 : j = 0
  · subst hj0
    rw [h.first (by omega), decide_eq_false (by omega)]
    rfl
  by_cases hlast : j + 1 = n
  · rw [h.last j (by omega) (by omega), decide_eq_true hlast]
    rfl
  rw [h.middle j (by omega) (by omega), decide_eq_false hlast]
  rfl

/-- The scan of a complete message reaches its end. -/
theorem CompleteMessage.scan {q fuel total : Nat} (hq : q < n) (hfuel : n ≤ q + fuel) :
    b.scanMessage message fuel (b.firstStored.advanced q) q total
      = .ok (n, total + b.sizeFrom q (n - q)) := by
  induction fuel generalizing q total with
  | zero => omega
  | succ fuel ih =>
    have hnumber := h.number q (Nat.zero_le q) (by omega)
    have hunread := h.unread q (Nat.zero_le q) (by omega)
    have hbound : ¬ (0 < q ∧ (b.slot q).header.boundary ≠ .subsequent
        ∧ (b.slot q).header.boundary ≠ .last) := by
      rintro ⟨hq0, hsub, hlast⟩
      by_cases hend : q + 1 = n
      · exact hlast (h.last q hq0 (by omega))
      · exact hsub (h.middle q hq0 (by omega))
    unfold scanMessage
    rw [h.find hq]
    dsimp only
    rw [if_neg (by simp only [hnumber, hunread, hbound, ne_eq, not_true_eq_false, or_self,
      not_false_eq_true]), h.endsMessage hq]
    by_cases hend : q + 1 = n
    · rw [if_pos (by simpa using hend), show n - q = 1 by omega, hend]
      simp [sizeFrom]
    rw [if_neg (by simpa using hend), SequenceNumber.next_advanced,
      ih (by omega) (by omega), show n - q = (n - (q + 1)) + 1 by omega]
    simp [sizeFrom, List.range'_succ, Nat.add_assoc]

/-- A complete message at the head can be popped. -/
theorem CompleteMessage.pop (hs : b.Stored) {size : Nat} (hsize : b.sizeFrom 0 n ≤ size) :
    (b.popMessage size).1 = .ok ⟨(List.range' 0 n).flatMap b.payloadOf, message, b.firstStored,
      (b.slot 0).header.timestamp⟩ := by
  have hpos := h.pos
  have hin := h.within
  have hzero : b.firstStored.advanced 0 = b.firstStored := b.firstStored.advanced_zero
  have hfind := h.find hpos
  have hscan : b.scanMessage message b.capacity (b.firstStored.advanced 0) 0 0
      = .ok (n, 0 + b.sizeFrom 0 (n - 0)) := h.scan hpos (by omega)
  rw [hzero] at hfind hscan
  rw [Nat.zero_add, Nat.sub_zero] at hscan
  have hstart : ¬ ((b.slot 0).header.boundary ≠ .solo ∧ (b.slot 0).header.boundary ≠ .first) := by
    rintro ⟨hsolo, hfirst⟩
    by_cases hn : n = 1
    · exact hsolo (h.solo hn)
    · exact hfirst (h.first (by omega))
  have hdelivered := (deliverSlots_spec (b := b.invalidateDeliveryQueries) (i := 0) (n := n) hs
    (by show 0 + n ≤ b.capacity; omega)
    (fun j hj hjn => h.readable j hj (by omega))).bytes
  unfold popMessage
  rw [hfind]
  dsimp only
  rw [if_neg hstart, if_neg (not_not_intro (h.unread 0 (Nat.le_refl 0) (by omega))),
    h.number 0 (Nat.le_refl 0) (by omega), hscan]
  dsimp only
  rw [if_neg (by omega), hdelivered]
  rfl

end

/-- A drop that the peer asks for keeps every complete message and moves
neither the frontier nor the head past a packet that can be read, exactly when
the first packet that is neither given up nor rejected is spared.  In every
state a complete message at the head can be popped. -/
theorem peer_drop_spares_complete_messages (b : ReceiveBuffer) (hb : Lts.Reachable system b)
    (range : SequenceRange) :
    (((∀ i n message, CompleteMessage b i n message →
        ∃ k, Spares b (b.dropPeerRequestedRange range) i n k
          ∧ CompleteMessage (b.dropPeerRequestedRange range) (i - k) n message)
      ∧ ∀ j < b.capacity,
        ((b.dropWithin range .completeMessages).buffer.slot j).readable = true →
          ∃ k ≤ j, (b.dropPeerRequestedRange range).firstStored = b.firstStored.advanced k
            ∧ (b.dropPeerRequestedRange range).slot (j - k)
              = (b.dropWithin range .completeMessages).buffer.slot j)
      ↔ b.SparesMessages range)
    ∧ ∀ c, Lts.Reachable system c → ∀ n message, CompleteMessage c 0 n message →
      ∀ size, c.sizeFrom 0 n ≤ size → (c.popMessage size).1
        = .ok ⟨(List.range' 0 n).flatMap c.payloadOf, message, c.firstStored,
          (c.slot 0).header.timestamp⟩ := by
  have hs := stored_of_reaches hb
  refine ⟨⟨?_, ?_⟩, ?_⟩
  · rintro ⟨-, hkeeps⟩
    refine sparesMessages_of_keeps hs fun j hj hread => ?_
    obtain ⟨k, hk, hfirst, -⟩ := hkeeps j hj hread
    exact ⟨k, hk, hfirst⟩
  · intro hspares
    refine ⟨?_, fun j hj hread => hspares.keeps hs hj hread⟩
    intro i n message h
    obtain ⟨k, hk⟩ := h.spared hs hspares
    exact ⟨k, hk, hk.complete h⟩
  intro c hc n message h size hsize
  exact h.pop (stored_of_reaches hc) hsize

theorem completeMessage_solo (hi : i < b.capacity) (hread : (b.slot i).readable = true)
    (hseq : (b.slot i).header.sequence = b.firstStored.advanced i)
    (hunread : (b.slot i).payloadOffset = 0) (hsolo : (b.slot i).header.boundary = .solo) :
    CompleteMessage b i 1 (b.slot i).header.messageNumber := by
  have hone : ∀ {j}, i ≤ j → j < i + 1 → j = i := by omega
  refine ⟨Nat.one_pos, hi, ?_, ?_, ?_, ?_, fun _ => hsolo, by omega, by omega, by omega⟩
  · rintro j hj hjn
    rw [hone hj hjn]
    exact hread
  · rintro j hj hjn
    rw [hone hj hjn]
    exact hseq
  · rintro j hj hjn
    rw [hone hj hjn]
  rintro j hj hjn
  rw [hone hj hjn]
  exact hunread

/-- Packet 1 is a message, packet 0 is missing. -/
def heldRun : ReceiveBuffer :=
  [exampleData 1 10].foldl apply exampleBuffer

theorem heldRun_sparesMessages : heldRun.SparesMessages ⟨.ofNat 0, .ofNat 2⟩ := by
  intro _ _ j hj _ hread _
  have hheld : ∀ j < heldRun.capacity, (heldRun.slot j).readable = true → j = 1 := by
    decide +kernel
  have hrejected : ∀ j < heldRun.capacity, (heldRun.slot j).rejectedPayload = false := by
    decide +kernel
  have hgiven : heldRun.GivenUp ⟨.ofNat 0, .ofNat 2⟩ 0 := by
    refine .inr ⟨by decide +kernel, by decide +kernel, fun i n message hi hn hm => ?_⟩
    have hempty : (heldRun.slot 0).occupied = false := by decide +kernel
    rw [hm.occupied 0 hi hn] at hempty
    cases hempty
  have hnone : heldRun.discardingMessage = none := by decide +kernel
  obtain rfl := hheld j hj hread
  refine ⟨?_, ?_, ?_⟩
  · intro i hi _ _ hrej
    rw [hrejected i hi] at hrej
    cases hrej
  · rintro (⟨i, hi, hkept, -⟩ | ⟨hdiscarding, -⟩)
    · obtain rfl : i = 0 := by omega
      exact hkept hgiven
    · rw [hnone] at hdiscarding
      cases hdiscarding
  · intro _ _
    refine ⟨fun i hi => ?_, .inl Nat.one_pos⟩
    obtain rfl : i = 0 := by omega
    exact hgiven

theorem peer_drop_spares_complete_messages_heldRun :
    (∃ k, Spares heldRun preservedRun 1 1 k ∧ CompleteMessage preservedRun (1 - k) 1 10)
    ∧ (preservedRun.popMessage 1).1 = .ok ⟨[1], 10, .ofNat 1, (preservedRun.slot
      0).header.timestamp⟩ := by
  have hreaches : Lts.Reachable system heldRun := exampleBuffer_reached.foldl (by decide +kernel)
  have hdropped : Lts.Reachable system preservedRun :=
    exampleBuffer_reached.foldl (by decide +kernel)
  have hmessage : CompleteMessage heldRun 1 1 10 :=
    completeMessage_solo (by decide +kernel) (by decide +kernel) (by decide +kernel)
      (by decide +kernel) (by decide +kernel)
  obtain ⟨hiff, hpop⟩ := peer_drop_spares_complete_messages heldRun hreaches
    ⟨.ofNat 0, .ofNat 2⟩
  have hrun : heldRun.dropPeerRequestedRange ⟨.ofNat 0, .ofNat 2⟩ = preservedRun := by
    unfold preservedRun heldRun
    simp only [List.foldl_cons, List.foldl_nil]
    rfl
  rw [hrun] at hiff
  refine ⟨(hiff.2 heldRun_sparesMessages).1 1 1 10 hmessage, ?_⟩
  have hhead : CompleteMessage preservedRun 0 1 10 :=
    completeMessage_solo (by decide +kernel) (by decide +kernel) (by decide +kernel)
      (by decide +kernel) (by decide +kernel)
  have hbytes : (List.range' 0 1).flatMap preservedRun.payloadOf = [1] := by decide +kernel
  have hfirst : preservedRun.firstStored = .ofNat 1 := by decide +kernel
  rw [hpop preservedRun hdropped 1 10 hhead 1 (by decide +kernel), hbytes, hfirst]

/-- Packet 1 is rejected, packet 2 is a message. -/
def rejectedRun : ReceiveBuffer :=
  [exampleData 1 10, .discardMessagePayload (.ofNat 1), exampleData 2 11].foldl apply exampleBuffer

/-- Packet 1 is a message, packet 2 is rejected and has the same number. -/
def forfeitRun : ReceiveBuffer :=
  [exampleData 1 10, exampleData 2 10, .discardMessagePayload (.ofNat 2)].foldl apply exampleBuffer

/-- The frontier passes a message that is complete and not rejected. -/
theorem peer_drop_passes_complete_message :
    (Lts.Reachable system rejectedRun ∧ CompleteMessage rejectedRun 2 1 11
      ∧ rejectedRun.firstStored = .ofNat 0
      ∧ (rejectedRun.dropPeerRequestedRange ⟨.ofNat 0, .ofNat 2⟩).firstStored = .ofNat 3)
    ∧ Lts.Reachable system forfeitRun ∧ CompleteMessage forfeitRun 1 1 10
      ∧ forfeitRun.firstStored = .ofNat 0
      ∧ (forfeitRun.dropPeerRequestedRange ⟨.ofNat 0, .ofNat 0⟩).firstStored = .ofNat 3 := by
  refine ⟨⟨exampleBuffer_reached.foldl (by decide +kernel), ?_, by decide +kernel,
    by decide +kernel⟩, exampleBuffer_reached.foldl (by decide +kernel), ?_, by decide +kernel,
    by decide +kernel⟩
  · exact completeMessage_solo (by decide +kernel) (by decide +kernel) (by decide +kernel)
      (by decide +kernel) (by decide +kernel)
  exact completeMessage_solo (by decide +kernel) (by decide +kernel) (by decide +kernel)
    (by decide +kernel) (by decide +kernel)

end ReceiveBuffer

end Srt
