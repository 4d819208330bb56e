/-
# `SendLedger` — the counters of the send buffer

The counters and the tree beside the ring repeat what its slots say
(`Books`), and the slots of the window stand in the order in which they were
enqueued, sent before unsent (`Line`).  Both are statements about the parts
they mention only, so an operation that writes none of these parts keeps them
as they are.

Every operation writes single slots: it enqueues one behind the window, sends
the one at the unsent offset, discards one, or rewrites flags that no counter
reads (`Unmoved`).
-/
import Srt.Reliability.SendBuffer

namespace Srt

open SendSlot SendBuffer SlotRing

variable {i j k : Nat} {s : SendSlot}

namespace SendSlot

/-! ## What a slot contributes -/

def live (s : SendSlot) : Nat :=
  if s.occupied then 1 else 0

def flight (s : SendSlot) : Nat :=
  if s.occupied && s.sent then 1 else 0

def plaintext (s : SendSlot) : Nat :=
  if s.occupied then s.plaintextSize else 0

def tomb (s : SendSlot) : Nat :=
  if s.dropped then 1 else 0

def expiring (s : SendSlot) : Nat :=
  if s.occupied && s.metadata.expiration != 0 then 1 else 0

def lease (s : SendSlot) : Multiset Nat :=
  if s.occupied then {s.payloadIndex} else 0

theorem lease_of_occupied (h : s.occupied = true) : s.lease = {s.payloadIndex} := if_pos h

theorem lease_of_free (h : s.occupied = false) : s.lease = 0 := by
  unfold lease
  rw [h]
  rfl

theorem card_lease_le (s : SendSlot) : Multiset.card s.lease ≤ 1 := by
  unfold lease
  split <;> simp

/-- The slot says the same to every counter. -/
structure Unmoved (s t : SendSlot) : Prop where
  occupied : t.occupied = s.occupied
  dropped : t.dropped = s.dropped
  sent : t.sent = s.sent
  plaintextSize : t.plaintextSize = s.plaintextSize
  expiration : t.occupied = true → t.metadata.expiration = s.metadata.expiration
  payloadIndex : t.payloadIndex = s.payloadIndex
  sequence : t.header.sequence = s.header.sequence
  sequencePosition : t.sequencePosition = s.sequencePosition

/-- Only flags and times of the slot differ. -/
structure Flagged (s t : SendSlot) : Prop extends Unmoved s t where
  header : t.header = s.header
  firstSend : t.firstSend = s.firstSend
  payloadSize : t.payloadSize = s.payloadSize
  protectionMode : t.protectionMode = s.protectionMode
  metadata : s.dropped = true → t.metadata = s.metadata

variable {s t u : SendSlot}

theorem Unmoved.refl (s : SendSlot) : Unmoved s s :=
  ⟨rfl, rfl, rfl, rfl, fun _ => rfl, rfl, rfl, rfl⟩

theorem Unmoved.trans (h : Unmoved s t) (h' : Unmoved t u) : Unmoved s u :=
  ⟨h'.occupied.trans h.occupied, h'.dropped.trans h.dropped, h'.sent.trans h.sent,
    h'.plaintextSize.trans h.plaintextSize,
    fun hu => (h'.expiration hu).trans (h.expiration (h'.occupied ▸ hu)),
    h'.payloadIndex.trans h.payloadIndex, h'.sequence.trans h.sequence,
    h'.sequencePosition.trans h.sequencePosition⟩

theorem Flagged.refl (s : SendSlot) : Flagged s s := ⟨.refl s, rfl, rfl, rfl, rfl, fun _ => rfl⟩

theorem Flagged.trans (h : Flagged s t) (h' : Flagged t u) : Flagged s u :=
  ⟨h.toUnmoved.trans h'.toUnmoved, h'.header.trans h.header, h'.firstSend.trans h.firstSend,
    h'.payloadSize.trans h.payloadSize, h'.protectionMode.trans h.protectionMode,
    fun hd => (h'.metadata (h.dropped.trans hd)).trans (h.metadata hd)⟩

theorem Flagged.flags (s : SendSlot) {requested submitted queued timed : Bool}
    {metadata : SlotMetadata} (h : metadata.expiration = s.metadata.expiration)
    (hm : s.dropped = true → metadata = s.metadata) :
    Flagged s { s with
      metadata
      dropRequestQueued := requested
      submitted
      retransmissionQueued := queued
      hasRetransmissionSendTime := timed } :=
  ⟨⟨rfl, rfl, rfl, rfl, fun _ => h, rfl, rfl, rfl⟩, rfl, rfl, rfl, rfl, hm⟩

theorem Unmoved.contributions (h : Unmoved s t) :
    t.live = s.live ∧ t.flight = s.flight ∧ t.plaintext = s.plaintext ∧ t.tomb = s.tomb
      ∧ t.expiring = s.expiring ∧ t.lease = s.lease := by
  have hexpiring : t.expiring = s.expiring := by
    unfold expiring
    by_cases ho : t.occupied = true
    · rw [h.expiration ho, h.occupied]
    · rw [← h.occupied, Bool.eq_false_iff.2 ho, Bool.false_and, Bool.false_and]
  unfold live flight plaintext tomb lease
  rw [hexpiring, h.occupied, h.sent, h.plaintextSize, h.dropped, h.payloadIndex]
  exact ⟨rfl, rfl, rfl, rfl, rfl, rfl⟩

end SendSlot

namespace SendBuffer

/-- The counters repeat what the slots say. -/
structure Books (slots : SlotRing SendSlot)
    (occupiedCount packetsInFlight bufferedPlaintextBytes retainedDropCount
      expiringPacketCount : Nat)
    (droppedCounts : Nat → Nat) (payloads : PayloadPool) : Prop where
  occupied : occupiedCount = slots.total live
  flight : packetsInFlight = slots.total flight
  plaintext : bufferedPlaintextBytes = slots.total plaintext
  retained : retainedDropCount = slots.total tomb
  expiring : expiringPacketCount = slots.total expiring
  tree : Fenwick.Represents 64 slots.capacity droppedCounts (fun p => (slots.slots p).tomb)
  leases : payloads.Leases (slots.total lease)
  poolCapacity : payloads.capacity = slots.capacity

/-- The window in its order, with the slots before `gone` already discarded. -/
structure Line (gone : Nat) (slots : SlotRing SendSlot)
    (sequenceSpan nextUnsentOffset earliestExpiration nextSequencePosition : Nat)
    (firstSequence : SequenceNumber) : Prop where
  span_le : sequenceSpan ≤ slots.capacity
  unsent_le : nextUnsentOffset ≤ sequenceSpan
  inside : ∀ i, gone ≤ i → i < sequenceSpan → (slots.get i).occupied = !(slots.get i).dropped
  outside : ∀ i < slots.capacity, i < gone ∨ sequenceSpan ≤ i →
    (slots.get i).occupied = false ∧ (slots.get i).dropped = false
  sent : ∀ i < sequenceSpan, (slots.get i).occupied = true →
    ((slots.get i).sent = true ↔ i < nextUnsentOffset)
  earliest : ∀ i < sequenceSpan, (slots.get i).occupied = true →
    (slots.get i).metadata.expiration ≠ 0 → earliestExpiration ≤ (slots.get i).metadata.expiration
  numbered : ∀ i < sequenceSpan, (slots.get i).header.sequence = firstSequence.advanced i
    ∧ (slots.get i).sequencePosition + sequenceSpan = nextSequencePosition + i

def Booked (b : SendBuffer) : Prop :=
  Books b.slots b.occupiedCount b.packetsInFlight b.bufferedPlaintextBytes b.retainedDropCount
    b.expiringPacketCount b.droppedCounts b.payloads

def Lined (gone : Nat) (b : SendBuffer) : Prop :=
  Line gone b.slots b.sequenceSpan b.nextUnsentOffset b.earliestExpiration b.nextSequencePosition
    b.firstSequence

/-- What holds between operations. -/
structure Sound (b : SendBuffer) : Prop where
  booked : b.Booked
  lined : b.Lined 0

variable {b c : SendBuffer}

theorem sound_make {initial : SequenceNumber} {n size : Nat} (h : make initial n size = some b) :
    b.Sound := by
  unfold make at h
  split at h
  · next hn =>
    cases h
    have hzero : ∀ {M : Type} [AddCommMonoid M] (f : SendSlot → M), f {} = 0 →
        (replicate n hn.1 ({} : SendSlot)).total f = 0 :=
      fun f hf => total_replicate f hn.1 hf
    refine ⟨⟨(hzero _ rfl).symm, (hzero _ rfl).symm, (hzero _ rfl).symm, (hzero _ rfl).symm,
      (hzero _ rfl).symm, Fenwick.represents_zero _ _, ?_, rfl⟩, ⟨Nat.zero_le _, le_rfl,
      fun _ _ hi => absurd hi (Nat.not_lt_zero _), fun _ _ _ => ⟨rfl, rfl⟩,
      fun _ hi => absurd hi (Nat.not_lt_zero _), fun _ hi => absurd hi (Nat.not_lt_zero _),
      fun _ hi => absurd hi (Nat.not_lt_zero _)⟩⟩
    show (PayloadPool.make n).Leases ((replicate n hn.1 ({} : SendSlot)).total _)
    rw [hzero _ rfl]
    exact PayloadPool.leases_make n
  · cases h

/-! ## One slot changes -/

/-- Books with one slot rewritten: each counter has exchanged the part of the
old slot for that of the new one. -/
theorem Booked.set (h : b.Booked) (i : Nat) (s : SendSlot) {o f p r e : Nat} {d : Nat → Nat}
    {payloads : PayloadPool} (hlive : o + (b.slot i).live = b.occupiedCount + s.live)
    (hflight : f + (b.slot i).flight = b.packetsInFlight + s.flight)
    (hplaintext : p + (b.slot i).plaintext = b.bufferedPlaintextBytes + s.plaintext)
    (htomb : r + (b.slot i).tomb = b.retainedDropCount + s.tomb)
    (hexpiring : e + (b.slot i).expiring = b.expiringPacketCount + s.expiring)
    (htree : Fenwick.Represents 64 b.slots.capacity d (fun q => ((b.slots.set i s).slots q).tomb))
    (hleases : payloads.Leases ((b.slots.set i s).total lease))
    (hpool : payloads.capacity = b.payloads.capacity) :
    Books (b.slots.set i s) o f p r e d payloads := by
  have hget : b.slots.get i = b.slot i := rfl
  have hsum : ∀ (g : SendSlot → Nat) {x y : Nat}, x + g (b.slot i) = y + g s →
      y = b.slots.total g → x = (b.slots.set i s).total g := by
    intro g x y hxy hy
    have hset := b.slots.total_set g i s
    rw [hget] at hset
    omega
  exact ⟨hsum _ hlive h.occupied, hsum _ hflight h.flight, hsum _ hplaintext h.plaintext,
    hsum _ htomb h.retained, hsum _ hexpiring h.expiring, htree, hleases,
    hpool.trans h.poolCapacity⟩

theorem Booked.tree_same (h : b.Booked) (i : Nat) (hs : s.tomb = (b.slot i).tomb) :
    Fenwick.Represents 64 b.slots.capacity b.droppedCounts
      (fun q => ((b.slots.set i s).slots q).tomb) := by
  have hsame : (fun q => ((b.slots.set i s).slots q).tomb) = fun q => (b.slots.slots q).tomb := by
    funext q
    by_cases hq : q = b.slots.position i
    · rw [hq, show (b.slots.set i s).slots (b.slots.position i) = s from if_pos rfl, hs]
      rfl
    · rw [show (b.slots.set i s).slots q = b.slots.slots q from if_neg hq]
  rw [hsame]
  exact h.tree

/-! ## Slots that say the same -/

/-- Ring against ring: every slot in its place stands in `R` to the old one. -/
structure Slotwise (R : SendSlot → SendSlot → Prop) (r r' : SlotRing SendSlot) : Prop where
  capacity : r'.capacity = r.capacity
  head : r'.head = r.head
  slots : ∀ p, R (r.slots p) (r'.slots p)

section Slotwise

variable {R S : SendSlot → SendSlot → Prop} {r r' r'' : SlotRing SendSlot}

theorem Slotwise.position (h : Slotwise R r r') (i : Nat) : r'.position i = r.position i := by
  unfold SlotRing.position
  rw [h.capacity, h.head]

theorem Slotwise.get (h : Slotwise R r r') (i : Nat) : R (r.get i) (r'.get i) := by
  unfold SlotRing.get
  rw [h.position]
  exact h.slots _

theorem Slotwise.mono (h : Slotwise R r r') (hRS : ∀ {s t}, R s t → S s t) : Slotwise S r r' :=
  ⟨h.capacity, h.head, fun p => hRS (h.slots p)⟩

theorem Slotwise.trans (h : Slotwise R r r') (h' : Slotwise R r' r'')
    (hR : ∀ {s t u}, R s t → R t u → R s u) : Slotwise R r r'' :=
  ⟨h'.capacity.trans h.capacity, h'.head.trans h.head, fun p => hR (h.slots p) (h'.slots p)⟩

theorem Slotwise.set (hR : ∀ s, R s s) (hs : R (r.get i) s) : Slotwise R r (r.set i s) := by
  refine ⟨rfl, rfl, fun p => ?_⟩
  by_cases hp : p = r.position i
  · rw [show (r.set i s).slots p = s from if_pos hp, hp]
    exact hs
  rw [show (r.set i s).slots p = r.slots p from if_neg hp]
  exact hR _

theorem Slotwise.total {M : Type} [AddCommMonoid M] {f : SendSlot → M} (h : Slotwise R r r')
    (hf : ∀ {s t}, R s t → f t = f s) : r'.total f = r.total f := by
  unfold SlotRing.total
  rw [h.capacity]
  exact Finset.sum_congr rfl (fun p _ => hf (h.slots p))

variable {o f p l e u x n k : Nat} {d : Nat → Nat} {payloads : PayloadPool}
  {first : SequenceNumber}

theorem Books.unmoved (h : Books r o f p l e d payloads) (hr : Slotwise SendSlot.Unmoved r r') :
    Books r' o f p l e d payloads := by
  have htomb : (fun q => (r'.slots q).tomb) = fun q => (r.slots q).tomb :=
    funext fun q => (hr.slots q).contributions.2.2.2.1
  refine ⟨h.occupied.trans ?_, h.flight.trans ?_, h.plaintext.trans ?_, h.retained.trans ?_,
    h.expiring.trans ?_, ?_, ?_, h.poolCapacity.trans hr.capacity.symm⟩
  · exact (hr.total fun hst => hst.contributions.1).symm
  · exact (hr.total fun hst => hst.contributions.2.1).symm
  · exact (hr.total fun hst => hst.contributions.2.2.1).symm
  · exact (hr.total fun hst => hst.contributions.2.2.2.1).symm
  · exact (hr.total fun hst => hst.contributions.2.2.2.2.1).symm
  · rw [htomb, hr.capacity]
    exact h.tree
  rw [hr.total fun hst => hst.contributions.2.2.2.2.2]
  exact h.leases

theorem Books.advance (h : Books r o f p l e d payloads) :
    Books (r.advance k) o f p l e d payloads :=
  ⟨h.occupied, h.flight, h.plaintext, h.retained, h.expiring, h.tree, h.leases, h.poolCapacity⟩

theorem Line.unmoved (h : Line k r x u e n first) (hr : Slotwise SendSlot.Unmoved r r') :
    Line k r' x u e n first := by
  refine ⟨hr.capacity.symm ▸ h.span_le, h.unsent_le, fun j hk hj => ?_, fun j hjc hj => ?_,
    fun j hj ho => ?_, fun j hj ho => ?_, fun j hj => ?_⟩
  · rw [(hr.get j).occupied, (hr.get j).dropped]
    exact h.inside j hk hj
  · rw [(hr.get j).occupied, (hr.get j).dropped]
    exact h.outside j (hr.capacity ▸ hjc) hj
  · rw [(hr.get j).sent]
    exact h.sent j hj ((hr.get j).occupied.symm.trans ho)
  · rw [(hr.get j).expiration ho]
    exact h.earliest j hj ((hr.get j).occupied.symm.trans ho)
  rw [(hr.get j).sequence, (hr.get j).sequencePosition]
  exact h.numbered j hj

end Slotwise

/-! ## The window under single writes -/

section Line

variable {k x u e n : Nat} {r : SlotRing SendSlot} {first : SequenceNumber} {s : SendSlot}

theorem Line.append (h : Line 0 r x u e n first) (hroom : x < r.capacity) {e' : Nat}
    (ho : s.occupied = true) (hd : s.dropped = false) (hs : s.sent = false)
    (hseq : s.header.sequence = first.advanced x) (hpos : s.sequencePosition = n)
    (hold : ∀ i < x, (r.get i).occupied = true → (r.get i).metadata.expiration ≠ 0 →
      e' ≤ (r.get i).metadata.expiration)
    (hnew : s.metadata.expiration ≠ 0 → e' ≤ s.metadata.expiration) :
    Line 0 (r.set x s) (x + 1) u e' (n + 1) first := by
  have hle := h.unsent_le
  have hrest : ∀ j < r.capacity, j ≠ x → (r.set x s).get j = r.get j := fun j hj hne =>
    r.get_set_ne hroom hj hne s
  have hcases : ∀ j < x + 1, j < x ∨ j = x := fun j hj => Nat.lt_succ_iff_lt_or_eq.1 hj
  refine ⟨hroom, by omega, fun j _ hj => ?_, fun j hjc hj => ?_, fun j hj hoj => ?_,
    fun j hj hoj => ?_, fun j hj => ?_⟩
  · rcases hcases j hj with hlt | rfl
    · rw [hrest j (by omega) (by omega)]
      exact h.inside j (Nat.zero_le _) hlt
    rw [get_set_self, ho, hd]
    rfl
  · rw [hrest j hjc (by omega)]
    exact h.outside j hjc (.inr (by omega))
  · rcases hcases j hj with hlt | rfl
    · rw [hrest j (by omega) (by omega)] at hoj ⊢
      exact h.sent j hlt hoj
    rw [get_set_self, hs]
    exact ⟨fun hf => Bool.noConfusion hf, fun hf => absurd hf (by omega)⟩
  · rcases hcases j hj with hlt | rfl
    · rw [hrest j (by omega) (by omega)] at hoj ⊢
      exact hold j hlt hoj
    rw [get_set_self]
    exact hnew
  rcases hcases j hj with hlt | rfl
  · rw [hrest j (by omega) (by omega)]
    obtain ⟨hj1, hj2⟩ := h.numbered j hlt
    exact ⟨hj1, by omega⟩
  rw [get_set_self]
  exact ⟨hseq, by omega⟩

theorem Line.pass (h : Line 0 r x u e n first) (hu : u < x) (ho : (r.get u).occupied = false) :
    Line 0 r x (u + 1) e n first := by
  refine ⟨h.span_le, hu, h.inside, h.outside, fun j hj hoj => ?_, h.earliest, h.numbered⟩
  have hne : j ≠ u := by
    rintro rfl
    rw [ho] at hoj
    exact Bool.noConfusion hoj
  rw [h.sent j hj hoj]
  omega

/-- A slot of the window with its number and, if it is live, its deadline. -/
theorem Line.rewrite (h : Line k r x u e n first) {k' u' : Nat} (hi : i < x) (hk : k ≤ k')
    (hk' : ∀ j, k ≤ j → j < k' → j = i) (hu : u' ≤ x) (hinside : k' ≤ i → s.occupied = !s.dropped)
    (hgone : i < k' → s.occupied = false ∧ s.dropped = false)
    (hsent : s.occupied = true → (s.sent = true ↔ i < u'))
    (hunsent : ∀ j < x, j ≠ i → (r.get j).occupied = true → (j < u' ↔ j < u))
    (hexp : s.occupied = true → (r.get i).occupied = true
      ∧ s.metadata.expiration = (r.get i).metadata.expiration)
    (hseq : s.header.sequence = (r.get i).header.sequence)
    (hpos : s.sequencePosition = (r.get i).sequencePosition) :
    Line k' (r.set i s) x u' e n first := by
  have hle := h.span_le
  have hrest : ∀ j < r.capacity, j ≠ i → (r.set i s).get j = r.get j := fun j hj hne =>
    r.get_set_ne (hi.trans_le hle) hj hne s
  refine ⟨hle, hu, fun j hkj hj => ?_, fun j hjc hj => ?_, fun j hj hoj => ?_,
    fun j hj hoj => ?_, fun j hj => ?_⟩
  · by_cases hji : j = i
    · rw [hji, get_set_self]
      exact hinside (hji ▸ hkj)
    rw [hrest j (by omega) hji]
    exact h.inside j (by omega) hj
  · by_cases hji : j = i
    · rw [hji, get_set_self]
      exact hgone (by omega)
    rw [hrest j hjc hji]
    refine h.outside j hjc (hj.imp_left fun hlt => ?_)
    by_contra hge
    exact hji (hk' j (Nat.le_of_not_lt hge) hlt)
  · by_cases hji : j = i
    · rw [hji, get_set_self] at hoj ⊢
      exact hsent hoj
    rw [hrest j (by omega) hji] at hoj ⊢
    exact (h.sent j hj hoj).trans (hunsent j hj hji hoj).symm
  · by_cases hji : j = i
    · rw [hji, get_set_self] at hoj ⊢
      rw [(hexp hoj).2]
      exact h.earliest i hi (hexp hoj).1
    rw [hrest j (by omega) hji] at hoj ⊢
    exact h.earliest j hj hoj
  by_cases hji : j = i
  · rw [hji, get_set_self, hseq, hpos]
    exact h.numbered i hi
  rw [hrest j (by omega) hji]
  exact h.numbered j hj

theorem Line.advance (h : Line k r x u e n first) (hk : k ≤ x) :
    Line 0 (r.advance k) (x - k) (u - min u k) e n (first.advanced k) := by
  have hle := h.span_le
  have hu := h.unsent_le
  have hget : ∀ j, (r.advance k).get j = r.get (k + j) := fun j => r.get_advance k j
  refine ⟨show x - k ≤ r.capacity by omega, by omega, fun j _ hj => ?_, fun j hjc hj => ?_,
    fun j hj hoj => ?_, fun j hj hoj => ?_, fun j hj => ?_⟩
  · rw [hget]
    exact h.inside _ (Nat.le_add_right _ _) (by omega)
  · rw [hget]
    have hjr : j < r.capacity := hjc
    -- beyond the end of the ring stand the slots the window has left
    by_cases hwrap : k + j < r.capacity
    · exact h.outside _ hwrap (.inr (by omega))
    obtain ⟨m, hm⟩ := Nat.exists_eq_add_of_le (Nat.le_of_not_lt hwrap)
    rw [hm, Nat.add_comm, r.get_add_capacity]
    exact h.outside m (by omega) (.inl (by omega))
  · rw [hget] at hoj ⊢
    rw [h.sent _ (by omega) hoj]
    omega
  · rw [hget] at hoj ⊢
    exact h.earliest _ (by omega) hoj
  rw [hget]
  obtain ⟨hseq, hpos⟩ := h.numbered (k + j) (by omega)
  rw [hseq, SequenceNumber.advanced_advanced]
  exact ⟨rfl, by omega⟩

end Line

/-- What a buffer has beside its slots and its rings. -/
structure Standing where
  maximumPayloadSize : Nat
  firstSequence : SequenceNumber
  payloads : PayloadPool
  droppedCounts : Nat → Nat
  nextSequencePosition : Nat
  sequenceSpan : Nat
  nextUnsentOffset : Nat
  occupiedCount : Nat
  retainedDropCount : Nat
  bufferedPlaintextBytes : Nat
  expiringPacketCount : Nat
  earliestExpiration : Nat
  packetsInFlight : Nat

def standing (b : SendBuffer) : Standing :=
  ⟨b.maximumPayloadSize, b.firstSequence, b.payloads, b.droppedCounts, b.nextSequencePosition,
    b.sequenceSpan, b.nextUnsentOffset, b.occupiedCount, b.retainedDropCount,
    b.bufferedPlaintextBytes, b.expiringPacketCount, b.earliestExpiration, b.packetsInFlight⟩

/-- The place where the drop request of a tombstone is marked. -/
def Requestable (b : SendBuffer) (p : Nat) : Prop :=
  ∃ j < b.sequenceSpan, (b.slot j).dropped = true ∧ p = b.slots.position (b.messageOffset j)

/-- Nothing but flags of slots and entries of the rings has changed, and drop
requests are marked only where a message of tombstones begins. -/
structure Idle (b c : SendBuffer) : Prop where
  standing : c.standing = b.standing
  slots : Slotwise SendSlot.Flagged b.slots c.slots
  requests : ∀ p, (c.slots.slots p).dropRequestQueued = true →
    (b.slots.slots p).dropRequestQueued = true ∨ b.Requestable p

theorem Idle.refl (b : SendBuffer) : Idle b b :=
  ⟨rfl, ⟨rfl, rfl, fun _ => .refl _⟩, fun _ h => .inl h⟩

theorem Idle.of_slots (hstanding : c.standing = b.standing) (hslots : c.slots = b.slots) :
    Idle b c :=
  ⟨hstanding, hslots ▸ ⟨rfl, rfl, fun _ => .refl _⟩, fun _ h => .inl (hslots ▸ h)⟩

theorem Idle.firstSequence (h : Idle b c) : c.firstSequence = b.firstSequence :=
  congrArg Standing.firstSequence h.standing

theorem Idle.sequenceSpan (h : Idle b c) : c.sequenceSpan = b.sequenceSpan :=
  congrArg Standing.sequenceSpan h.standing

theorem Idle.slot (h : Idle b c) (i : Nat) : SendSlot.Flagged (b.slot i) (c.slot i) := h.slots.get i

theorem Idle.messageOffset (h : Idle b c) (hd : (b.slot j).dropped = true) :
    c.messageOffset j = b.messageOffset j := by
  unfold SendBuffer.messageOffset
  rw [(h.slot j).metadata hd, h.firstSequence]

theorem Idle.requestable_iff (h : Idle b c) {p : Nat} : c.Requestable p ↔ b.Requestable p := by
  unfold Requestable
  rw [h.sequenceSpan]
  refine exists_congr fun j => and_congr_right fun _ => ?_
  rw [(h.slot j).dropped]
  refine and_congr_right fun hd => ?_
  rw [h.slots.position, h.messageOffset hd]

theorem Idle.trans {b c d : SendBuffer} (h : Idle b c) (h' : Idle c d) : Idle b d := by
  refine ⟨h'.standing.trans h.standing, h.slots.trans h'.slots SendSlot.Flagged.trans,
    fun p hp => ?_⟩
  rcases h'.requests p hp with hp | hp
  · exact h.requests p hp
  · exact .inr (h.requestable_iff.1 hp)

theorem Idle.of_set (hstanding : c.standing = b.standing) (hslots : c.slots = b.slots.set i s)
    (h : SendSlot.Flagged (b.slot i) s)
    (hr : s.dropRequestQueued = true → (b.slot i).dropRequestQueued = true
      ∨ b.Requestable (b.slots.position i)) : Idle b c := by
  refine ⟨hstanding, hslots ▸ .set .refl h, fun p hp => ?_⟩
  rw [hslots] at hp
  by_cases hpi : p = b.slots.position i
  · rw [show (b.slots.set i s).slots p = s from if_pos hpi] at hp
    rw [hpi]
    exact hr hp
  rw [show (b.slots.set i s).slots p = b.slots.slots p from if_neg hpi] at hp
  exact .inl hp

theorem Idle.sound (h : Idle b c) (hb : b.Sound) : c.Sound := by
  have hs := h.standing
  simp only [SendBuffer.standing, Standing.mk.injEq] at hs
  obtain ⟨_, h2, h3, h4, h5, h6, h7, h8, h9, h10, h11, h12, h13⟩ := hs
  have hslots := h.slots.mono SendSlot.Flagged.toUnmoved
  constructor
  · unfold Booked
    rw [h3, h4, h8, h9, h10, h11, h13]
    exact hb.booked.unmoved hslots
  unfold Lined
  rw [h2, h5, h6, h7, h12]
  exact hb.lined.unmoved hslots

/-- Idle, with the marks of retransmissions and their ring as they were. -/
structure Rests (b c : SendBuffer) : Prop extends Idle b c where
  ring : c.retransmissions = b.retransmissions
  drops : c.dropRequests.capacity = b.dropRequests.capacity
  marks : ∀ p, (c.slots.slots p).retransmissionQueued = (b.slots.slots p).retransmissionQueued

theorem Rests.refl (b : SendBuffer) : Rests b b := ⟨.refl b, rfl, rfl, fun _ => rfl⟩

theorem Rests.trans {b c d : SendBuffer} (h : Rests b c) (h' : Rests c d) : Rests b d :=
  ⟨h.toIdle.trans h'.toIdle, h'.ring.trans h.ring, h'.drops.trans h.drops,
    fun p => (h'.marks p).trans (h.marks p)⟩

theorem Rests.of_slots (hstanding : c.standing = b.standing) (hslots : c.slots = b.slots)
    (hring : c.retransmissions = b.retransmissions)
    (hdrops : c.dropRequests.capacity = b.dropRequests.capacity) : Rests b c :=
  ⟨.of_slots hstanding hslots, hring, hdrops, fun _ => by rw [hslots]⟩

theorem Rests.of_set (h : Idle b c) (hslots : c.slots = b.slots.set i s)
    (hring : c.retransmissions = b.retransmissions)
    (hdrops : c.dropRequests.capacity = b.dropRequests.capacity)
    (hs : s.retransmissionQueued = (b.slot i).retransmissionQueued) : Rests b c := by
  refine ⟨h, hring, hdrops, fun p => ?_⟩
  rw [hslots]
  by_cases hp : p = b.slots.position i
  · rw [show (b.slots.set i s).slots p = s from if_pos hp, hp]
    exact hs
  · rw [show (b.slots.set i s).slots p = b.slots.slots p from if_neg hp]

/-! ## Operations on the rings -/

theorem rests_compactDropRequestQueue (b : SendBuffer) : Rests b b.compactDropRequestQueue :=
  .of_slots rfl rfl rfl ((RingQueue.capacity_rewind _).trans (RingQueue.capacity_compact ..))

theorem idle_compactRetransmissionQueue (b : SendBuffer) : Idle b b.compactRetransmissionQueue :=
  .of_slots rfl rfl

theorem rests_pushDropRequest (b : SendBuffer) (hi : b.Requestable (b.slots.position i)) :
    Rests b (b.pushDropRequest i).2 := by
  have hpush : ∀ c : SendBuffer, c.Requestable (c.slots.position i) → Rests c ({ c with
      dropRequests := c.dropRequests.push (c.firstSequence.advanced i) }.setSlot i
        { c.slot i with dropRequestQueued := true }) := fun c hc =>
    .of_set (.of_set rfl rfl (.flags _ rfl fun _ => rfl) fun _ => .inr hc) rfl rfl
      (RingQueue.capacity_push ..) rfl
  have hcompact : Rests b (if b.dropRequests.size = b.capacity then b.compactDropRequestQueue
      else b) := by
    split
    · exact b.rests_compactDropRequestQueue
    · exact .refl b
  unfold pushDropRequest
  generalize (if b.dropRequests.size = b.capacity then b.compactDropRequestQueue else b) = c
    at hcompact ⊢
  simp only
  split
  · exact hcompact
  refine hcompact.trans (hpush c ?_)
  rw [hcompact.requestable_iff, hcompact.slots.position]
  exact hi

/-- The offset of a sequence number of the window. -/
theorem offsetOf_eq_some {sequence : SequenceNumber} (h : b.offsetOf sequence = some i) :
    i < b.sequenceSpan ∧ sequence = b.firstSequence.advanced i := by
  unfold offsetOf at h
  split at h
  · cases h
  next hin =>
  rw [not_or] at hin
  have hsequence := (SequenceNumber.advanced_distanceFrom (Int.not_lt.1 hin.2)).symm
  have hspan := Nat.lt_of_not_le hin.1
  rw [Option.some.inj h] at hsequence hspan
  exact ⟨hspan, hsequence⟩

/-- The offset `find` gives is that of a live packet of the window. -/
theorem find_eq_some {sequence : SequenceNumber} (h : b.find sequence = some i) :
    (b.slot i).occupied = true ∧ i < b.sequenceSpan ∧ sequence = b.firstSequence.advanced i := by
  unfold find at h
  obtain ⟨hoffset, ho⟩ := Option.filter_eq_some_iff.1 h
  exact ⟨ho, offsetOf_eq_some hoffset⟩

section

variable (b : SendBuffer) (sequence : SequenceNumber)

theorem rests_queueDropRequest : Rests b (b.queueDropRequest sequence).2 := by
  unfold queueDropRequest
  split
  · exact .refl b
  next i hi =>
  split
  · exact .refl b
  next hd =>
  split
  · exact .refl b
  · exact b.rests_pushDropRequest ⟨i, (offsetOf_eq_some hi).1, by simpa using hd, rfl⟩

theorem idle_pushRetransmission (i : Nat) : Idle b (b.pushRetransmission sequence i).2 := by
  have hpush : ∀ c : SendBuffer, Idle c ({ c with
      retransmissions := c.retransmissions.push sequence }.setSlot i
        { c.slot i with retransmissionQueued := true }) := fun c =>
    .of_set rfl rfl (.flags _ rfl fun _ => rfl) .inl
  have hcompact : Idle b (if b.retransmissions.size = b.capacity then
      b.compactRetransmissionQueue else b) := by
    split
    · exact b.idle_compactRetransmissionQueue
    · exact .refl b
  unfold pushRetransmission
  generalize (if b.retransmissions.size = b.capacity then b.compactRetransmissionQueue else b) = c
    at hcompact ⊢
  simp only
  split
  · exact hcompact
  · exact hcompact.trans (hpush c)

theorem idle_queueRetransmission : Idle b (b.queueRetransmission sequence).2 := by
  unfold queueRetransmission
  split
  · exact .refl b
  split
  · exact (b.rests_queueDropRequest sequence).toIdle
  split
  · exact .refl b
  split
  · exact .refl b
  · exact b.idle_pushRetransmission sequence _

end

theorem idle_nextRetransmission (defer : Bool) (fuel : Nat) (b : SendBuffer) :
    Idle b (nextRetransmission defer fuel b).2 := by
  induction fuel generalizing b with
  | zero => exact .refl b
  | succ fuel ih =>
    have hpopped : Idle b { b with retransmissions := b.retransmissions.tail } := .of_slots rfl rfl
    unfold nextRetransmission
    split
    · exact .refl b
    simp only
    split
    · exact hpopped.trans (ih _)
    split
    · exact hpopped.trans (ih _)
    · exact .of_set rfl rfl (.flags _ rfl fun _ => rfl) .inl

theorem idle_peekRetransmissionFrom (fuel : Nat) (b : SendBuffer) :
    Idle b (peekRetransmissionFrom fuel b).2 := by
  induction fuel generalizing b with
  | zero => exact .refl b
  | succ fuel ih =>
    have hpopped : Idle b { b with retransmissions := b.retransmissions.tail } := .of_slots rfl rfl
    unfold peekRetransmissionFrom
    split
    · exact .refl b
    split
    · exact .refl b
    · exact hpopped.trans (ih _)

theorem idle_requeuePreparedRetransmission (b : SendBuffer) (sequence : SequenceNumber) :
    Idle b (b.requeuePreparedRetransmission sequence) := by
  unfold requeuePreparedRetransmission
  split
  · exact .refl b
  refine Idle.trans ?_ (idle_queueRetransmission _ _)
  exact .of_set rfl rfl (.flags _ rfl fun _ => rfl) .inl

theorem rests_notePacketSubmitted (b : SendBuffer) (sequence : SequenceNumber) :
    Rests b (b.notePacketSubmitted sequence) := by
  unfold notePacketSubmitted
  split
  · exact .refl b
  split
  · exact .of_set (.of_set rfl rfl (.flags _ rfl fun _ => rfl) .inl) rfl rfl rfl rfl
  · exact .refl b

theorem Lined.not_dropped (h : b.Lined 0) (hi : i < b.sequenceSpan)
    (ho : (b.slot i).occupied = true) : (b.slot i).dropped = false := by
  have hinside : (b.slot i).occupied = !(b.slot i).dropped := h.inside i (Nat.zero_le _) hi
  rw [ho] at hinside
  exact (Bool.not_eq_true' _).mp hinside.symm

theorem Sound.idle_noteRetransmissionSent (h : b.Sound) (sequence : SequenceNumber) (now : Nat) :
    Idle b (b.noteRetransmissionSent sequence now) := by
  unfold noteRetransmissionSent
  split
  · exact .refl b
  next i hfind =>
  split
  · obtain ⟨ho, hi, -⟩ := find_eq_some hfind
    refine .of_set rfl rfl (.flags _ rfl fun hd => ?_) .inl
    exact Bool.noConfusion ((h.lined.not_dropped hi ho).symm.trans hd)
  · exact .refl b

theorem idle_requestOne (b : SendBuffer) (now repeatAfter : Nat) (sequence : SequenceNumber)
    (queued : Queued) : Idle b (b.requestOne now repeatAfter sequence queued).2 := by
  have hqueue := b.idle_queueRetransmission sequence
  unfold requestOne
  simp only
  split
  · exact .refl b
  split <;> next hrun => rw [hrun] at hqueue; exact hqueue

theorem idle_requestFrom (now repeatAfter count : Nat) (sequence : SequenceNumber) (queued : Queued)
    (b : SendBuffer) : Idle b (requestFrom now repeatAfter count sequence queued b).2 := by
  induction count generalizing sequence queued b with
  | zero => exact .refl b
  | succ count ih =>
    have hone := b.idle_requestOne now repeatAfter sequence queued
    unfold requestFrom
    split
    · next hrun => rw [hrun] at hone; exact hone
    · next hrun => rw [hrun] at hone; exact hone.trans (ih _ _ _)

theorem idle_requestRetransmission (b : SendBuffer) (range : SequenceRange)
    (now repeatAfter : Nat) : Idle b (b.requestRetransmission range now repeatAfter).2 := by
  unfold requestRetransmission
  split
  · exact .refl b
  · exact idle_requestFrom _ _ _ _ _ b

theorem idle_requestLastSentFrom (b : SendBuffer) (n : Nat) :
    Idle b (b.requestLastSentFrom n).2 := by
  induction n with
  | zero => exact .refl b
  | succ n ih =>
    unfold requestLastSentFrom
    split
    · exact b.idle_queueRetransmission _
    · exact ih

theorem idle_requestAllSentFrom (count offset queued : Nat) (b : SendBuffer) :
    Idle b (requestAllSentFrom count offset queued b).2 := by
  induction count generalizing offset queued b with
  | zero => exact .refl b
  | succ count ih =>
    have hqueue := b.idle_queueRetransmission (b.slot offset).header.sequence
    unfold requestAllSentFrom
    simp only
    split
    · exact ih _ _ _
    split
    · next hrun => rw [hrun] at hqueue; exact hqueue
    · next hrun => rw [hrun] at hqueue; exact hqueue.trans (ih _ _ _)

theorem rests_nextMessageDrop (fuel : Nat) (b : SendBuffer) :
    Rests b (nextMessageDrop fuel b).2 := by
  induction fuel generalizing b with
  | zero => exact .refl b
  | succ fuel ih =>
    have hpopped : Rests b { b with dropRequests := b.dropRequests.tail } :=
      .of_slots rfl rfl rfl rfl
    unfold nextMessageDrop
    split
    · exact .refl b
    simp only
    split
    · exact hpopped.trans (ih _)
    split
    · exact hpopped.trans (ih _)
    exact .of_set (.of_set rfl rfl (.flags _ rfl fun _ => rfl) fun hq => Bool.noConfusion hq) rfl
      rfl rfl rfl

theorem rests_nextPendingDropRequest (b : SendBuffer) : Rests b b.nextPendingDropRequest.2 := by
  have hmessage := rests_nextMessageDrop b.dropRequests.size b
  unfold nextPendingDropRequest
  split
  · next hrun => rw [hrun] at hmessage; exact hmessage
  next hrun =>
  rw [hrun] at hmessage
  split
  · exact hmessage.trans (.of_slots rfl rfl rfl rfl)
  · exact hmessage

theorem rests_hasPendingDropRequest (b : SendBuffer) : Rests b b.hasPendingDropRequest.2 := by
  unfold hasPendingDropRequest
  simp only
  split
  · exact b.rests_compactDropRequestQueue
  · exact .refl b

theorem rests_queueRetainedFrom (fuel offset queued : Nat) (b : SendBuffer) :
    Rests b (queueRetainedFrom fuel offset queued b).2 := by
  induction fuel generalizing offset queued b with
  | zero => exact .refl b
  | succ fuel ih =>
    unfold queueRetainedFrom
    split
    · exact .refl b
    split
    · exact ih _ _ _
    · exact (b.rests_queueDropRequest _).trans (ih _ _ _)

theorem rests_queueRangeDropRequests (b : SendBuffer) (ranges : List SequenceRange) :
    Rests b (b.queueRangeDropRequests ranges).2 := by
  unfold queueRangeDropRequests
  split
  · exact .of_slots rfl rfl rfl rfl
  · exact .refl b

/-! ## Operations that move the counters -/

/-- One slot's part of a counter is at most the counter. -/
theorem part_le (b : SendBuffer) (g : SendSlot → Nat) (i : Nat) :
    g (b.slot i) ≤ b.slots.total g := by
  rw [b.slots.total_split g i]
  exact Nat.le_add_right _ _

/-- Without expiring packets no live packet has a deadline. -/
theorem Booked.expiration_eq_zero (h : b.Booked) (hzero : b.expiringPacketCount = 0)
    (ho : (b.slot i).occupied = true) : (b.slot i).metadata.expiration = 0 := by
  have hle := b.part_le expiring i
  rw [← h.expiring, hzero] at hle
  by_contra hne
  have hone : (b.slot i).expiring = 1 := by
    unfold expiring
    rw [ho, Bool.true_and, if_pos (bne_iff_ne.2 hne)]
  omega

theorem Booked.leases_same (h : b.Booked) (i : Nat) (hs : s.lease = (b.slot i).lease) :
    b.payloads.Leases ((b.slots.set i s).total lease) := by
  rw [b.slots.total_set_of_eq lease i hs]
  exact h.leases

theorem parts_of_blank (ho : s.occupied = false) (hd : s.dropped = false) :
    s.live = 0 ∧ s.flight = 0 ∧ s.plaintext = 0 ∧ s.tomb = 0 ∧ s.expiring = 0 ∧ s.lease = 0 := by
  simp [live, flight, plaintext, tomb, expiring, lease, ho, hd]

theorem Sound.enqueuePacket (h : b.Sound) (f : MessageFields) (boundary : MessageBoundary)
    (payload : Bytes) (hroom : b.sequenceSpan < b.capacity) :
    (b.enqueuePacket f boundary payload).Sound := by
  have hblank := h.lined.outside b.sequenceSpan hroom (.inr le_rfl)
  obtain ⟨hlive, hflight, hplaintext, htomb, hexpiring, hlease⟩ := parts_of_blank hblank.1 hblank.2
  have hle := h.lined.unsent_le
  constructor
  · refine h.booked.set b.sequenceSpan _ ?_ ?_ ?_ ?_ ?_ (h.booked.tree_same _ ?_) ?_ ?_
    · show b.occupiedCount + 1 + (b.slots.get b.sequenceSpan).live = b.occupiedCount + 1
      rw [hlive]
    · show b.packetsInFlight + (b.slots.get b.sequenceSpan).flight = b.packetsInFlight + 0
      rw [hflight]
    · show b.bufferedPlaintextBytes + payload.length + (b.slots.get b.sequenceSpan).plaintext
        = b.bufferedPlaintextBytes + payload.length
      rw [hplaintext]
      rfl
    · show b.retainedDropCount + (b.slots.get b.sequenceSpan).tomb = b.retainedDropCount + 0
      rw [htomb]
    · show (if f.expiration ≠ 0 then b.expiringPacketCount + 1 else b.expiringPacketCount)
          + (b.slots.get b.sequenceSpan).expiring
        = b.expiringPacketCount + (if true && f.expiration != 0 then 1 else 0)
      rw [hexpiring]
      by_cases hf : f.expiration = 0 <;> simp [hf]
    · exact htomb.symm
    · rw [b.slots.total_set_of_zero lease b.sequenceSpan _ hlease]
      refine h.booked.leases.acquire payload ?_
      rw [h.booked.poolCapacity]
      exact b.slots.card_total_lt card_lease_le hlease
    · exact PayloadPool.acquire_capacity _ _
  have hearliest : (b.enqueuePacket f boundary payload).earliestExpiration
      = if f.expiration ≠ 0 ∧ (b.expiringPacketCount = 0 ∨ f.expiration < b.earliestExpiration)
        then f.expiration else b.earliestExpiration := rfl
  refine h.lined.append hroom rfl rfl rfl rfl rfl (fun i hi ho hne => ?_) (fun hne => ?_)
  · have hold := h.lined.earliest i hi ho hne
    rw [hearliest]
    split
    · next hf =>
      rcases hf.2 with hzero | hlt
      · exact absurd (h.booked.expiration_eq_zero hzero ho) hne
      · omega
    · exact hold
  rw [hearliest]
  split
  · exact le_rfl
  · next hf => exact Nat.le_of_not_lt fun hlt => hf ⟨hne, .inr hlt⟩

theorem Sound.enqueuePackets (f : MessageFields) (count : Nat) (first : Bool) (bytes : Bytes)
    (h : b.Sound) (hroom : b.sequenceSpan + count ≤ b.capacity) :
    (enqueuePackets f count first bytes b).Sound := by
  induction count generalizing first bytes b with
  | zero => exact h
  | succ count ih =>
    refine ih _ _ (h.enqueuePacket f _ _ (by omega)) ?_
    show b.sequenceSpan + 1 + count ≤ b.capacity
    omega

/-- What a message comes to: packets for which there is room, none if it is
refused. -/
theorem enqueueMessage_eq (h : b.Sound) (message : Bytes) (f : MessageFields) :
    ∃ count, b.sequenceSpan + count ≤ b.capacity
      ∧ (b.enqueueMessage message f).2 = enqueuePackets f count true message b := by
  have hle : b.sequenceSpan ≤ b.capacity := h.lined.span_le
  fun_cases enqueueMessage
  case case4 count _ hroom _ =>
    unfold available at hroom
    exact ⟨count, by omega, rfl⟩
  all_goals exact ⟨0, hle, rfl⟩

theorem enqueueStream_eq (h : b.Sound) (bytes : Bytes) (f : MessageFields) :
    ∃ count taken, b.sequenceSpan + count ≤ b.capacity ∧ (b.enqueueStream bytes f).2
        = enqueuePackets { f with inOrder := true, expiration := 0 } count true taken b := by
  obtain ⟨count, hroom, heq⟩ := enqueueMessage_eq h
    (bytes.take (min bytes.length (b.available * b.maximumPayloadSize)))
    { f with inOrder := true, expiration := 0 }
  unfold enqueueStream
  simp only
  split
  · exact ⟨0, [], h.lined.span_le, rfl⟩
  split
  · exact ⟨0, [], h.lined.span_le, rfl⟩
  split <;> next hrun => rw [hrun] at heq; exact ⟨count, _, hroom, heq⟩

theorem Sound.enqueueMessage (h : b.Sound) (message : Bytes) (f : MessageFields) :
    (b.enqueueMessage message f).2.Sound := by
  obtain ⟨count, hroom, heq⟩ := enqueueMessage_eq h message f
  rw [heq]
  exact h.enqueuePackets f _ _ _ hroom

theorem Sound.enqueueStream (h : b.Sound) (bytes : Bytes) (f : MessageFields) :
    (b.enqueueStream bytes f).2.Sound := by
  obtain ⟨count, taken, hroom, heq⟩ := enqueueStream_eq h bytes f
  rw [heq]
  exact h.enqueuePackets _ _ _ _ hroom

theorem Sound.send (h : b.Sound) (hu : b.nextUnsentOffset < b.sequenceSpan)
    (ho : (b.slot b.nextUnsentOffset).occupied = true)
    (hs : (b.slot b.nextUnsentOffset).sent = false) (submitted : Bool) (now : Nat) :
    ({ b with nextUnsentOffset := b.nextUnsentOffset + 1
              packetsInFlight := b.packetsInFlight + 1 }.setSlot b.nextUnsentOffset
      { b.slot b.nextUnsentOffset with sent := true, submitted, firstSend := now }).Sound := by
  have hd := h.lined.not_dropped hu ho
  constructor
  · refine h.booked.set b.nextUnsentOffset _ ?_ ?_ ?_ ?_ ?_ (h.booked.tree_same _ ?_) ?_ rfl
    · rfl
    · simp [flight, setSlot, ho, hs]
    · rfl
    · rfl
    · rfl
    · rfl
    · exact h.booked.leases_same _ rfl
  refine h.lined.rewrite hu (Nat.le_refl 0) (by omega) hu (fun _ => ?_) (by omega)
    (fun _ => ⟨fun _ => Nat.lt_succ_self _, fun _ => rfl⟩) (fun j hj hne _ => ?_)
    (fun _ => ⟨ho, rfl⟩) rfl rfl
  · show (b.slot b.nextUnsentOffset).occupied = !(b.slot b.nextUnsentOffset).dropped
    rw [ho, hd]
    rfl
  show j < b.nextUnsentOffset + 1 ↔ j < b.nextUnsentOffset
  omega

theorem Sound.nextOriginal (defer : Bool) (now fuel : Nat) (h : b.Sound) :
    (nextOriginal defer now fuel b).2.Sound := by
  induction fuel generalizing b with
  | zero => exact h
  | succ fuel ih =>
    unfold nextOriginal
    split
    · exact h
    next hu =>
    have hlt : b.nextUnsentOffset < b.sequenceSpan := Nat.lt_of_not_le hu
    simp only
    split
    · next hlive =>
      rw [Bool.and_eq_true, Bool.not_eq_true'] at hlive
      exact h.send hlt hlive.1 hlive.2 _ now
    next hlive =>
    refine ih ⟨h.booked, h.lined.pass hlt ?_⟩
    -- at the unsent offset a live packet was not sent
    by_contra ho
    have ho' : (b.slots.get b.nextUnsentOffset).occupied = true := by
      simpa using ho
    have hs : (b.slots.get b.nextUnsentOffset).sent = false :=
      Bool.eq_false_iff.2 fun hsent => Nat.lt_irrefl _ ((h.lined.sent _ hlt ho').1 hsent)
    exact hlive (by
      rw [show (b.slot b.nextUnsentOffset).occupied = true from ho',
        show (b.slot b.nextUnsentOffset).sent = false from hs]
      rfl)

/-- A retransmission goes first; behind it, or without one, the ring has only
idled. -/
theorem nextPacket_cases (b : SendBuffer) (defer allow : Bool) (now : Nat) :
    ∃ c, Idle b c ∧ ((∃ p, nextRetransmission defer b.retransmissions.size b = (some p, c)
        ∧ b.nextPacket defer allow now = (some p, c))
      ∨ b.nextPacket defer allow now = nextOriginal defer now c.sequenceSpan c) := by
  have hidle := idle_nextRetransmission defer b.retransmissions.size b
  unfold nextPacket
  cases allow with
  | false => exact ⟨b, .refl b, .inr rfl⟩
  | true =>
    rw [if_pos rfl]
    split
    · next p c hrun => exact ⟨c, by rw [hrun] at hidle; exact hidle, .inl ⟨p, hrun, rfl⟩⟩
    · next c hrun => exact ⟨c, by rw [hrun] at hidle; exact hidle, .inr rfl⟩

theorem Sound.nextPacket (h : b.Sound) (defer allow : Bool) (now : Nat) :
    (b.nextPacket defer allow now).2.Sound := by
  obtain ⟨c, hc, ⟨p, -, heq⟩ | heq⟩ := nextPacket_cases b defer allow now <;> rw [heq]
  · exact hc.sound h
  · exact (hc.sound h).nextOriginal defer now _

theorem Sound.preserveProtectedPayload (h : b.Sound) (sequence : SequenceNumber)
    (key : EncryptionKey) (mode : CryptoMode) (payload : Bytes) :
    (b.preserveProtectedPayload sequence key mode payload).2.Sound := by
  unfold SendBuffer.preserveProtectedPayload
  split
  · simp only
    split
    · exact h
    split
    · exact h
    split
    · exact h
    split
    · split <;> exact h
    next i _ _ _ _ _ _ _ =>
    have hslots : Slotwise SendSlot.Unmoved b.slots (b.slots.set i { b.slot i with
        payloadSize := payload.length
        protectionMode := mode
        header := { (b.slot i).header with encryptionKey := key } }) :=
      .set .refl ⟨rfl, rfl, rfl, rfl, fun _ => rfl, rfl, rfl, rfl⟩
    have hbooks := h.booked.unmoved hslots
    exact ⟨⟨hbooks.occupied, hbooks.flight, hbooks.plaintext, hbooks.retained, hbooks.expiring,
      hbooks.tree, ⟨hbooks.leases.all, hbooks.leases.bounded⟩, hbooks.poolCapacity⟩,
      h.lined.unmoved hslots⟩
  · exact h

/-! ## Discarding -/

section Discard

variable {i : Nat} (retain : Bool)

section

variable (b : SendBuffer) (i : Nat)

theorem discardSlot_slots :
    (b.discardSlot i retain).slots = b.slots.set i (discarded (b.slot i) retain) := by
  unfold discardSlot releaseSlot
  simp only
  split <;> split <;> rfl

theorem discardSlot_capacity : (b.discardSlot i retain).slots.capacity = b.slots.capacity := by
  rw [discardSlot_slots]
  rfl

theorem discardSlot_frame : (b.discardSlot i retain).sequenceSpan = b.sequenceSpan
      ∧ (b.discardSlot i retain).nextUnsentOffset = b.nextUnsentOffset
      ∧ (b.discardSlot i retain).earliestExpiration = b.earliestExpiration
      ∧ (b.discardSlot i retain).nextSequencePosition = b.nextSequencePosition
      ∧ (b.discardSlot i retain).firstSequence = b.firstSequence := by
  unfold discardSlot releaseSlot
  simp only
  split <;> split <;> exact ⟨rfl, rfl, rfl, rfl, rfl⟩

theorem discardSlot_live (ho : (b.slot i).occupied = true) :
    (b.discardSlot i retain).occupiedCount = b.occupiedCount - 1
      ∧ (b.discardSlot i retain).packetsInFlight
        = (if (b.slot i).sent then b.packetsInFlight - 1 else b.packetsInFlight)
      ∧ (b.discardSlot i retain).bufferedPlaintextBytes
        = b.bufferedPlaintextBytes - (b.slot i).plaintextSize
      ∧ (b.discardSlot i retain).expiringPacketCount
        = (if (b.slot i).metadata.expiration ≠ 0 then b.expiringPacketCount - 1
          else b.expiringPacketCount)
      ∧ (b.discardSlot i retain).payloads = b.payloads.release (b.slot i).payloadIndex := by
  unfold discardSlot releaseSlot
  simp only [ho, if_true]
  split <;> exact ⟨rfl, rfl, rfl, rfl, rfl⟩

theorem discardSlot_free (ho : (b.slot i).occupied = false) :
    (b.discardSlot i retain).occupiedCount = b.occupiedCount
      ∧ (b.discardSlot i retain).packetsInFlight = b.packetsInFlight
      ∧ (b.discardSlot i retain).bufferedPlaintextBytes = b.bufferedPlaintextBytes
      ∧ (b.discardSlot i retain).expiringPacketCount = b.expiringPacketCount
      ∧ (b.discardSlot i retain).payloads = b.payloads := by
  unfold discardSlot releaseSlot
  simp only [ho, Bool.false_eq_true, if_false]
  split <;> exact ⟨rfl, rfl, rfl, rfl, rfl⟩

theorem discardSlot_tombs :
    (b.discardSlot i retain).retainedDropCount = (if (b.slot i).dropped = retain then
        b.retainedDropCount
      else if retain then b.retainedDropCount + 1 else b.retainedDropCount - 1)
      ∧ (b.discardSlot i retain).droppedCounts = (if (b.slot i).dropped = retain then
        b.droppedCounts
      else Fenwick.update 64 b.capacity (if retain then (· + 1) else (· - 1))
        (b.slots.position i) b.droppedCounts) := by
  unfold discardSlot releaseSlot
  simp only
  split <;> split <;> exact ⟨rfl, rfl⟩

end

theorem discarded_parts (s : SendSlot) :
    (discarded s retain).live = 0 ∧ (discarded s retain).flight = 0
      ∧ (discarded s retain).plaintext = 0 ∧ (discarded s retain).expiring = 0
      ∧ (discarded s retain).lease = 0 ∧ (discarded s retain).tomb = if retain then 1 else 0 := by
  cases retain <;> exact ⟨rfl, rfl, rfl, rfl, rfl, rfl⟩

theorem Booked.tree_countDropped (h : b.Booked) (hd : (b.slot i).dropped ≠ retain)
    (hs : s.tomb = if retain then 1 else 0) :
    Fenwick.Represents 64 b.slots.capacity
      (Fenwick.update 64 b.capacity (if retain then (· + 1) else (· - 1)) (b.slots.position i)
        b.droppedCounts)
      (fun q => ((b.slots.set i s).slots q).tomb) := by
  have hcap : b.slots.capacity < 2 ^ 64 := b.capacity_lt.trans_le (by decide)
  refine h.tree.update hcap (b.slots.position_lt i) (fun q _ hq => ?_) (fun a => ?_)
  · rw [show (b.slots.set i s).slots q = b.slots.slots q from if_neg hq]
  rw [show (b.slots.set i s).slots (b.slots.position i) = s from if_pos rfl, hs,
    show (b.slots.slots (b.slots.position i)).tomb = if (b.slot i).dropped then 1 else 0 from rfl]
  cases retain <;> cases hdrop : (b.slot i).dropped
  · exact absurd hdrop hd
  · show 1 + a - 1 = 0 + a
    omega
  · show 0 + a + 1 = 1 + a
    omega
  · exact absurd hdrop hd

end Discard

/-- What the discarded packet gave to the counters is taken from them. -/
theorem Booked.discardSlot_counts (h : b.Booked) (i : Nat) (retain : Bool) :
    (b.discardSlot i retain).occupiedCount + (b.slot i).live = b.occupiedCount
      ∧ (b.discardSlot i retain).packetsInFlight + (b.slot i).flight = b.packetsInFlight
      ∧ (b.discardSlot i retain).bufferedPlaintextBytes + (b.slot i).plaintext
        = b.bufferedPlaintextBytes
      ∧ (b.discardSlot i retain).expiringPacketCount + (b.slot i).expiring
        = b.expiringPacketCount := by
  have hlive := b.part_le live i
  have hflight := b.part_le flight i
  have hplaintext := b.part_le plaintext i
  have hexpiring := b.part_le expiring i
  rw [← h.occupied] at hlive
  rw [← h.flight] at hflight
  rw [← h.plaintext] at hplaintext
  rw [← h.expiring] at hexpiring
  unfold live flight plaintext expiring at *
  cases ho : (b.slot i).occupied
  · obtain ⟨h1, h2, h3, h4, _⟩ := b.discardSlot_free retain i ho
    rw [h1, h2, h3, h4]
    exact ⟨rfl, rfl, rfl, rfl⟩
  obtain ⟨h1, h2, h3, h4, _⟩ := b.discardSlot_live retain i ho
  rw [h1, h2, h3, h4]
  rw [ho] at hlive hflight hplaintext hexpiring
  simp only [if_true, Bool.true_and, bne_iff_ne] at hlive hflight hplaintext hexpiring ⊢
  refine ⟨by omega, ?_, by omega, ?_⟩
  · split at hflight <;> simp_all
  · split at hexpiring <;> simp_all

theorem Booked.discardSlot (h : b.Booked) (i : Nat) (retain : Bool) :
    (b.discardSlot i retain).Booked := by
  obtain ⟨hlive, hflight, hplaintext, hexpiring, hlease, htomb⟩ := discarded_parts retain (b.slot i)
  obtain ⟨hcount, hsent, hbytes, hexp⟩ := h.discardSlot_counts i retain
  obtain ⟨htombs, htree⟩ := b.discardSlot_tombs retain i
  unfold Booked
  rw [b.discardSlot_slots retain i]
  refine h.set i _ ?_ ?_ ?_ ?_ ?_ ?_ ?_ ?_
  · rw [hlive, hcount, Nat.add_zero]
  · rw [hflight, hsent, Nat.add_zero]
  · rw [hplaintext, hbytes, Nat.add_zero]
  · have hle := b.part_le tomb i
    rw [← h.retained] at hle
    rw [htombs, htomb]
    unfold tomb at hle ⊢
    cases retain <;> cases hd : (b.slot i).dropped <;> simp_all
  · rw [hexpiring, hexp, Nat.add_zero]
  · rw [htree]
    split
    · next hd => exact h.tree_same i (by rw [htomb, ← hd]; rfl)
    · next hd => exact h.tree_countDropped retain hd htomb
  · cases ho : (b.slot i).occupied
    · rw [(b.discardSlot_free retain i ho).2.2.2.2]
      exact h.leases_same i (by rw [hlease, lease_of_free ho])
    rw [(b.discardSlot_live retain i ho).2.2.2.2]
    have hsplit := b.slots.total_eq_add_of_zero lease i hlease
    rw [show (b.slots.get i).lease = {(b.slot i).payloadIndex} from
      lease_of_occupied ho, Multiset.singleton_add] at hsplit
    have hreleased := h.leases.release (i := (b.slot i).payloadIndex)
      (by rw [hsplit]; exact Multiset.mem_cons_self _ _)
    rw [hsplit, Multiset.erase_cons_head] at hreleased
    exact hreleased
  cases ho : (b.slot i).occupied
  · rw [(b.discardSlot_free retain i ho).2.2.2.2]
  rw [(b.discardSlot_live retain i ho).2.2.2.2]
  rfl

theorem Lined.discardFirst (h : b.Lined k) (hk : k < b.sequenceSpan) :
    (b.discardSlot k).Lined (k + 1) := by
  obtain ⟨hspan, hunsent, hearliest, hnext, hfirst⟩ := b.discardSlot_frame false k
  unfold Lined
  rw [hspan, hunsent, hearliest, hnext, hfirst, b.discardSlot_slots false k]
  exact h.rewrite hk (Nat.le_succ k) (by omega) h.unsent_le (by omega) (fun _ => ⟨rfl, rfl⟩)
    (fun ho => Bool.noConfusion ho) (fun _ _ _ _ => Iff.rfl) (fun ho => Bool.noConfusion ho) rfl rfl

/-- A packet of the window becomes a tombstone. -/
theorem Lined.discardRetained (h : b.Lined 0) (hi : i < b.sequenceSpan) :
    (b.discardSlot i true).Lined 0 := by
  obtain ⟨hspan, hunsent, hearliest, hnext, hfirst⟩ := b.discardSlot_frame true i
  unfold Lined
  rw [hspan, hunsent, hearliest, hnext, hfirst, b.discardSlot_slots true i]
  exact h.rewrite hi (Nat.le_refl 0) (by omega) h.unsent_le (fun _ => rfl) (by omega)
    (fun ho => Bool.noConfusion ho) (fun _ _ _ _ => Iff.rfl) (fun ho => Bool.noConfusion ho) rfl rfl

theorem advanceWindow_slot (b : SendBuffer) (k : Nat) (first : SequenceNumber) (j : Nat) :
    (b.advanceWindow k first).slot j = b.slot (k + j) :=
  b.slots.get_advance k j

/-- `count` slots are gone, and nothing but the counters has moved. -/
structure Cleared (b c : SendBuffer) (count : Nat) : Prop where
  booked : c.Booked
  lined : c.Lined count
  span : c.sequenceSpan = b.sequenceSpan
  first : c.firstSequence = b.firstSequence

theorem Sound.cleared (h : b.Sound) : Cleared b b 0 := ⟨h.booked, h.lined, rfl, rfl⟩

theorem Cleared.step (h : Cleared b c k) (hk : k < b.sequenceSpan) :
    Cleared b (c.discardSlot k) (k + 1) :=
  ⟨h.booked.discardSlot k false, h.lined.discardFirst (h.span ▸ hk),
    (c.discardSlot_frame false k).1.trans h.span,
    (c.discardSlot_frame false k).2.2.2.2.trans h.first⟩

theorem Cleared.discardSlots (h : Cleared b c k) (count : Nat)
    (hcount : k + count ≤ b.sequenceSpan) :
    Cleared b (discardSlots count k c) (k + count) := by
  induction count generalizing k c with
  | zero => exact h
  | succ count ih =>
    rw [show k + (count + 1) = k + 1 + count by omega]
    exact ih (h.step (by omega)) (by omega)

theorem Sound.clear {count : Nat} (h : b.Sound) (hcount : count ≤ b.sequenceSpan) :
    Cleared b (discardSlots count 0 b) count := by
  have hcleared := h.cleared.discardSlots count ((Nat.zero_add count).symm ▸ hcount)
  rwa [Nat.zero_add] at hcleared

theorem Cleared.advanceWindow (h : Cleared b c k) (hk : k ≤ b.sequenceSpan) {first : SequenceNumber}
    (hfirst : first = b.firstSequence.advanced k) : (c.advanceWindow k first).Sound := by
  have hspan : k ≤ c.sequenceSpan := h.span ▸ hk
  have hnext : first = c.firstSequence.advanced k := h.first ▸ hfirst
  subst hnext
  exact ⟨h.booked.advance, h.lined.advance hspan⟩

theorem Sound.acknowledgeBefore (h : b.Sound) (sequence : SequenceNumber) :
    (b.acknowledgeBefore sequence).2.Sound := by
  unfold SendBuffer.acknowledgeBefore
  split
  · exact h
  split
  · exact h
  next hneg hle =>
  have hsequence := (SequenceNumber.advanced_distanceFrom (Int.not_lt.1 hneg)).symm
  generalize (sequence.distanceFrom b.firstSequence).toNat = d at hle hsequence ⊢
  exact (h.clear (Nat.le_of_not_lt hle)).advanceWindow (Nat.le_of_not_lt hle) hsequence

theorem Sound.acknowledgeSubmittedBefore (h : b.Sound) (sequence : SequenceNumber) :
    (b.acknowledgeSubmittedBefore sequence).2.Sound := by
  unfold SendBuffer.acknowledgeSubmittedBefore
  split
  · exact h
  split
  · exact h
  split
  · exact h
  · exact h.acknowledgeBefore sequence

/-- The retired slots leave as if they had been acknowledged. -/
theorem releaseRetiredPrefix_cases (b : SendBuffer) : b.releaseRetiredPrefix = b
    ∨ ∃ next, b.releaseRetiredPrefix = (b.acknowledgeBefore next).2 := by
  unfold releaseRetiredPrefix
  cases b.retiredPrefix with
  | none => exact .inl (Option.elim_none ..)
  | some range => exact .inr ⟨range.last.next, Option.elim_some ..⟩

theorem Sound.releaseRetiredPrefix (h : b.Sound) : b.releaseRetiredPrefix.Sound := by
  rcases b.releaseRetiredPrefix_cases with heq | ⟨next, heq⟩
  · rw [heq]
    exact h
  rw [heq]
  exact h.acknowledgeBefore next

theorem Cleared.dropOlderFrom (h : Cleared b c k) (cutoff fuel bytes message : Nat)
    (hfuel : k + fuel ≤ b.sequenceSpan) :
    (dropOlderFrom cutoff fuel k bytes message c).1 ≤ b.sequenceSpan
      ∧ Cleared b (dropOlderFrom cutoff fuel k bytes message c).2.2
        (dropOlderFrom cutoff fuel k bytes message c).1 := by
  induction fuel generalizing k bytes message c with
  | zero => exact ⟨(Nat.add_zero k).symm.trans_le hfuel, h⟩
  | succ fuel ih =>
    unfold dropOlderFrom
    simp only
    split
    · exact ⟨by omega, h⟩
    split
    · exact ⟨by omega, h⟩
    · exact ih (h.step (by omega)) _ _ (by omega)

theorem Sound.dropMessagesOlderThan (h : b.Sound) (cutoff : Nat) :
    (b.dropMessagesOlderThan cutoff).2.Sound := by
  have hdropped := h.cleared.dropOlderFrom cutoff b.sequenceSpan 0 (b.slot 0).header.messageNumber
    (by omega)
  unfold SendBuffer.dropMessagesOlderThan
  simp only
  generalize dropOlderFrom cutoff b.sequenceSpan 0 0 (b.slot 0).header.messageNumber b
    = run at hdropped ⊢
  obtain ⟨packets, bytes, dropped⟩ := run
  obtain ⟨hle, hcleared⟩ := hdropped
  simp only at hle hcleared ⊢
  split
  · exact h
  split
  · next hzero =>
    rw [hzero] at hcleared
    exact ⟨hcleared.booked, hcleared.lined⟩
  next hpos =>
  refine hcleared.advanceWindow hle ?_
  rw [SequenceNumber.next_advanced, Nat.sub_add_cancel (Nat.pos_of_ne_zero hpos)]

/-! ## Expiry -/

theorem Sound.setTomb (h : b.Sound) (ho : (b.slot i).occupied = false) (metadata : SlotMetadata) :
    (b.setSlot i { b.slot i with metadata }).Sound := by
  have hslots : Slotwise SendSlot.Unmoved b.slots (b.slots.set i { b.slot i with metadata }) :=
    .set .refl ⟨rfl, rfl, rfl, rfl, fun hocc => Bool.noConfusion (ho.symm.trans hocc), rfl, rfl,
      rfl⟩
  exact ⟨h.booked.unmoved hslots, h.lined.unmoved hslots⟩

theorem Sound.discardRetained (h : b.Sound) (hi : i < b.sequenceSpan) :
    (b.discardSlot i true).Sound :=
  ⟨h.booked.discardSlot i true, h.lined.discardRetained hi⟩

/-- What a packet of an expired message leaves in its slot. -/
def tombOf (first : SequenceNumber) (s : SendSlot) : SendSlot :=
  { discarded s true with
    metadata := .dropped first (discarded s true).metadata.messageLast
      (discarded s true).metadata.remainingBytes }

/-- The tombstone of one packet of an expired message. -/
def entomb (b : SendBuffer) (first : SequenceNumber) (i : Nat) : SendBuffer :=
  (b.discardSlot i true).setSlot i { (b.discardSlot i true).slot i with
    metadata := .dropped first ((b.discardSlot i true).slot i).metadata.messageLast
      ((b.discardSlot i true).slot i).metadata.remainingBytes }

theorem discardSlot_slot (b : SendBuffer) (i : Nat) (retain : Bool) :
    (b.discardSlot i retain).slot i = discarded (b.slot i) retain := by
  unfold slot
  rw [b.discardSlot_slots retain i, get_set_self]
  rfl

theorem discardSlot_slot_ne (b : SendBuffer) (retain : Bool) (hi : i < b.capacity)
    (hj : j < b.capacity) (hne : j ≠ i) : (b.discardSlot i retain).slot j = b.slot j := by
  unfold slot
  rw [b.discardSlot_slots retain i, b.slots.get_set_ne hi hj hne]

theorem Sound.entomb (h : b.Sound) (first : SequenceNumber) (hi : i < b.sequenceSpan) :
    (b.entomb first i).Sound := by
  refine (h.discardRetained hi).setTomb ?_ _
  rw [discardSlot_slot]
  rfl

section

variable (b : SendBuffer) (first : SequenceNumber)

/-- The fields of the window that expiry never touches. -/
theorem entomb_span (i : Nat) : (b.entomb first i).sequenceSpan = b.sequenceSpan :=
  (b.discardSlot_frame true i).1

theorem entomb_firstSequence (i : Nat) : (b.entomb first i).firstSequence = b.firstSequence :=
  (b.discardSlot_frame true i).2.2.2.2

theorem entomb_capacity (i : Nat) : (b.entomb first i).capacity = b.capacity :=
  b.discardSlot_capacity true i

theorem entomb_slot (i : Nat) : (b.entomb first i).slot i = tombOf first (b.slot i) := by
  unfold entomb slot setSlot
  rw [get_set_self]
  rw [show ((b.discardSlot i true).slots.get i) = discarded (b.slot i) true from
    b.discardSlot_slot i true]
  rfl

theorem entomb_slot_ne (hi : i < b.capacity) (hj : j < b.capacity) (hne : j ≠ i) :
    (b.entomb first i).slot j = b.slot j := by
  have hcap := b.discardSlot_capacity true i
  have hset : ∀ s, ((b.discardSlot i true).setSlot i s).slot j = (b.discardSlot i true).slot j :=
    fun s => get_set_ne _ (hi.trans_eq hcap.symm) (hj.trans_eq hcap.symm) hne s
  unfold entomb
  rw [hset, b.discardSlot_slot_ne true hi hj hne]

end

theorem entombFrom_succ (first : SequenceNumber) (number fuel offset bytes : Nat)
    (b : SendBuffer) : entombFrom first number (fuel + 1) offset bytes b
      = if b.sequenceSpan ≤ offset ∨ (b.slot offset).occupied = false
          ∨ (b.slot offset).header.messageNumber ≠ number then (offset, bytes, b)
        else entombFrom first number fuel (offset + 1) (bytes + (b.slot offset).plaintextSize)
          (b.entomb first offset) := rfl

/-- The packets from `offset` on have become tombstones; the rest is as it
was. -/
structure Entombed (b c : SendBuffer) (first : SequenceNumber) (number offset stop : Nat) :
    Prop where
  le : offset ≤ stop
  bound : stop ≤ b.sequenceSpan
  span : c.sequenceSpan = b.sequenceSpan
  capacity : c.capacity = b.capacity
  firstSequence : c.firstSequence = b.firstSequence
  live : ∀ i, offset ≤ i → i < stop →
    (b.slot i).occupied = true ∧ (b.slot i).header.messageNumber = number
  tombs : ∀ i, offset ≤ i → i < stop → c.slot i = tombOf first (b.slot i)
  rest : ∀ i < b.capacity, i < offset ∨ stop ≤ i → c.slot i = b.slot i

theorem entombFrom_entombed (first : SequenceNumber) (number fuel offset bytes : Nat)
    (h : b.Sound) (hle : offset ≤ b.sequenceSpan) :
    (entombFrom first number fuel offset bytes b).2.2.Sound
      ∧ Entombed b (entombFrom first number fuel offset bytes b).2.2 first number offset
        (entombFrom first number fuel offset bytes b).1 := by
  have hstop : Entombed b b first number offset offset :=
    ⟨le_rfl, hle, rfl, rfl, rfl, by omega, by omega, fun _ _ _ => rfl⟩
  induction fuel generalizing offset bytes b with
  | zero => exact ⟨h, hstop⟩
  | succ fuel ih =>
    rw [entombFrom_succ]
    split
    · exact ⟨h, hstop⟩
    next hgo =>
    have hlt : offset < b.sequenceSpan := Nat.lt_of_not_le fun hge => hgo (.inl hge)
    have hcap : b.sequenceSpan ≤ b.capacity := h.lined.span_le
    have hspan := b.entomb_span first offset
    have hcapacity := b.entomb_capacity first offset
    obtain ⟨hsound, he⟩ := ih (offset + 1) (bytes + (b.slot offset).plaintextSize)
      (h.entomb first hlt) (by omega)
      ⟨le_rfl, by omega, rfl, rfl, rfl, by omega, by omega, fun _ _ _ => rfl⟩
    have hle' := he.le
    have hbound := he.bound
    have hsame : ∀ i < b.sequenceSpan, i ≠ offset → (b.entomb first offset).slot i = b.slot i :=
      fun i hi hne => b.entomb_slot_ne first (by omega) (by omega) hne
    refine ⟨hsound, by omega, hspan ▸ he.bound, he.span.trans hspan, he.capacity.trans hcapacity,
      he.firstSequence.trans (b.entomb_firstSequence first offset), fun i hoi hi => ?_,
      fun i hoi hi => ?_, fun i hi hout => ?_⟩
    · by_cases heq : i = offset
      · rw [heq]
        refine ⟨?_, ?_⟩
        · exact Bool.eq_true_of_not_eq_false fun ho => hgo (.inr (.inl ho))
        by_contra hne
        exact hgo (.inr (.inr hne))
      rw [← hsame i (by omega) heq]
      exact he.live i (by omega) hi
    · by_cases heq : i = offset
      · rw [he.rest i (by omega) (.inl (by omega)), heq, entomb_slot]
      · rw [he.tombs i (by omega) hi, hsame i (by omega) heq]
    rw [he.rest i (hcapacity.symm ▸ hi) (by omega), b.entomb_slot_ne first (by omega) hi (by omega)]

theorem Sound.labelFrom (last : SequenceNumber) (count stop bytes : Nat) (h : b.Sound)
    (hcount : count ≤ stop) (hstop : stop ≤ b.capacity)
    (htombs : ∀ i, stop - count ≤ i → i < stop → (b.slot i).occupied = false) :
    (labelFrom last count stop bytes b).Sound := by
  induction count generalizing stop bytes b with
  | zero => exact h
  | succ count ih =>
    refine ih (stop - 1) _ (h.setTomb (htombs (stop - 1) (by omega) (by omega)) _) (by omega)
      (show stop - 1 ≤ b.capacity by omega) (fun i hi hlt => ?_)
    have hkeep : ∀ s, (b.setSlot (stop - 1) s).slot i = b.slot i := fun s =>
      b.slots.get_set_ne (show stop - 1 < b.capacity by omega)
        (show i < b.capacity by omega) (by omega) s
    rw [hkeep]
    exact htombs i (by omega) (by omega)

section

variable (b : SendBuffer) (now fuel offset earliest : Nat)

theorem expiredFrom_offset (h : b.expiredFrom now fuel offset earliest = .inl i) :
    offset ≤ i ∧ i < offset + fuel := by
  induction fuel generalizing offset earliest with
  | zero => cases h
  | succ fuel ih =>
    unfold expiredFrom at h
    simp only at h
    split at h
    · have := ih _ _ h
      omega
    split at h
    · have := ih _ _ h
      omega
    cases h
    omega

/-- The bound the scan finds is at most every deadline it met. -/
theorem expiredFrom_earliest {e : Nat} (h : b.expiredFrom now fuel offset earliest = .inr e) :
    e ≤ earliest ∧ ∀ i, offset ≤ i → i < offset + fuel → (b.slot i).occupied = true →
        (b.slot i).metadata.expiration ≠ 0 → e ≤ (b.slot i).metadata.expiration := by
  induction fuel generalizing offset earliest with
  | zero =>
    cases h
    exact ⟨le_rfl, by omega⟩
  | succ fuel ih =>
    unfold expiredFrom at h
    simp only at h
    split at h
    · next hskip =>
      obtain ⟨hle, hrest⟩ := ih _ _ h
      refine ⟨hle, fun i hi hlt ho hne => ?_⟩
      by_cases heq : i = offset
      · rw [heq] at ho hne
        rw [ho] at hskip
        simp [hne] at hskip
      · exact hrest i (by omega) (by omega) ho hne
    split at h
    · obtain ⟨hle, hrest⟩ := ih _ _ h
      refine ⟨hle.trans (Nat.min_le_left _ _), fun i hi hlt ho hne => ?_⟩
      by_cases heq : i = offset
      · rw [heq]
        exact hle.trans (Nat.min_le_right _ _)
      · exact hrest i (by omega) (by omega) ho hne
    · cases h

end

theorem Sound.expireMessage (h : b.Sound) {offset : Nat} (hlt : offset < b.sequenceSpan) :
    (b.expireMessage offset).2.Sound := by
  have hcap : b.sequenceSpan ≤ b.capacity := h.lined.span_le
  obtain ⟨hsound, he⟩ := entombFrom_entombed (b.firstSequence.advanced offset)
    (b.slot offset).header.messageNumber b.sequenceSpan offset 0 h (Nat.le_of_lt hlt)
  unfold SendBuffer.expireMessage
  simp only
  generalize entombFrom (b.firstSequence.advanced offset) (b.slot offset).header.messageNumber
    b.sequenceSpan offset 0 b = run at hsound he ⊢
  obtain ⟨stop, bytes, entombed⟩ := run
  simp only at hsound he ⊢
  have hle := he.le
  refine hsound.labelFrom _ _ _ _ (by omega) (he.capacity.symm ▸ he.bound.trans hcap)
    (fun i hi hlt => congrArg occupied (he.tombs i (by omega) hlt))

theorem Sound.dropExpiredMessage (h : b.Sound) (now : Nat) :
    (b.dropExpiredMessage now).2.Sound := by
  unfold SendBuffer.dropExpiredMessage
  split
  · exact h
  split
  · next offset hfound =>
    have := b.expiredFrom_offset now _ _ _ hfound
    exact h.expireMessage (by omega)
  next earliest hfound =>
  have hmin := (b.expiredFrom_earliest now _ _ _ hfound).2
  refine ⟨h.booked, ⟨h.lined.span_le, h.lined.unsent_le, h.lined.inside, h.lined.outside,
    h.lined.sent, fun i hi =>
      hmin i (Nat.zero_le _) ((Nat.zero_add b.sequenceSpan).symm ▸ hi), h.lined.numbered⟩⟩

/-! ## Runs -/

theorem Lined.blank (h : b.Lined 0) (hspan : b.sequenceSpan = 0) (p : Nat)
    (hp : p < b.slots.capacity) :
    (b.slots.slots p).occupied = false ∧ (b.slots.slots p).dropped = false := by
  obtain ⟨i, hi, rfl⟩ := b.slots.exists_position hp
  exact h.outside i hi (.inr (hspan ▸ Nat.zero_le i))

theorem Sound.synchronizeEmpty (h : b.Sound) (next : SequenceNumber) :
    (b.synchronizeEmpty next).2.Sound := by
  unfold SendBuffer.synchronizeEmpty
  split
  · exact h
  next hempty =>
  have hspan : b.sequenceSpan = 0 := by omega
  have hblank := h.lined.blank hspan
  have hzero : ∀ g : SendSlot → Nat,
      (∀ s : SendSlot, s.occupied = false → s.dropped = false → g s = 0) →
        b.slots.total g = 0 := fun g hg =>
    Finset.sum_eq_zero fun p hp =>
      hg _ (hblank p (Finset.mem_range.1 hp)).1 (hblank p (Finset.mem_range.1 hp)).2
  simp only
  split
  · exact h
  refine ⟨⟨h.booked.occupied, h.booked.flight, ?_, ?_, ?_, h.booked.tree, h.booked.leases,
    h.booked.poolCapacity⟩, ⟨h.lined.span_le, Nat.zero_le _, ?_, fun i hi _ => ?_, ?_, ?_, ?_⟩⟩
  · exact (hzero _ fun _ ho hd => (parts_of_blank ho hd).2.2.1).symm
  · exact (hzero _ fun _ ho hd => (parts_of_blank ho hd).2.2.2.1).symm
  · exact (hzero _ fun _ ho hd => (parts_of_blank ho hd).2.2.2.2.1).symm
  · exact fun i _ hi => absurd hi (by rw [show _ = 0 from hspan]; exact Nat.not_lt_zero i)
  · exact hblank _ (position_lt _ i)
  all_goals exact fun i hi => absurd hi (by rw [show _ = 0 from hspan]; exact Nat.not_lt_zero i)

theorem Sound.apply (h : b.Sound) (op : Op) : (b.apply op).Sound := by
  -- the cases follow the alternatives of `apply`
  fun_cases SendBuffer.apply b op with
  | case1 next => exact h.synchronizeEmpty next
  | case2 message fields => exact h.enqueueMessage message fields
  | case3 bytes fields => exact h.enqueueStream bytes fields
  | case4 defer allow now => exact h.nextPacket defer allow now
  | case5 => exact (idle_peekRetransmissionFrom _ b).sound h
  | case6 sequence =>
    exact (b.idle_requeuePreparedRetransmission sequence).sound h
  | case7 sequence key mode payload =>
    exact h.preserveProtectedPayload sequence key mode payload
  | case8 sequence => exact (b.rests_notePacketSubmitted sequence).sound h
  | case9 sequence => exact h.acknowledgeSubmittedBefore sequence
  | case10 sequence => exact h.acknowledgeBefore sequence
  | case11 range now repeatAfter =>
    exact (b.idle_requestRetransmission range now repeatAfter).sound h
  | case12 sequence now =>
    exact (h.idle_noteRetransmissionSent sequence now).sound h
  | case13 => exact (b.idle_requestLastSentFrom _).sound h
  | case14 => exact (idle_requestAllSentFrom _ _ _ b).sound h
  | case15 => exact b.rests_nextPendingDropRequest.sound h
  | case16 => exact b.rests_hasPendingDropRequest.sound h
  | case17 => exact (rests_queueRetainedFrom _ _ _ b).sound h
  | case18 => exact h.releaseRetiredPrefix
  | case19 => exact b.idle_compactRetransmissionQueue.sound h
  | case20 ranges => exact (b.rests_queueRangeDropRequests ranges).sound h
  | case21 cutoff => exact h.dropMessagesOlderThan cutoff
  | case22 now => exact h.dropExpiredMessage now

theorem sound_of_reaches {guard : SendBuffer → Op → Prop} (h : Lts.Reaches system guard b) :
    b.Sound := by
  refine h.invariant (I := Sound) ?_ ?_
  · rintro b ⟨_, _, _, hmake⟩
    exact sound_make hmake
  rintro b op _ - hb - rfl
  exact hb.apply op

/-- What the counters promise. -/
structure Accounted (b : SendBuffer) : Prop where
  packetsInFlight : b.packetsInFlight = b.slots.total flight
  occupiedCount : b.occupiedCount = b.slots.total live
  bufferedPlaintextBytes : b.bufferedPlaintextBytes = b.slots.total plaintext
  retainedDropCount : b.retainedDropCount = b.slots.total tomb
  expiringPacketCount : b.expiringPacketCount = b.slots.total expiring
  droppedPrefix : ∀ stop ≤ b.capacity,
    b.droppedPrefix stop = ∑ p ∈ Finset.range stop, (b.slots.slots p).tomb
  earliest : ∀ i < b.capacity, (b.slot i).occupied = true →
    (b.slot i).metadata.expiration ≠ 0 → b.earliestExpiration ≤ (b.slot i).metadata.expiration
  boundary : ∀ i < b.capacity, (b.slot i).occupied = true →
    ((b.slot i).sent = true ↔ i < b.nextUnsentOffset)
  payloadIndex_inj : ∀ i < b.capacity, ∀ j < b.capacity,
    (b.slot i).occupied = true → (b.slot j).occupied = true →
      (b.slot i).payloadIndex = (b.slot j).payloadIndex → i = j

theorem Lined.lt_span (h : b.Lined 0) (hi : i < b.capacity) (ho : (b.slot i).occupied = true) :
    i < b.sequenceSpan := by
  by_contra hge
  exact Bool.noConfusion ((h.outside i hi (.inr (Nat.le_of_not_lt hge))).1.symm.trans ho)

theorem Booked.payloadIndex_inj (h : b.Booked) (hi : i < b.capacity) (hj : j < b.capacity)
    (hoi : (b.slot i).occupied = true) (hoj : (b.slot j).occupied = true)
    (heq : (b.slot i).payloadIndex = (b.slot j).payloadIndex) : i = j := by
  by_contra hne
  have hpos : b.slots.position i ≠ b.slots.position j := fun h =>
    hne ((b.slots.position_inj hi hj).1 h)
  have hdisjoint := disjoint_of_total_nodup h.leases.nodup (b.slots.position_lt i)
    (b.slots.position_lt j) hpos
  rw [show (b.slots.slots (b.slots.position i)).lease = {(b.slot i).payloadIndex} from
      lease_of_occupied hoi,
    show (b.slots.slots (b.slots.position j)).lease = {(b.slot j).payloadIndex} from
      lease_of_occupied hoj, heq] at hdisjoint
  simp at hdisjoint

/-- In every run the counters, the tree and the bounds say what the ring
says, the unsent offset parts the sent packets from the unsent ones, and no two
live packets share a payload. -/
theorem counters_repeat_the_ring (h : Lts.Reachable system b) : b.Accounted := by
  have hs := sound_of_reaches h
  have hcap : b.slots.capacity < 2 ^ 64 := b.capacity_lt.trans_le (by decide)
  refine ⟨hs.booked.flight, hs.booked.occupied, hs.booked.plaintext, hs.booked.retained,
    hs.booked.expiring, fun stop hstop => ?_, fun i hi ho => ?_, fun i hi ho => ?_,
    fun i hi j hj hoi hoj => hs.booked.payloadIndex_inj hi hj hoi hoj⟩
  · exact Fenwick.prefixSum_eq hs.booked.tree hcap hstop
  · exact hs.lined.earliest i (hs.lined.lt_span hi ho) ho
  · exact hs.lined.sent i (hs.lined.lt_span hi ho) ho

/-- Four slots of two bytes each. -/
def exampleSender : SendBuffer :=
  (make (.ofNat (2 ^ 31 - 1)) 4 2).get (by decide)

theorem exampleSender_reached {guard : SendBuffer → Op → Prop} :
    Lts.Reaches system guard exampleSender :=
  .start ⟨.ofNat (2 ^ 31 - 1), 4, 2, (Option.some_get _).symm⟩

/-- One message is acknowledged in part, the next one expires half sent. -/
def expiredRun : SendBuffer :=
  [.enqueueMessage [1, 2, 3] { messageNumber := 1 }, .nextPacket false true 0,
    .enqueueMessage [4, 5, 6] { messageNumber := 2, expiration := 10 },
    .acknowledgeBefore (.ofNat 0), .nextPacket false true 1, .nextPacket true true 1,
    .requestRetransmission ⟨.ofNat 0, .ofNat 1⟩ 2 0, .dropExpiredMessage 11].foldl apply
      exampleSender

theorem counters_repeat_the_ring_expiredRun :
    expiredRun.retainedDropCount = 2 ∧ expiredRun.packetsInFlight = 1
      ∧ expiredRun.occupiedCount = 1 ∧ expiredRun.Accounted := by
  have hreaches : Lts.Reachable system expiredRun :=
    exampleSender_reached.foldl (by decide +kernel)
  exact ⟨by decide +kernel, by decide +kernel, by decide +kernel, counters_repeat_the_ring hreaches⟩

end SendBuffer

end Srt
