/-
# `ReceiveStorage` — the redundant structures agree with the slots

Occupancy count, byte count, payload pool, the two bitmaps and the trie of
rejected messages repeat what the slots say.  `Stored` is the agreement.  It
speaks of physical slots only, so moving the head, the acknowledgement or a
remembered answer never touches it; what does is one of four transitions of
a single slot: it is emptied (`Stored.vacate`), filled (`Stored.occupy`),
read from (`Stored.consume`) or rejected (`Stored.reject`).  Every operation
is a chain of these, in whatever state the window is.
-/
import Srt.Lib.System
import Srt.Reliability.ReceiveBuffer

namespace Srt

open ReceiveSlot ReceiveBuffer

/-- Terms of the sums over the slots. -/
def ReceiveSlot.count (s : ReceiveSlot) : Nat :=
  if s.occupied then 1 else 0

def ReceiveSlot.bytes (s : ReceiveSlot) : Nat :=
  if s.occupied then s.payloadSize - s.payloadOffset else 0

def ReceiveSlot.lease (s : ReceiveSlot) : Multiset Nat :=
  if s.occupied then {s.payloadIndex} else 0

variable {s : ReceiveSlot}

theorem ReceiveSlot.lease_of_occupied (h : s.occupied = true) : s.lease = {s.payloadIndex} :=
  if_pos h

def ReceiveSlot.rejection (s : ReceiveSlot) : Multiset Nat :=
  if s.rejectedPayload then {s.header.messageNumber} else 0

theorem ReceiveSlot.card_lease_le (s : ReceiveSlot) : Multiset.card s.lease ≤ 1 := by
  unfold lease
  split <;> simp

theorem ReceiveSlot.card_rejection_le (s : ReceiveSlot) : Multiset.card s.rejection ≤ 1 := by
  unfold rejection
  split <;> simp

/-- The payload can be read. -/
def ReceiveSlot.readable (s : ReceiveSlot) : Bool :=
  s.occupied && !s.rejectedPayload

/-- What every slot satisfies by itself. -/
structure ReceiveSlot.WellFormed (payloads : PayloadPool) (s : ReceiveSlot) : Prop where
  exclusive : s.occupied = true → s.dropped = false
  rejected : s.rejectedPayload = true → s.occupied = true
  offset_le : s.payloadOffset ≤ s.payloadSize
  length : s.occupied = true → (payloads.get s.payloadIndex).length = s.payloadSize
  number : s.occupied = true → s.header.messageNumber < 2 ^ 32

/-- A slot without a packet is well formed whatever the pool holds. -/
theorem ReceiveSlot.WellFormed.of_empty {payloads : PayloadPool}
    (ho : s.occupied = false) (hr : s.rejectedPayload = false)
    (hle : s.payloadOffset ≤ s.payloadSize) : s.WellFormed payloads := by
  constructor <;> simp_all

/-- A packet as the source's types admit it: message numbers have 32 bits. -/
def PacketView.Typed : PacketView → Prop
  | .data packet => packet.header.messageNumber < 2 ^ 32
  | .control _ _ => True

namespace ReceiveBuffer

/-- A bitmap over the physical slots says `P` of each of them. -/
structure Indexes (ix : BitIndex 64) (capacity : Nat) (P : Nat → Bool) : Prop where
  levels : ix.levels = indexLevels capacity
  leaf : ∀ p < capacity, ix.bit 0 p = P p
  summarized : ix.Summarized

variable {ix : BitIndex 64} {n : Nat}

theorem Indexes.levels_pos {P : Nat → Bool} (h : Indexes ix n P) : 0 < ix.levels := by
  rw [h.levels]
  exact BitIndex.levelsFor_pos ..

theorem indexes_empty (n : Nat) : Indexes (.empty (indexLevels n)) n (fun _ => false) :=
  ⟨rfl, fun _ _ => BitIndex.bit_empty .., BitIndex.summarized_empty _⟩

theorem Indexes.write {P Q : Nat → Bool} (h : Indexes ix n P) {p : Nat} {v : Bool} (hp : Q p = v)
    (hrest : ∀ q < n, q ≠ p → Q q = P q) : Indexes (ix.write p v) n Q := by
  refine ⟨by rw [BitIndex.write_levels, h.levels], ?_, h.summarized.write (by decide) p v⟩
  intro q hq
  rw [BitIndex.bit_write (by decide) ix h.levels_pos]
  split
  · next hqp => rw [hqp, hp]
  · next hqp => rw [h.leaf q hq, hrest q hq hqp]

theorem Indexes.set {slots : SlotRing ReceiveSlot} {f : ReceiveSlot → Bool}
    (h : Indexes ix slots.capacity (fun p => f (slots.slots p))) (i : Nat) (s : ReceiveSlot) :
    Indexes (ix.write (slots.position i) (f s)) slots.capacity
      (fun p => f ((slots.set i s).slots p)) := by
  refine h.write ?_ ?_
  · exact congrArg f (if_pos rfl)
  intro q _ hq
  exact congrArg f (if_neg hq)

variable {i : Nat}

theorem Indexes.set_same {slots : SlotRing ReceiveSlot} {f : ReceiveSlot → Bool}
    (h : Indexes ix slots.capacity (fun p => f (slots.slots p))) (hs : f s = f (slots.get i)) :
    Indexes ix slots.capacity (fun p => f ((slots.set i s).slots p)) := by
  refine ⟨h.levels, ?_, h.summarized⟩
  intro q hq
  rw [h.leaf q hq]
  by_cases hqi : q = slots.position i
  · rw [hqi, show (slots.set i s).slots (slots.position i) = s from if_pos rfl, hs]
    rfl
  · rw [show (slots.set i s).slots q = slots.slots q from if_neg hqi]

/-- The structures beside the ring repeat what its slots say. -/
structure Storage (slots : SlotRing ReceiveSlot) (occupied bufferedPayloadBytes : Nat)
    (payloads : PayloadPool) (rejectedMessages : CountedTrie 32)
    (occupiedIndex storageIndex : BitIndex 64) : Prop where
  occupied : occupied = slots.total count
  bytes : bufferedPayloadBytes = slots.total ReceiveSlot.bytes
  leases : payloads.Leases (slots.total lease)
  poolCapacity : payloads.capacity = slots.capacity
  rejections : rejectedMessages.Holds (slots.capacity * 2) (slots.total rejection)
  readable : Indexes occupiedIndex slots.capacity (fun p => (slots.slots p).readable)
  stored : Indexes storageIndex slots.capacity (fun p => (slots.slots p).occupied)
  wellFormed : ∀ p < slots.capacity, (slots.slots p).WellFormed payloads

/-- The agreement in a buffer. -/
def Stored (b : ReceiveBuffer) : Prop :=
  Storage b.slots b.occupied b.bufferedPayloadBytes b.payloads b.rejectedMessages
    b.occupiedIndex b.storageIndex

variable {b : ReceiveBuffer}

theorem stored_make {initial : SequenceNumber} (h : make initial n = some b) : b.Stored := by
  unfold make at h
  split at h
  · next hn =>
    cases h
    have hzero : ∀ {M : Type} [AddCommMonoid M] (f : ReceiveSlot → M), f {} = 0 →
        (SlotRing.replicate n hn.1 ({} : ReceiveSlot)).total f = 0 :=
      fun f hf => SlotRing.total_replicate f hn.1 hf
    refine ⟨(hzero _ rfl).symm, (hzero _ rfl).symm, ?_, rfl, ?_, indexes_empty n,
      indexes_empty n, fun _ _ => .of_empty rfl rfl le_rfl⟩
    · rw [hzero _ rfl]
      exact PayloadPool.leases_make n
    rw [hzero _ rfl]
    exact CountedTrie.holds_empty (Nat.mul_pos hn.1 (by decide))
  · cases h

theorem Stored.slot (h : b.Stored) (i : Nat) : (b.slot i).WellFormed b.payloads :=
  h.wellFormed _ (b.slots.position_lt i)

/-- Head movement is not a matter of storage. -/
theorem Stored.advanceFrontier (h : b.Stored) (n : Nat) : (b.advanceFrontier n).Stored :=
  ⟨h.occupied, h.bytes, h.leases, h.poolCapacity, h.rejections, h.readable, h.stored, h.wellFormed⟩

/-! ## One slot changes -/

/-- Storage with one slot rewritten: each structure has exchanged the part
of the old slot for that of the new one, and no other packet's cell changed. -/
theorem Stored.set (h : b.Stored) (i : Nat) (s : ReceiveSlot) {occupied bytes : Nat}
    {payloads : PayloadPool} {rejected : CountedTrie 32} {occupiedIndex storageIndex : BitIndex 64}
    (hcount : occupied + (b.slot i).count = b.occupied + s.count)
    (hbytes : bytes + (b.slot i).bytes = b.bufferedPayloadBytes + s.bytes)
    (hlease : payloads.Leases ((b.slots.set i s).total lease))
    (hcapacity : payloads.capacity = b.payloads.capacity)
    (hrejection : rejected.Holds (b.slots.capacity * 2) ((b.slots.set i s).total rejection))
    (hreadable : Indexes occupiedIndex b.slots.capacity (fun p => ((b.slots.set i s).slots
      p).readable))
    (hstored : Indexes storageIndex b.slots.capacity (fun p => ((b.slots.set i s).slots
      p).occupied))
    (hform : s.WellFormed payloads)
    (hcells : ∀ q < b.slots.capacity, q ≠ b.slots.position i → (b.slots.slots q).occupied = true →
      payloads.get (b.slots.slots q).payloadIndex = b.payloads.get (b.slots.slots q).payloadIndex) :
    Storage (b.slots.set i s) occupied bytes payloads rejected occupiedIndex storageIndex := by
  have hget : b.slots.get i = b.slot i := rfl
  refine ⟨?_, ?_, hlease, hcapacity.trans h.poolCapacity, hrejection, hreadable, hstored, ?_⟩
  · have := b.slots.total_set count i s
    have := h.occupied
    rw [hget] at *
    omega
  · have := b.slots.total_set ReceiveSlot.bytes i s
    have := h.bytes
    rw [hget] at *
    omega
  intro q hq
  by_cases hqi : q = b.slots.position i
  · rw [hqi, show (b.slots.set i s).slots (b.slots.position i) = s from if_pos rfl]
    exact hform
  rw [show (b.slots.set i s).slots q = b.slots.slots q from if_neg hqi]
  have hw := h.wellFormed q hq
  refine ⟨hw.exclusive, hw.rejected, hw.offset_le, ?_, hw.number⟩
  intro hocc
  rw [hcells q hq hqi hocc]
  exact hw.length hocc

/-- A cell that another occupied slot holds is a different one. -/
theorem Stored.payloadIndex_ne (h : b.Stored) {q : Nat} (hq : q < b.slots.capacity)
    (hne : q ≠ b.slots.position i) (hi : (b.slot i).occupied = true)
    (ho : (b.slots.slots q).occupied = true) :
    (b.slots.slots q).payloadIndex ≠ (b.slot i).payloadIndex := by
  intro he
  have hdisj := SlotRing.disjoint_of_total_nodup h.leases.nodup hq (b.slots.position_lt i) hne
  rw [lease_of_occupied ho] at hdisj
  have hlease : (b.slots.slots (b.slots.position i)).lease = {(b.slot i).payloadIndex} :=
    lease_of_occupied hi
  rw [hlease, he] at hdisj
  exact Multiset.disjoint_left.1 hdisj (Multiset.mem_singleton_self _)
    (Multiset.mem_singleton_self _)

theorem Stored.rejectedPayload_of_empty (h : b.Stored)
    (hi : (b.slot i).occupied = false) : (b.slot i).rejectedPayload = false := by
  have hw := (h.slot i).rejected
  cases hb : (b.slot i).rejectedPayload with
  | false => rfl
  | true =>
    rw [hw hb] at hi
    cases hi

theorem removeRejectedMessage_eq (b : ReceiveBuffer) (s : ReceiveSlot) :
    b.removeRejectedMessage s = { b with
      rejectedMessages := if s.rejectedPayload then b.rejectedMessages.remove s.header.messageNumber
        else b.rejectedMessages } := by
  unfold removeRejectedMessage
  split <;> rfl

section

variable (h : b.Stored)
include h

/-- The trie without the term of one slot. -/
theorem Stored.removed (i : Nat) (hr : s.rejectedPayload = false) :
    (if (b.slot i).rejectedPayload then
      b.rejectedMessages.remove (b.slot i).header.messageNumber else b.rejectedMessages).Holds
      (b.slots.capacity * 2) ((b.slots.set i s).total rejection) := by
  have htrie := h.rejections
  rw [b.slots.total_eq_add_of_zero rejection i (a := s) (by simp [rejection, hr])] at htrie
  change CountedTrie.Holds _ _ ((b.slot i).rejection + _) at htrie
  by_cases hrej : (b.slot i).rejectedPayload = true
  · have hterm : (b.slot i).rejection = {(b.slot i).header.messageNumber} := if_pos hrej
    rw [hterm, Multiset.singleton_add] at htrie
    have hremove := htrie.remove (Multiset.mem_cons_self ..)
    rw [Multiset.erase_cons_head] at hremove
    rwa [if_pos hrej]
  have hterm : (b.slot i).rejection = 0 := if_neg hrej
  rw [hterm, zero_add] at htrie
  rwa [if_neg hrej]

theorem Stored.vacate (hi : (b.slot i).occupied = true) (ho : s.occupied = false)
    (hr : s.rejectedPayload = false) (hle : s.payloadOffset ≤ s.payloadSize) :
    ((((b.releasePayload (b.slot i)).indexOccupied i false).removeRejectedMessage
      (b.slot i)).setSlot i s).Stored := by
  rw [removeRejectedMessage_eq]
  have hone : (b.slot i).count = 1 := if_pos hi
  have hterm : (b.slot i).bytes = (b.slot i).payloadSize - (b.slot i).payloadOffset := if_pos hi
  have hnone : s.count = 0 := by simp [count, ho]
  have hempty : s.bytes = 0 := by simp [ReceiveSlot.bytes, ho]
  have hcount := b.slots.total_eq_add_of_zero count i hnone
  have hbytes := b.slots.total_eq_add_of_zero ReceiveSlot.bytes i hempty
  have hlease := b.slots.total_eq_add_of_zero lease i (a := s) (by simp [lease, ho])
  have hget : b.slots.get i = b.slot i := rfl
  rw [hget] at hcount hbytes hlease
  rw [lease_of_occupied hi, Multiset.singleton_add] at hlease
  have hfalse : s.readable = false := by simp [readable, ho]
  have hreadable := h.readable.set i s
  have hstored := h.stored.set i s
  rw [hfalse] at hreadable
  rw [ho] at hstored
  refine h.set i s ?_ ?_ ?_ rfl (h.removed i hr) hreadable hstored (.of_empty ho hr hle) ?_
  · show b.occupied - 1 + _ = _
    have := h.occupied
    omega
  · show b.bufferedPayloadBytes - _ + _ = _
    have := h.bytes
    omega
  · have hmem : (b.slot i).payloadIndex ∈ b.slots.total lease := by
      rw [hlease]
      exact Multiset.mem_cons_self ..
    have hrelease := h.leases.release hmem
    rwa [hlease, Multiset.erase_cons_head] at hrelease
  intro q hq hne hocc
  exact b.payloads.get_release_of_ne (h.payloadIndex_ne hq hne hi hocc)

theorem Stored.clearIndex (hi : (b.slot i).occupied = false) :
    (b.indexOccupied i false).Stored := by
  refine ⟨h.occupied, h.bytes, h.leases, h.poolCapacity, h.rejections, ?_, ?_, h.wellFormed⟩
  · refine h.readable.write ?_ (fun _ _ _ => rfl)
    show (b.slot i).readable = false
    simp [readable, hi]
  · exact h.stored.write hi (fun _ _ _ => rfl)

/-- Writing a slot without a packet: markers and deadlines. -/
theorem Stored.mark (hi : (b.slot i).occupied = false) (ho : s.occupied = false)
    (hr : s.rejectedPayload = false) (hle : s.payloadOffset ≤ s.payloadSize) :
    (b.setSlot i s).Stored := by
  have hold : (b.slots.get i).occupied = false := hi
  have hrej : (b.slots.get i).rejectedPayload = false := h.rejectedPayload_of_empty hi
  have hlease : (b.slots.set i s).total lease = b.slots.total lease :=
    b.slots.total_set_of_eq _ i (by simp [lease, ho, hold])
  have hrejection : (b.slots.set i s).total rejection = b.slots.total rejection :=
    b.slots.total_set_of_eq _ i (by simp [rejection, hr, hrej])
  refine h.set i s ?_ ?_ (hlease ▸ h.leases) rfl (hrejection ▸ h.rejections)
    (h.readable.set_same ?_) (h.stored.set_same ?_) (.of_empty ho hr hle) (fun _ _ _ _ => rfl)
  · show b.occupied + _ = _
    simp [count, ho, hi]
  · show b.bufferedPayloadBytes + _ = _
    simp [ReceiveSlot.bytes, ho, hi]
  · simp [readable, ho, hold]
  · rw [ho, hold]

theorem Stored.consume (hi : (b.slot i).occupied = true)
    (hn : n ≤ (b.slot i).payloadSize - (b.slot i).payloadOffset) :
    ({ b with bufferedPayloadBytes := b.bufferedPayloadBytes - n }.setSlot i { b.slot i with
      payloadOffset := (b.slot i).payloadOffset + n }).Stored := by
  generalize hs : ({ b.slot i with
    payloadOffset := (b.slot i).payloadOffset + n } : ReceiveSlot) = s
  have hget : b.slots.get i = b.slot i := rfl
  have hlease : (b.slots.set i s).total lease = b.slots.total lease :=
    b.slots.total_set_of_eq _ i (by rw [hget, ← hs]; rfl)
  have hrejection : (b.slots.set i s).total rejection = b.slots.total rejection :=
    b.slots.total_set_of_eq _ i (by rw [hget, ← hs]; rfl)
  have hform := h.slot i
  have hle := hform.offset_le
  refine h.set i s ?_ ?_ (hlease ▸ h.leases) rfl (hrejection ▸ h.rejections)
    (h.readable.set_same ?_) (h.stored.set_same ?_) ?_ (fun _ _ _ _ => rfl)
  · rw [← hs]
    rfl
  · show b.bufferedPayloadBytes - n + (b.slot i).bytes = b.bufferedPayloadBytes + s.bytes
    have hold : (b.slot i).bytes = (b.slot i).payloadSize - (b.slot i).payloadOffset := if_pos hi
    have hnew : s.bytes = (b.slot i).payloadSize - ((b.slot i).payloadOffset + n) := by
      rw [← hs]
      exact if_pos hi
    have hsum := b.slots.total_split ReceiveSlot.bytes i
    have := h.bytes
    rw [hget] at hsum
    omega
  · rw [hget, ← hs]
    rfl
  · rw [hget, ← hs]
  rw [← hs]
  exact ⟨hform.exclusive, hform.rejected, by
    show (b.slot i).payloadOffset + n ≤ (b.slot i).payloadSize
    omega, hform.length, hform.number⟩

theorem Stored.reject (hi : (b.slot i).occupied = true) (hr : (b.slot i).rejectedPayload = false) :
    (((b.indexOccupied i false false).setSlot i { b.slot i with
      rejectedPayload := true }).addRejectedMessage (b.slot i).header.messageNumber).Stored := by
  generalize hs : ({ b.slot i with rejectedPayload := true } : ReceiveSlot) = s
  have hget : b.slots.get i = b.slot i := rfl
  have hform := h.slot i
  have hlease : (b.slots.set i s).total lease = b.slots.total lease :=
    b.slots.total_set_of_eq _ i (by rw [hget, ← hs]; rfl)
  have hrejection : (b.slots.set i s).total rejection
      = (b.slot i).header.messageNumber ::ₘ b.slots.total rejection := by
    rw [b.slots.total_set_of_zero rejection i s (by simp [rejection, hget,
      hr]), ← Multiset.singleton_add, ← hs]
    rfl
  have hroom : 2 * (Multiset.card (b.slots.total rejection) + 1) ≤ b.slots.capacity * 2 := by
    have hlt := b.slots.card_total_lt card_rejection_le (i := i) (by simp [rejection, hget, hr])
    omega
  have hreadable := h.readable.set i s
  have hfalse : s.readable = false := by
    rw [← hs]
    simp [readable]
  rw [hfalse] at hreadable
  refine h.set i s ?_ ?_ (hlease ▸ h.leases) rfl ?_ hreadable (h.stored.set_same ?_) ?_
    (fun _ _ _ _ => rfl)
  · rw [← hs]
    rfl
  · rw [← hs]
    rfl
  · rw [hrejection]
    exact h.rejections.add (hform.number hi) hroom
  · rw [hget, ← hs]
  rw [← hs]
  exact ⟨hform.exclusive, fun _ => hi, hform.offset_le, hform.length, hform.number⟩

theorem Stored.occupySlot (hi : (b.slot i).occupied = false) {packet : DataPacket}
    (hnumber : packet.header.messageNumber < 2 ^ 32) : (b.occupySlot i packet).Stored := by
  generalize hs : ({ header := packet.header
                     payloadIndex := (b.payloads.acquire packet.payload).1
                     payloadSize := packet.payload.length
                     occupied := true } : ReceiveSlot) = s
  have hocc : s.occupied = true := by rw [← hs]
  have hget : b.slots.get i = b.slot i := rfl
  have hold := h.rejectedPayload_of_empty hi
  have hlease : (b.slots.set i s).total lease
      = (b.payloads.acquire packet.payload).1 ::ₘ b.slots.total lease := by
    rw [b.slots.total_set_of_zero lease i s (by simp [lease, hget, hi]),
      lease_of_occupied hocc, Multiset.singleton_add, ← hs]
  have hrejection : (b.slots.set i s).total rejection = b.slots.total rejection :=
    b.slots.total_set_of_eq _ i (by rw [hget, ← hs]; simp [rejection, hold])
  have hroom : Multiset.card (b.slots.total lease) < b.payloads.capacity := by
    rw [h.poolCapacity]
    exact b.slots.card_total_lt card_lease_le (i := i) (by simp [lease, hget, hi])
  have hreadable := h.readable.set i s
  have hstored := h.stored.set i s
  have htrue : s.readable = true := by
    rw [← hs]
    rfl
  rw [htrue] at hreadable
  rw [hocc] at hstored
  show Storage (b.slots.set i _) (b.occupied + 1)
    (b.bufferedPayloadBytes + packet.payload.length) (b.payloads.acquire packet.payload).2
    b.rejectedMessages (b.occupiedIndex.write (b.slots.position i) true)
    (b.storageIndex.write (b.slots.position i) true)
  rw [hs]
  refine h.set i s ?_ ?_ ?_ (b.payloads.acquire_capacity _) (hrejection ▸ h.rejections) hreadable
    hstored ?_ ?_
  · have hnew : s.count = 1 := if_pos hocc
    have hnone : (b.slot i).count = 0 := by simp [count, hi]
    omega
  · have hnew : s.bytes = packet.payload.length := by
      rw [← hs]
      rfl
    have hnone : (b.slot i).bytes = 0 := by simp [ReceiveSlot.bytes, hi]
    omega
  · rw [hlease]
    exact h.leases.acquire _ hroom
  · rw [← hs]
    refine ⟨fun _ => rfl, nofun, Nat.zero_le _, fun _ => ?_, fun _ => hnumber⟩
    show ((b.payloads.acquire packet.payload).2.get (b.payloads.acquire packet.payload).1).length
      = packet.payload.length
    rw [PayloadPool.get_acquire]
  intro q hq _ hqo
  refine b.payloads.get_acquire_of_ne _ ?_
  intro he
  refine h.leases.acquire_notMem packet.payload ?_
  rw [← he]
  refine Multiset.mem_sum.2 ⟨q, Finset.mem_range.2 hq, ?_⟩
  rw [lease_of_occupied hqo]
  exact Multiset.mem_singleton_self _

end

/-! ## The operations -/

theorem advanceAcknowledgementFrom_eq (fuel : Nat) (b : ReceiveBuffer) :
    ∃ n, b.advanceAcknowledgementFrom fuel = { b with nextAck := b.nextAck.advanced n } := by
  induction fuel generalizing b with
  | zero => exact ⟨0, by simp [advanceAcknowledgementFrom]⟩
  | succ fuel ih =>
    unfold advanceAcknowledgementFrom
    split
    · obtain ⟨n, hn⟩ := ih { b with nextAck := b.nextAck.next }
      exact ⟨1 + n, by rw [hn]; simp [SequenceNumber.next_eq_advanced]⟩
    · exact ⟨0, by simp⟩

theorem Stored.advanceAcknowledgement (h : b.Stored) : b.advanceAcknowledgement.Stored := by
  obtain ⟨n, hn⟩ := advanceAcknowledgementFrom_eq b.capacity b
  unfold ReceiveBuffer.advanceAcknowledgement
  rw [hn]
  exact h

theorem Stored.retireDropped (h : b.Stored) (hd : (b.slot 0).dropped = true) :
    (b.retireHead { b.slot 0 with dropped := false }).Stored := by
  have hi : (b.slot 0).occupied = false := by
    cases ho : (b.slot 0).occupied with
    | false => rfl
    | true =>
      rw [(h.slot 0).exclusive ho] at hd
      cases hd
  have hr := h.rejectedPayload_of_empty hi
  unfold retireHead
  simp only [removeRejectedMessage_eq, hr, Bool.false_eq_true, if_false]
  refine Stored.advanceFrontier ?_ 1
  exact (h.clearIndex hi).mark (i := 0) hi hi rfl le_rfl

theorem Stored.retireOccupied (h : b.Stored) (ho : (b.slot 0).occupied = true)
    (discarding : Option Nat) :
    ({ b.releasePayload (b.slot 0) with discardingMessage := discarding }.retireHead
      { b.slot 0 with occupied := false }).Stored := by
  have hvacate := h.vacate ho (s := { b.slot 0 with
    occupied := false, rejectedPayload := false, payloadSize := 0, payloadOffset := 0,
    gapDeadline := 0 }) rfl rfl le_rfl
  rw [removeRejectedMessage_eq] at hvacate
  unfold retireHead
  rw [removeRejectedMessage_eq]
  exact Stored.advanceFrontier hvacate 1

theorem Stored.trimDroppedPrefixFrom (fuel : Nat) (h : b.Stored) :
    (b.trimDroppedPrefixFrom fuel).Stored := by
  induction fuel generalizing b with
  | zero => exact h
  | succ fuel ih =>
    unfold trimDroppedPrefixFrom
    dsimp only
    split
    · next hd => exact ih (h.retireDropped hd)
    split
    · exact h
    next ho =>
    have ho : (b.slot 0).occupied = true := by simpa using ho
    split
    · exact h
    split
    · exact ih (h.retireOccupied ho none)
    · exact ih (h.retireOccupied ho _)

theorem Stored.trimDroppedPrefix (h : b.Stored) : b.trimDroppedPrefix.Stored :=
  h.trimDroppedPrefixFrom _

variable {sequence : SequenceNumber}

theorem offsetOf_eq_some_iff :
    b.offsetOf sequence = some i ↔ i < b.capacity ∧ sequence = b.firstStored.advanced i := by
  have hcap : b.capacity < 2 ^ 30 := b.capacity_lt
  unfold offsetOf
  dsimp only
  constructor
  · intro h
    split at h
    · cases h
    next hin =>
    cases h
    have hnonneg : 0 ≤ sequence.distanceFrom b.firstStored := by omega
    exact ⟨by omega, (SequenceNumber.advanced_distanceFrom hnonneg).symm⟩
  rintro ⟨hi, rfl⟩
  have hd : (b.firstStored.advanced i).distanceFrom b.firstStored = i := by
    have := b.firstStored.distanceFrom_advanced (m := i) (n := 0) (by omega) (by omega)
    simpa using this
  rw [hd, if_neg (by omega)]
  simp

theorem find_eq_some_iff :
    b.find sequence = some i ↔ i < b.capacity ∧ sequence = b.firstStored.advanced i
      ∧ (b.slot i).readable = true ∧ (b.slot i).header.sequence = sequence := by
  unfold find
  cases ho : b.offsetOf sequence with
  | none =>
    constructor
    · intro h
      cases h
    rintro ⟨hi, hseq, -⟩
    rw [offsetOf_eq_some_iff.2 ⟨hi, hseq⟩] at ho
    cases ho
  | some j =>
    obtain ⟨hj, hseq⟩ := offsetOf_eq_some_iff.1 ho
    have hcond : ((b.slot j).occupied && !(b.slot j).rejectedPayload
        && (b.slot j).header.sequence == sequence) = true
        ↔ (b.slot j).readable = true ∧ (b.slot j).header.sequence = sequence := by
      rw [Bool.and_eq_true, beq_iff_eq]
      rfl
    dsimp only
    constructor
    · intro h
      split at h
      · next hc =>
        cases h
        exact ⟨hj, hseq, hcond.1 hc⟩
      · cases h
    rintro ⟨hi, hseq', hmatch⟩
    have hij : some j = some i := ho.symm.trans (offsetOf_eq_some_iff.2 ⟨hi, hseq'⟩)
    cases hij
    rw [if_pos (hcond.2 hmatch)]

theorem occupied_of_readable (h : s.readable = true) : s.occupied = true := by
  simp only [readable, Bool.and_eq_true] at h
  exact h.1

theorem rejected_of_readable (h : s.readable = true) : s.rejectedPayload = false := by
  simp only [readable, Bool.and_eq_true, Bool.not_eq_true'] at h
  exact h.2

theorem Stored.discardMessagePayload (h : b.Stored) (sequence : SequenceNumber) :
    (b.discardMessagePayload sequence).Stored := by
  unfold ReceiveBuffer.discardMessagePayload
  cases hf : b.find sequence with
  | none => exact h
  | some i =>
    obtain ⟨-, -, hread, -⟩ := find_eq_some_iff.1 hf
    refine Stored.trimDroppedPrefix ?_
    exact h.reject (i := i) (occupied_of_readable hread) (rejected_of_readable hread)

theorem Stored.insert (h : b.Stored) {packet : PacketView} (ht : packet.Typed) :
    (b.insert packet).2.Stored := by
  cases packet with
  | control header payload => exact h
  | data packet =>
    unfold ReceiveBuffer.insert
    dsimp only
    split
    · exact h
    split
    · exact h
    cases ho : b.offsetOf packet.header.sequence with
    | none => exact h
    | some i =>
      dsimp only
      split
      · exact h
      next hfree =>
      have hi : (b.slot i).occupied = false := by
        cases hocc : (b.slot i).occupied <;> simp_all
      have hstored := (h.occupySlot hi ht).advanceAcknowledgement
      dsimp only
      split
      · exact hstored.trimDroppedPrefix
      · exact hstored

theorem Stored.deliverSlot (h : b.Stored) (hi : (b.slot i).readable = true)
    (dropped : Bool) : (b.deliverSlot i dropped).Stored := by
  have hrej := rejected_of_readable hi
  have hvacate := h.vacate (occupied_of_readable hi) (s := { b.slot i with
    occupied := false, dropped, payloadSize := 0, payloadOffset := 0, gapDeadline := 0 })
    rfl hrej le_rfl
  rw [removeRejectedMessage_eq, hrej] at hvacate
  exact hvacate

/-- What the scan of `pop_message` found: readable packets up to the end. -/
theorem scanMessage_ok {message fuel k total size : Nat} (hk : k + fuel ≤ b.capacity)
    (h : b.scanMessage message fuel (b.firstStored.advanced k) k total = .ok (n, size)) :
    k < n ∧ n ≤ b.capacity ∧ ∀ j, k ≤ j → j < n → b.find (b.firstStored.advanced j) = some j
      ∧ (b.slot j).header.messageNumber = message ∧ (b.slot j).payloadOffset = 0
      ∧ ((b.slot j).endsMessage = true ↔ j + 1 = n)
      ∧ (0 < j → (b.slot j).header.boundary = .subsequent
        ∨ (b.slot j).header.boundary = .last) := by
  induction fuel generalizing k total with
  | zero => cases h
  | succ fuel ih =>
    unfold scanMessage at h
    cases hf : b.find (b.firstStored.advanced k) with
    | none =>
      rw [hf] at h
      cases h
    | some i =>
      rw [hf] at h
      obtain ⟨hi, hseq, -⟩ := find_eq_some_iff.1 hf
      have hik : i = k := by
        have hcap : b.capacity < 2 ^ 30 := b.capacity_lt
        exact ((SequenceNumber.advanced_inj_of_lt (by omega) (by omega)).1 hseq).symm
      subst hik
      dsimp only at h
      split at h
      · cases h
      next hgood =>
      have hboundary : 0 < i → (b.slot i).header.boundary = .subsequent
          ∨ (b.slot i).header.boundary = .last := by
        intro hpos
        by_contra hno
        exact hgood (.inr (.inr ⟨hpos, fun h => hno (.inl h), fun h => hno (.inr h)⟩))
      have hnumber : (b.slot i).header.messageNumber = message := by
        by_contra hno
        exact hgood (.inl hno)
      have hoffset : (b.slot i).payloadOffset = 0 := by
        by_contra hno
        exact hgood (.inr (.inl hno))
      split at h
      · next hend =>
        cases h
        refine ⟨by omega, by omega, ?_⟩
        intro j hj hjn
        obtain rfl : j = i := by omega
        exact ⟨hf, hnumber, hoffset, ⟨fun _ => rfl, fun _ => hend⟩, hboundary⟩
      next hend =>
      rw [SequenceNumber.next_advanced] at h
      obtain ⟨hlt, hle, hall⟩ := ih (by omega) h
      refine ⟨by omega, hle, ?_⟩
      intro j hj hjn
      by_cases hji : j = i
      · subst hji
        refine ⟨hf, hnumber, hoffset, ⟨fun he => absurd he hend, ?_⟩, hboundary⟩
        intro he
        omega
      · exact hall j (by omega) hjn

/-- A delivery leaves every other slot of the window as it was. -/
theorem slot_deliverSlot_of_ne {j : Nat} (hi : i < b.capacity) (hj : j < b.capacity)
    (hij : j ≠ i) (dropped : Bool) : (b.deliverSlot i dropped).slot j = b.slot j :=
  b.slots.get_set_ne hi hj hij _

theorem Stored.deliverSlots (h : b.Stored) (hn : i + n ≤ b.capacity)
    (hread : ∀ j, i ≤ j → j < i + n → (b.slot j).readable = true) :
    (deliverSlots n i b).2.Stored := by
  induction n generalizing i b with
  | zero => exact h
  | succ n ih =>
    refine ih (h.deliverSlot (hread i le_rfl (by omega)) false) (i := i + 1) ?_ ?_
    · show i + 1 + n ≤ b.capacity
      omega
    intro j hj hjn
    rw [slot_deliverSlot_of_ne (by omega) (by omega) (by omega)]
    exact hread j (by omega) (by omega)

theorem Stored.popMessage (h : b.Stored) (size : Nat) : (b.popMessage size).2.Stored := by
  unfold ReceiveBuffer.popMessage
  cases hf : b.find b.firstStored with
  | none => exact h
  | some i =>
    dsimp only
    split
    · exact h
    split
    · exact h
    cases hscan : b.scanMessage (b.slot i).header.messageNumber b.capacity b.firstStored 0 0 with
    | error e => exact h
    | ok found =>
      obtain ⟨packets, total⟩ := found
      have hstart : b.firstStored = b.firstStored.advanced 0 := by simp
      rw [hstart] at hscan
      obtain ⟨-, hle, hall⟩ := scanMessage_ok (by omega) hscan
      dsimp only
      split
      · exact h
      refine Stored.trimDroppedPrefix (Stored.advanceFrontier ?_ packets)
      refine Stored.deliverSlots (b := b.invalidateDeliveryQueries) h ?_ ?_
      · show 0 + packets ≤ b.capacity
        omega
      intro j _ hj
      exact (find_eq_some_iff.1 (hall j (by omega) (by omega)).1).2.2.1

/-- A query only remembers its answer. -/
theorem firstCompleteMessage_eq (b : ReceiveBuffer) :
    ∃ q, b.firstCompleteMessage.2 = { b with messageQuery := q } := by
  unfold firstCompleteMessage
  split
  · exact ⟨b.messageQuery, rfl⟩
  · exact ⟨_, rfl⟩

theorem firstBufferedPacket_eq (b : ReceiveBuffer) :
    ∃ q, b.firstBufferedPacket.2 = { b with packetQuery := q } := by
  unfold firstBufferedPacket
  split
  · exact ⟨b.packetQuery, rfl⟩
  · exact ⟨_, rfl⟩

theorem Stored.firstCompleteMessage (h : b.Stored) : b.firstCompleteMessage.2.Stored := by
  obtain ⟨q, hq⟩ := b.firstCompleteMessage_eq
  rw [hq]
  exact h

theorem Stored.firstBufferedPacket (h : b.Stored) : b.firstBufferedPacket.2.Stored := by
  obtain ⟨q, hq⟩ := b.firstBufferedPacket_eq
  rw [hq]
  exact h

theorem Stored.popMessageUnordered (h : b.Stored) (size : Nat) :
    (b.popMessageUnordered size).2.Stored := by
  have hquery := h.firstCompleteMessage
  unfold ReceiveBuffer.popMessageUnordered
  generalize b.firstCompleteMessage = answer at hquery
  obtain ⟨message, c⟩ := answer
  dsimp only at hquery ⊢
  cases message with
  | none => exact hquery
  | some message =>
    dsimp only
    split
    · exact hquery.popMessage size
    split
    · exact hquery
    cases hf : c.find message.firstSequence with
    | none => exact hquery
    | some i =>
      dsimp only
      split
      · exact hquery
      split
      · exact hquery
      refine Stored.trimDroppedPrefix (Stored.advanceAcknowledgement ?_)
      refine Stored.deliverSlot (b := c.invalidateDeliveryQueries) hquery ?_ true
      exact (find_eq_some_iff.1 hf).2.2.1

theorem Stored.streamFrom {due : PacketTimestamp → Bool} {fuel space : Nat} (h : b.Stored) :
    (streamFrom due fuel space b).2.Stored := by
  induction fuel generalizing b space with
  | zero => exact h
  | succ fuel ih =>
    unfold streamFrom
    split
    · exact h
    cases hf : b.find b.firstStored with
    | none => exact h
    | some i =>
      obtain ⟨hi, -, hread, -⟩ := find_eq_some_iff.1 hf
      dsimp only
      split
      · exact h
      have hconsume := h.consume (i := i) (occupied_of_readable hread)
        (n := min ((b.slot i).payloadSize - (b.slot i).payloadOffset) space)
        (Nat.min_le_left ..)
      split
      · exact hconsume
      refine ih (Stored.trimDroppedPrefix (Stored.advanceFrontier ?_ 1))
      refine Stored.deliverSlot (i := i) ?_ ?_ false
      · exact hconsume
      show (SlotRing.get (SlotRing.set b.slots i _) i).readable = true
      rw [SlotRing.get_set_self]
      exact hread

theorem Stored.popStream (h : b.Stored) (size : Nat) (due : PacketTimestamp → Bool) :
    (b.popStream size due).2.Stored := by
  unfold ReceiveBuffer.popStream
  split
  · exact h
  cases hf : b.find b.firstStored with
  | none => exact h
  | some i =>
    dsimp only
    split
    · exact h
    · exact h.streamFrom

theorem Stored.markGapAt (h : b.Stored) (sequence : SequenceNumber) (deadline : Nat) :
    (b.markGapAt sequence deadline).Stored := by
  unfold ReceiveBuffer.markGapAt
  cases b.offsetOf sequence with
  | none => exact h
  | some i =>
    dsimp only
    split
    · next hempty =>
      have hi : (b.slot i).occupied = false := by
        cases ho : (b.slot i).occupied <;> simp_all
      exact h.mark hi hi (h.rejectedPayload_of_empty hi) (h.slot i).offset_le
    · exact h

theorem Stored.markGapFrom {deadline : Nat} (h : b.Stored) :
    (markGapFrom deadline n sequence b).Stored := by
  induction n generalizing b sequence with
  | zero => exact h
  | succ n ih => exact ih (h.markGapAt sequence deadline)

theorem Stored.markGap (h : b.Stored) (range : SequenceRange) (deadline : Nat) :
    (b.markGap range deadline).Stored := by
  unfold ReceiveBuffer.markGap
  dsimp only
  split
  · exact h
  · exact h.markGapFrom

theorem Stored.dropSlot (h : b.Stored) (i : Nat) : (b.dropSlot i).Stored := by
  unfold ReceiveBuffer.dropSlot
  dsimp only
  split
  · next ho =>
    exact Stored.vacate (b := b.invalidateDeliveryQueries) h ho rfl rfl le_rfl
  next ho =>
  have hi : (b.slot i).occupied = false := by simpa using ho
  exact h.mark hi hi (h.rejectedPayload_of_empty hi) (h.slot i).offset_le

theorem Stored.dropRound {preservation : DropPreservation} {p : DropProgress}
    (h : p.buffer.Stored) (i : Nat) : (dropRound preservation p i).buffer.Stored := by
  have hdrop := h.dropSlot i
  unfold ReceiveBuffer.dropRound
  cases preservation with
  | none => exact hdrop
  | receivedPackets =>
    dsimp only
    split
    · exact h
    · exact hdrop
  | completeMessages =>
    dsimp only
    split
    · exact h
    cases p.buffer.completeMessageLastOffset i with
    | none => exact hdrop
    | some last => exact h

theorem Stored.dropRounds {preservation : DropPreservation} {p : DropProgress}
    (h : p.buffer.Stored) : (dropRounds preservation n i p).buffer.Stored := by
  induction n generalizing i p with
  | zero => exact h
  | succ n ih => exact ih (h.dropRound i)

section

variable (h : b.Stored)
include h

theorem Stored.skipFrontier (n : Nat) : (b.skipFrontier n).Stored := by
  unfold ReceiveBuffer.skipFrontier
  refine Stored.advanceFrontier ?_ n
  split
  · exact h
  · exact h

theorem Stored.catchUpAcknowledgement : b.catchUpAcknowledgement.Stored := by
  unfold ReceiveBuffer.catchUpAcknowledgement
  split
  · exact Stored.advanceAcknowledgement (b := { b with nextAck := b.firstStored }) h
  · exact h

theorem Stored.dropRangeImpl (range : SequenceRange) (preservation : DropPreservation) :
    (b.dropRangeImpl range preservation).Stored := by
  have hwithin : (b.dropWithin range preservation).buffer.Stored :=
    Stored.dropRounds (p := { buffer := b }) h
  have htrimmed : (b.dropTrimmed range preservation).Stored :=
    hwithin.advanceAcknowledgement.trimDroppedPrefix
  unfold ReceiveBuffer.dropRangeImpl
  split
  · exact h
  split
  · exact h
  · exact (htrimmed.skipFrontier _).catchUpAcknowledgement

theorem Stored.acknowledgePeerDropRange (range : SequenceRange) :
    (b.acknowledgePeerDropRange range).Stored := by
  unfold ReceiveBuffer.acknowledgePeerDropRange
  split
  · exact Stored.advanceAcknowledgement (b := { b with nextAck := range.last.next }) h
  · exact h

theorem Stored.discardSlot (i : Nat) : (b.discardSlot i).Stored := by
  unfold ReceiveBuffer.discardSlot
  dsimp only
  split
  · next ho => exact h.vacate ho rfl rfl le_rfl
  next ho =>
  have hi : (b.slot i).occupied = false := by simpa using ho
  simp only [removeRejectedMessage_eq, h.rejectedPayload_of_empty hi, Bool.false_eq_true, if_false]
  exact (h.clearIndex hi).mark (i := i) hi rfl rfl le_rfl

/-- The slots that were discarded are blank. -/
theorem discardSlots_spec (hn : i + n ≤ b.capacity) :
    (discardSlots n i b).Stored ∧ (discardSlots n i b).slots.head = b.slots.head
      ∧ (discardSlots n i b).capacity = b.capacity
      ∧ ∀ j < b.capacity, (discardSlots n i b).slot j
        = if i ≤ j ∧ j < i + n then {} else b.slot j := by
  induction n generalizing i b with
  | zero =>
    refine ⟨h, rfl, rfl, ?_⟩
    intro j _
    rw [if_neg (by omega)]
    rfl
  | succ n ih =>
    have hslots : (b.discardSlot i).slots = b.slots.set i {} := by
      unfold ReceiveBuffer.discardSlot
      simp only [removeRejectedMessage_eq]
      split <;> rfl
    have hcap : (b.discardSlot i).capacity = b.capacity := by
      unfold capacity
      rw [hslots]
      rfl
    obtain ⟨hstored, hhead, hcapacity, hall⟩ := ih (i := i + 1) (h.discardSlot i) (by omega)
    unfold discardSlots
    refine ⟨hstored, ?_, hcapacity.trans hcap, ?_⟩
    · rw [hhead, hslots]
      rfl
    intro j hj
    rw [hall j (by omega)]
    have hslot : (b.discardSlot i).slot j = if j = i then {} else b.slot j := by
      unfold slot
      rw [hslots]
      exact b.slots.get_set (by show i < b.capacity; omega) hj {}
    rw [hslot]
    by_cases hji : j = i
    · rw [if_neg (by omega), if_pos hji, if_pos (by omega)]
    rw [if_neg hji]
    exact if_congr (by omega) rfl rfl

/-- Starting afresh once every slot is blank. -/
theorem Stored.resetSlots (hblank : ∀ i < b.capacity, b.slot i = {}) : b.resetSlots.Stored := by
  have hslots : ∀ p < b.slots.capacity, b.slots.slots p = {} := by
    exact b.slots.forall_get_iff (P := (· = {})).1 hblank
  have htotal : ∀ {M : Type} [AddCommMonoid M] (f : ReceiveSlot → M),
      b.resetSlots.slots.total f = b.slots.total f := by
    intro M _ f
    refine Finset.sum_congr rfl ?_
    intro p hp
    rw [hslots p (Finset.mem_range.1 hp)]
    rfl
  have hzero : ∀ f : ReceiveSlot → Nat, f {} = 0 → b.resetSlots.slots.total f = 0 :=
    fun f hf => Finset.sum_eq_zero (fun _ _ => hf)
  refine ⟨(hzero _ rfl).symm, (hzero _ rfl).symm, ?_, h.poolCapacity, ?_, ?_, ?_,
    fun _ _ => .of_empty rfl rfl le_rfl⟩
  · rw [htotal]
    exact h.leases
  · rw [htotal]
    exact h.rejections
  · refine ⟨h.readable.levels, ?_, h.readable.summarized⟩
    intro p hp
    rw [show b.resetSlots.occupiedIndex = b.occupiedIndex from rfl, h.readable.leaf p hp,
      hslots p hp]
    rfl
  refine ⟨h.stored.levels, ?_, h.stored.summarized⟩
  intro p hp
  rw [show b.resetSlots.storageIndex = b.storageIndex from rfl, h.stored.leaf p hp, hslots p hp]
  rfl

theorem Stored.discardWindow (count : Nat) : (b.discardWindow count).Stored := by
  obtain ⟨hstored, -, hcapacity, hall⟩ := discardSlots_spec (b := b.invalidateDeliveryQueries)
    (n := min count b.capacity) (i := 0) h (by show 0 + _ ≤ b.capacity; omega)
  unfold ReceiveBuffer.discardWindow
  dsimp only
  split
  · next hbig =>
    refine hstored.resetSlots ?_
    intro i hi
    rw [hcapacity] at hi hbig
    rw [hall i hi, if_pos]
    change i < b.capacity at hi
    change b.capacity ≤ count at hbig
    omega
  · exact hstored

theorem Stored.raiseAcknowledgement (next : SequenceNumber) :
    (b.raiseAcknowledgement next).Stored := by
  unfold ReceiveBuffer.raiseAcknowledgement
  split
  · exact h
  · exact h

theorem Stored.discardBefore (next : SequenceNumber) : (b.discardBefore next).Stored := by
  unfold ReceiveBuffer.discardBefore
  split
  · exact h
  · exact ((h.discardWindow _).advanceFrontier _).raiseAcknowledgement next

end

/-! ## Runs -/

/-- The public operations, with their arguments. -/
inductive Op
  | insert (packet : { p : PacketView // p.Typed })
  | discardMessagePayload (sequence : SequenceNumber)
  | popMessage (size : Nat)
  | popMessageUnordered (size : Nat)
  | popStream (size : Nat) (due : PacketTimestamp → Bool)
  | markGap (range : SequenceRange) (deadline : Nat)
  | dropRange (range : SequenceRange)
  | dropPeerRequestedRange (range : SequenceRange)
  | dropPeerRequestedStreamRange (range : SequenceRange)
  | discardBefore (next : SequenceNumber)
  | acknowledgePeerDropRange (range : SequenceRange)
  | firstCompleteMessage
  | firstBufferedPacket

def apply (b : ReceiveBuffer) : Op → ReceiveBuffer
  | .insert packet => (b.insert packet.val).2
  | .discardMessagePayload sequence => b.discardMessagePayload sequence
  | .popMessage size => (b.popMessage size).2
  | .popMessageUnordered size => (b.popMessageUnordered size).2
  | .popStream size due => (b.popStream size due).2
  | .markGap range deadline => b.markGap range deadline
  | .dropRange range => b.dropRange range
  | .dropPeerRequestedRange range => b.dropPeerRequestedRange range
  | .dropPeerRequestedStreamRange range => b.dropPeerRequestedStreamRange range
  | .discardBefore next => b.discardBefore next
  | .acknowledgePeerDropRange range => b.acknowledgePeerDropRange range
  | .firstCompleteMessage => b.firstCompleteMessage.2
  | .firstBufferedPacket => b.firstBufferedPacket.2

/-- A buffer under any sequence of operations. -/
def system : Lts.System ReceiveBuffer Op :=
  .ofFun (fun b => ∃ initial capacity, make initial capacity = some b) apply

theorem Stored.apply (h : b.Stored) (op : Op) : (b.apply op).Stored := by
  unfold ReceiveBuffer.apply
  cases op with
  | insert packet => exact h.insert packet.property
  | discardMessagePayload sequence => exact h.discardMessagePayload sequence
  | popMessage size => exact h.popMessage size
  | popMessageUnordered size => exact h.popMessageUnordered size
  | popStream size due => exact h.popStream size due
  | markGap range deadline => exact h.markGap range deadline
  | dropRange range => exact h.dropRangeImpl range .none
  | dropPeerRequestedRange range => exact h.dropRangeImpl range .completeMessages
  | dropPeerRequestedStreamRange range => exact h.dropRangeImpl range .receivedPackets
  | discardBefore next => exact h.discardBefore next
  | acknowledgePeerDropRange range => exact h.acknowledgePeerDropRange range
  | firstCompleteMessage => exact h.firstCompleteMessage
  | firstBufferedPacket => exact h.firstBufferedPacket

/-- The agreement holds in every reachable state, whatever the arguments. -/
theorem stored_of_reaches {guard : ReceiveBuffer → Op → Prop}
    (h : Lts.Reaches system guard b) : b.Stored := by
  refine h.invariant ?_ ?_
  · rintro c ⟨initial, capacity, hc⟩
    exact stored_make hc
  rintro c op d - hc - rfl
  exact hc.apply op

end ReceiveBuffer

end Srt
