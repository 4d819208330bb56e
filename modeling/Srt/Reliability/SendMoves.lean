/-
# `SendMoves` — what an operation leaves of the packets

Two things are followed along the operations: which packets are still there,
in which form (`Keeps`), and which of them are marked for the ring of
retransmissions (`Kept`).  Both hold of the moves an operation is made of, so
the operations are gone through once, for the two together (`Held`).
-/
import Srt.Reliability.SendLedger

namespace Srt

namespace SendBuffer

variable {b c d : SendBuffer} {i j : Nat}

/-! ## Packets -/

/-- The cell of a packet is as long as its slot says. -/
def Sized (b : SendBuffer) (i : Nat) : Prop :=
  (b.payloads.get (b.slot i).payloadIndex).length = (b.slot i).payloadSize

/-- The packet at `j` of `c` is the one at `i` of `b`. -/
structure SamePacket (b : SendBuffer) (i : Nat) (c : SendBuffer) (j : Nat) : Prop where
  position : (c.slot j).sequencePosition = (b.slot i).sequencePosition
  form : (b.slot i).header.encryptionKey ≠ .none → c.outbound j = b.outbound i
  size : b.Sized i → c.Sized j

variable {k : Nat}

theorem SamePacket.trans (h : SamePacket b i c j) (h' : SamePacket c j d k) :
    SamePacket b i d k where
  position := h'.position.trans h.position
  form hkey := by
    have hform := h.form hkey
    have hheader : (c.slot j).header = (b.slot i).header := congrArg OutboundPacket.header hform
    exact (h'.form (hheader ▸ hkey)).trans hform
  size hsize := h'.size (h.size hsize)

/-- A slot that says the same of its packet, over the same cell. -/
theorem SamePacket.of_slot (hheader : (c.slot j).header = (b.slot i).header)
    (hindex : (c.slot j).payloadIndex = (b.slot i).payloadIndex)
    (hposition : (c.slot j).sequencePosition = (b.slot i).sequencePosition)
    (hsize : (c.slot j).payloadSize = (b.slot i).payloadSize)
    (hcell : c.payloads.get (b.slot i).payloadIndex = b.payloads.get (b.slot i).payloadIndex) :
    SamePacket b i c j where
  position := hposition
  form _ := by
    unfold outbound
    rw [hheader, hindex, hposition, hcell]
  size h := by
    unfold Sized
    rw [hindex, hcell, hsize]
    exact h

/-- What an operation leaves of the packets. -/
structure Keeps (b c : SendBuffer) : Prop where
  next : b.nextSequencePosition ≤ c.nextSequencePosition
  packets : ∀ j < c.capacity, (c.slot j).occupied = true →
    (b.nextSequencePosition ≤ (c.slot j).sequencePosition ∧ c.Sized j)
      ∨ ∃ i < b.capacity, (b.slot i).occupied = true ∧ SamePacket b i c j

theorem Keeps.refl (b : SendBuffer) : Keeps b b :=
  ⟨le_rfl, fun j hj ho => .inr ⟨j, hj, ho, rfl, fun _ => rfl, id⟩⟩

theorem Keeps.of_slots (hslots : c.slots = b.slots) (hpayloads : c.payloads = b.payloads)
    (hnext : c.nextSequencePosition = b.nextSequencePosition) : Keeps b c := by
  have hslot : ∀ j, c.slot j = b.slot j := fun j => congrArg (SlotRing.get · j) hslots
  refine ⟨hnext.ge, fun j hj ho => .inr ⟨j, ?_, hslot j ▸ ho, .of_slot (by rw [hslot])
    (by rw [hslot]) (by rw [hslot]) (by rw [hslot]) (by rw [hpayloads])⟩⟩
  exact hj.trans_eq (congrArg SlotRing.capacity hslots)

theorem Keeps.trans (h : Keeps b c) (h' : Keeps c d) : Keeps b d := by
  refine ⟨h.next.trans h'.next, fun k hk ho => ?_⟩
  rcases h'.packets k hk ho with ⟨hnew, hsize⟩ | ⟨j, hj, hoj, hsame⟩
  · exact .inl ⟨h.next.trans hnew, hsize⟩
  rcases h.packets j hj hoj with ⟨hnew, hsize⟩ | ⟨i, hi, hoi, hsame'⟩
  · exact .inl ⟨hsame.position.symm ▸ hnew, hsame.size hsize⟩
  · exact .inr ⟨i, hi, hoi, hsame'.trans hsame⟩

theorem Idle.keeps (h : Idle b c) : Keeps b c := by
  have hpayloads : c.payloads = b.payloads := congrArg Standing.payloads h.standing
  refine ⟨(congrArg Standing.nextSequencePosition h.standing).ge, fun j hj ho => ?_⟩
  have hs := h.slot j
  refine .inr ⟨j, hj.trans_eq h.slots.capacity, hs.occupied ▸ ho, .of_slot hs.header hs.payloadIndex
    hs.sequencePosition hs.payloadSize ?_⟩
  rw [hpayloads]

/-! ## One slot changes -/

theorem keeps_enqueuePacket (h : b.Sound) (f : MessageFields) (boundary : MessageBoundary)
    (payload : Bytes) (hroom : b.sequenceSpan < b.capacity) :
    Keeps b (b.enqueuePacket f boundary payload) := by
  refine ⟨Nat.le_succ _, fun j hj ho => ?_⟩
  by_cases hji : j = b.sequenceSpan
  · subst hji
    refine .inl ⟨?_, ?_⟩
    · show _ ≤ ((b.slots.set b.sequenceSpan _).get b.sequenceSpan).sequencePosition
      rw [SlotRing.get_set_self]
    show ((b.payloads.acquire payload).2.get
        ((b.slots.set b.sequenceSpan _).get b.sequenceSpan).payloadIndex).length
      = ((b.slots.set b.sequenceSpan _).get b.sequenceSpan).payloadSize
    rw [SlotRing.get_set_self]
    exact congrArg List.length (b.payloads.get_acquire payload)
  have hslot : (b.enqueuePacket f boundary payload).slot j = b.slot j :=
    b.slots.get_set_ne hroom hj hji _
  rw [hslot] at ho
  refine .inr ⟨j, hj, ho, .of_slot (by rw [hslot]) (by rw [hslot]) (by rw [hslot])
    (by rw [hslot]) ?_⟩
  -- the cell handed out was free
  refine b.payloads.get_acquire_of_ne payload fun heq => ?_
  refine h.booked.leases.acquire_notMem payload (heq ▸ ?_)
  rw [b.slots.total_split SendSlot.lease j, show (b.slots.get j).lease = _ from
    SendSlot.lease_of_occupied ho]
  exact Multiset.mem_add.2 (.inl (Multiset.mem_singleton_self _))

/-- A discarded packet takes nothing from the others. -/
theorem keeps_discardSlot (h : b.Booked) (hk : k < b.capacity) (retain : Bool) :
    Keeps b (b.discardSlot k retain) := by
  have hcap := b.discardSlot_capacity retain k
  refine ⟨(b.discardSlot_frame retain k).2.2.2.1.ge, fun j hj ho => ?_⟩
  have hj' : j < b.capacity := hj.trans_eq hcap
  by_cases hjk : j = k
  · rw [hjk, discardSlot_slot] at ho
    cases retain <;> exact Bool.noConfusion ho
  have hslot := b.discardSlot_slot_ne retain hk hj' hjk
  rw [hslot] at ho
  refine .inr ⟨j, hj', ho, .of_slot (by rw [hslot]) (by rw [hslot]) (by rw [hslot])
    (by rw [hslot]) ?_⟩
  cases hok : (b.slot k).occupied
  · rw [(b.discardSlot_free retain k hok).2.2.2.2]
  rw [(b.discardSlot_live retain k hok).2.2.2.2]
  exact b.payloads.get_release_of_ne fun heq => hjk (h.payloadIndex_inj hj' hk ho hok heq)

/-- A slot rewritten over the same cells, with its packet or without one. -/
theorem keeps_setSlot (b : SendBuffer) {s : SendSlot}
    (hs : s.occupied = true → (b.slot k).occupied = true ∧ s.header = (b.slot k).header ∧
      s.payloadIndex = (b.slot k).payloadIndex ∧ s.sequencePosition = (b.slot k).sequencePosition ∧
      s.payloadSize = (b.slot k).payloadSize)
    (hk : k < b.capacity) : Keeps b (b.setSlot k s) := by
  refine ⟨le_rfl, fun j hj ho => ?_⟩
  by_cases hjk : j = k
  · have hslot : (b.setSlot k s).slot k = s := b.slots.get_set_self _ _
    rw [hjk, hslot] at ho
    obtain ⟨hok, hheader, hindex, hposition, hsize⟩ := hs ho
    subst hjk
    exact .inr ⟨j, hj, hok, .of_slot (by rw [hslot, hheader]) (by rw [hslot, hindex])
      (by rw [hslot, hposition]) (by rw [hslot, hsize]) rfl⟩
  have hslot : (b.setSlot k s).slot j = b.slot j := b.slots.get_set_ne hk hj hjk _
  rw [hslot] at ho
  exact .inr ⟨j, hj, ho, .of_slot (by rw [hslot]) (by rw [hslot]) (by rw [hslot])
    (by rw [hslot]) rfl⟩

/-- The window moves over slots that hold no packet. -/
theorem keeps_advanceWindow (b : SendBuffer) (count : Nat) (first : SequenceNumber) :
    Keeps b (b.advanceWindow count first) := by
  refine ⟨le_rfl, fun j hj ho => ?_⟩
  have hcap : 0 < b.capacity := b.slots.capacity_pos
  have hslot : (b.advanceWindow count first).slot j = b.slot ((count + j) % b.capacity) := by
    show (b.slots.advance count).get j = b.slots.get ((count + j) % b.slots.capacity)
    rw [b.slots.get_advance]
    unfold SlotRing.get SlotRing.position
    rw [Nat.add_mod_mod]
  rw [hslot] at ho
  exact .inr ⟨_, Nat.mod_lt _ hcap, ho, .of_slot (by rw [hslot]) (by rw [hslot]) (by rw [hslot])
    (by rw [hslot]) rfl⟩

/-! ## The window by sequence number -/

theorem offsetOf_congr (hspan : c.sequenceSpan = b.sequenceSpan)
    (hfirst : c.firstSequence = b.firstSequence) (k : SequenceNumber) :
    c.offsetOf k = b.offsetOf k := by
  unfold offsetOf
  rw [hspan, hfirst]

theorem offsetOf_advanced (hcap : b.sequenceSpan ≤ b.capacity)
    (hi : i < b.sequenceSpan) : b.offsetOf (b.firstSequence.advanced i) = some i := by
  have hlt : b.capacity < 2 ^ 30 := b.capacity_lt
  have hdistance := b.firstSequence.distanceFrom_advanced (m := i) (n := 0) (by omega) (by omega)
  rw [SequenceNumber.advanced_zero] at hdistance
  unfold offsetOf
  rw [hdistance]
  simp [hi]

/-! ## Marks -/

/-- Only live packets are marked. -/
def Marked (slots : SlotRing SendSlot) : Prop :=
  ∀ p, (slots.slots p).retransmissionQueued = true → (slots.slots p).occupied = true

variable {s : SendSlot}

theorem Marked.set {slots : SlotRing SendSlot} (h : Marked slots)
    (hs : s.retransmissionQueued = true → s.occupied = true) : Marked (slots.set i s) := by
  intro p
  by_cases hp : p = slots.position i
  · rw [show (slots.set i s).slots p = s from if_pos hp]
    exact hs
  rw [show (slots.set i s).slots p = slots.slots p from if_neg hp]
  exact h p

/-- The ring is the same, and every packet still retained was retained with
the same mark. -/
structure Kept (b c : SendBuffer) : Prop where
  ring : c.retransmissions = b.retransmissions
  drops : c.dropRequests.capacity = b.dropRequests.capacity
  capacity : c.capacity = b.capacity
  marked : Marked b.slots → Marked c.slots
  slots : ∀ k j, c.offsetOf k = some j → (c.slot j).occupied = true →
    ∃ i, b.offsetOf k = some i ∧ (b.slot i).occupied = true
      ∧ (c.slot j).retransmissionQueued = (b.slot i).retransmissionQueued
      ∧ ((b.slot i).sent = true → (c.slot j).sent = true)

theorem Kept.refl (b : SendBuffer) : Kept b b :=
  ⟨rfl, rfl, rfl, id, fun _ j hj ho => ⟨j, hj, ho, rfl, id⟩⟩

theorem Kept.trans (h : Kept b c) (h' : Kept c d) : Kept b d := by
  refine ⟨h'.ring.trans h.ring, h'.drops.trans h.drops, h'.capacity.trans h.capacity,
    h'.marked ∘ h.marked, fun k j hj ho => ?_⟩
  obtain ⟨i, hi, ho', hq, hs⟩ := h'.slots k j hj ho
  obtain ⟨m, hm, ho'', hq', hs'⟩ := h.slots k i hi ho'
  exact ⟨m, hm, ho'', hq.trans hq', hs ∘ hs'⟩

section

variable (hring : c.retransmissions = b.retransmissions)
  (hdrops : c.dropRequests.capacity = b.dropRequests.capacity)
include hring hdrops

/-- The slots of the window stay where they are. -/
theorem Kept.of_window (hcap : c.capacity = b.capacity) (hmarked : Marked b.slots → Marked c.slots)
    (hspan : c.sequenceSpan = b.sequenceSpan) (hfirst : c.firstSequence = b.firstSequence)
    (hslots : ∀ j < b.sequenceSpan, (c.slot j).occupied = true → (b.slot j).occupied = true ∧
      (c.slot j).retransmissionQueued = (b.slot j).retransmissionQueued ∧ ((b.slot j).sent = true →
      (c.slot j).sent = true)) : Kept b c := by
  refine ⟨hring, hdrops, hcap, hmarked, fun k j hj ho => ?_⟩
  rw [offsetOf_congr hspan hfirst] at hj
  exact ⟨j, hj, hslots j (offsetOf_eq_some hj).1 ho⟩

theorem Kept.of_slots (hslots : c.slots = b.slots) (hspan : c.sequenceSpan = b.sequenceSpan)
    (hfirst : c.firstSequence = b.firstSequence) : Kept b c := by
  refine .of_window hring hdrops ?_ (hslots ▸ id) hspan hfirst fun j _ ho => ?_
  · unfold SendBuffer.capacity
    rw [hslots]
  unfold slot at ho ⊢
  rw [hslots] at ho ⊢
  exact ⟨ho, rfl, id⟩

theorem Kept.of_set (hset : c.slots = b.slots.set i s) (hspan : c.sequenceSpan = b.sequenceSpan)
    (hfirst : c.firstSequence = b.firstSequence)
    (hs : s.occupied = true → (b.slot i).occupied = true ∧ s.retransmissionQueued = (b.slot
      i).retransmissionQueued ∧ ((b.slot i).sent = true → s.sent = true))
    (hmark : ((b.slot i).retransmissionQueued = true → (b.slot i).occupied = true) →
      s.retransmissionQueued = true → s.occupied = true) : Kept b c := by
  refine .of_window hring hdrops ?_ (fun hb => ?_) hspan hfirst fun j _ ho => ?_
  · unfold SendBuffer.capacity
    rw [hset]
    rfl
  · rw [hset]
    exact hb.set (hmark (hb _))
  have hget : c.slot j = if b.slots.position j = b.slots.position i then s else b.slot j := by
    unfold slot
    rw [hset]
    rfl
  rw [hget] at ho ⊢
  by_cases hp : b.slots.position j = b.slots.position i
  · have hsame : b.slot j = b.slot i := congrArg b.slots.slots hp
    rw [if_pos hp] at ho ⊢
    rw [hsame]
    exact hs ho
  rw [if_neg hp] at ho ⊢
  exact ⟨ho, rfl, id⟩

end

theorem Rests.kept (h : Rests b c) : Kept b c := by
  refine .of_window h.ring h.drops h.slots.capacity (fun hb p hp => ?_) h.sequenceSpan
    h.firstSequence fun j _ ho => ?_
  · exact (h.slots.slots p).occupied ▸ hb p (h.marks p ▸ hp)
  have hs := h.slot j
  have hmark : (c.slot j).retransmissionQueued
      = (b.slots.slots (c.slots.position j)).retransmissionQueued := h.marks _
  rw [h.slots.position] at hmark
  exact ⟨hs.occupied ▸ ho, hmark, fun h => hs.sent ▸ h⟩

theorem Kept.advanceWindow {k : Nat} {first : SequenceNumber} (hcap : b.sequenceSpan ≤ b.capacity)
    (hfirst : first = b.firstSequence.advanced k) : Kept b (b.advanceWindow k first) := by
  refine ⟨rfl, rfl, rfl, id, fun key j hj ho => ?_⟩
  obtain ⟨hlt, hkey⟩ := offsetOf_eq_some hj
  have hin : j < b.sequenceSpan - k := hlt
  have hkey' : key = b.firstSequence.advanced (k + j) := by
    rw [hkey, ← SequenceNumber.advanced_advanced, ← hfirst]
    rfl
  rw [advanceWindow_slot] at ho ⊢
  exact ⟨k + j, hkey' ▸ offsetOf_advanced hcap (by omega), ho, rfl, id⟩

theorem discardSlot_rings (b : SendBuffer) (i : Nat) (retain : Bool) :
    (b.discardSlot i retain).retransmissions = b.retransmissions
      ∧ (b.discardSlot i retain).dropRequests = b.dropRequests := by
  unfold discardSlot releaseSlot
  simp only
  split <;> split <;> exact ⟨rfl, rfl⟩

theorem discarded_flags (s : SendSlot) (retain : Bool) :
    (discarded s retain).occupied = false ∧ (discarded s retain).retransmissionQueued = false := by
  cases retain <;> exact ⟨rfl, rfl⟩

theorem Kept.discardSlot (b : SendBuffer) (i : Nat) (retain : Bool) :
    Kept b (b.discardSlot i retain) := by
  obtain ⟨hspan, -, -, -, hfirst⟩ := b.discardSlot_frame retain i
  obtain ⟨hring, hdrops⟩ := b.discardSlot_rings i retain
  obtain ⟨ho, hq⟩ := discarded_flags (b.slot i) retain
  refine .of_set hring (congrArg RingQueue.capacity hdrops) (b.discardSlot_slots retain i) hspan
    hfirst (fun hlive => ?_) fun _ hmark => ?_
  · rw [ho] at hlive
    cases hlive
  rw [hq] at hmark
  cases hmark

/-! ## Both at once -/

/-- What an operation leaves of the packets and of their marks. -/
structure Held (b c : SendBuffer) : Prop extends Keeps b c, Kept b c

theorem Held.refl (b : SendBuffer) : Held b b := ⟨.refl b, .refl b⟩

theorem Held.trans (h : Held b c) (h' : Held c d) : Held b d :=
  ⟨h.toKeeps.trans h'.toKeeps, h.toKept.trans h'.toKept⟩

theorem held_discardSlot (h : b.Booked) (hk : k < b.capacity) (retain : Bool) :
    Held b (b.discardSlot k retain) :=
  ⟨keeps_discardSlot h hk retain, .discardSlot b k retain⟩

theorem held_advanceWindow {first : SequenceNumber} (hcap : b.sequenceSpan ≤ b.capacity)
    (hfirst : first = b.firstSequence.advanced k) : Held b (b.advanceWindow k first) :=
  ⟨keeps_advanceWindow b k first, .advanceWindow hcap hfirst⟩

theorem held_nextOriginal (defer : Bool) (now fuel : Nat) (b : SendBuffer)
    (hcap : b.sequenceSpan ≤ b.capacity) : Held b (nextOriginal defer now fuel b).2 := by
  induction fuel generalizing b with
  | zero => exact .refl b
  | succ fuel ih =>
    unfold nextOriginal
    split
    · exact .refl b
    next hu =>
    simp only
    split
    · next hlive =>
      rw [Bool.and_eq_true] at hlive
      have hcounted : Held b { b with
          nextUnsentOffset := b.nextUnsentOffset + 1
          packetsInFlight := b.packetsInFlight + 1 } :=
        ⟨.of_slots rfl rfl rfl, .of_slots rfl rfl rfl rfl rfl⟩
      refine hcounted.trans ⟨keeps_setSlot _ (fun _ => ⟨hlive.1, rfl, rfl, rfl, rfl⟩)
        (show b.nextUnsentOffset < b.capacity by omega), ?_⟩
      exact .of_set rfl rfl rfl rfl rfl (fun _ => ⟨hlive.1, rfl, fun _ => rfl⟩) id
    have hpassed : Held b { b with nextUnsentOffset := b.nextUnsentOffset + 1 } :=
      ⟨.of_slots rfl rfl rfl, .of_slots rfl rfl rfl rfl rfl⟩
    exact hpassed.trans (ih _ hcap)

theorem held_discardSlots (h : Cleared b c k) (count : Nat) (hcount : k + count ≤ b.sequenceSpan)
    (hcap : b.sequenceSpan ≤ c.capacity) : Held c (discardSlots count k c) := by
  induction count generalizing k c with
  | zero => exact .refl c
  | succ count ih =>
    refine (held_discardSlot h.booked (by omega) false).trans (ih (h.step (by omega)) (by omega) ?_)
    exact hcap.trans_eq (c.discardSlot_capacity false k).symm

theorem held_acknowledgeBefore (h : b.Sound) (sequence : SequenceNumber) :
    Held b (b.acknowledgeBefore sequence).2 := by
  unfold acknowledgeBefore
  split
  · exact .refl b
  split
  · exact .refl b
  next hneg hle =>
  have hsequence := (SequenceNumber.advanced_distanceFrom (Int.not_lt.1 hneg)).symm
  generalize (sequence.distanceFrom b.firstSequence).toNat = d at hle hsequence ⊢
  have hclear : Cleared b (discardSlots d 0 b) d := h.clear (by omega)
  have hheld := held_discardSlots h.cleared d (by omega) h.lined.span_le
  refine hheld.trans (held_advanceWindow ?_ (hclear.first ▸ hsequence))
  rw [hclear.span, hheld.capacity]
  exact h.lined.span_le

theorem held_acknowledgeSubmittedBefore (h : b.Sound) (sequence : SequenceNumber) :
    Held b (b.acknowledgeSubmittedBefore sequence).2 := by
  unfold acknowledgeSubmittedBefore
  split
  · exact .refl b
  split
  · exact .refl b
  split
  · exact .refl b
  · exact held_acknowledgeBefore h sequence

theorem held_releaseRetiredPrefix (h : b.Sound) : Held b b.releaseRetiredPrefix := by
  rcases b.releaseRetiredPrefix_cases with heq | ⟨next, heq⟩
  · rw [heq]
    exact .refl b
  rw [heq]
  exact held_acknowledgeBefore h next

theorem held_dropOlderFrom (h : Cleared b c k) (cutoff fuel bytes message : Nat)
    (hfuel : k + fuel ≤ b.sequenceSpan) (hcap : b.sequenceSpan ≤ c.capacity) :
    Held c (dropOlderFrom cutoff fuel k bytes message c).2.2 := by
  induction fuel generalizing k bytes message c with
  | zero => exact .refl c
  | succ fuel ih =>
    unfold dropOlderFrom
    simp only
    split
    · exact .refl c
    split
    · exact .refl c
    refine (held_discardSlot h.booked (by omega) false).trans
      (ih (h.step (by omega)) _ _ (by omega) ?_)
    exact hcap.trans_eq (c.discardSlot_capacity false k).symm

theorem held_dropMessagesOlderThan (h : b.Sound) (cutoff : Nat) :
    Held b (b.dropMessagesOlderThan cutoff).2 := by
  have hcap : b.sequenceSpan ≤ b.capacity := h.lined.span_le
  have hdropped := held_dropOlderFrom h.cleared cutoff b.sequenceSpan 0
    (b.slot 0).header.messageNumber (by omega) hcap
  have hcleared := (h.cleared.dropOlderFrom cutoff b.sequenceSpan 0
    (b.slot 0).header.messageNumber (by omega)).2
  unfold dropMessagesOlderThan
  simp only
  generalize dropOlderFrom cutoff b.sequenceSpan 0 0 (b.slot 0).header.messageNumber b
    = run at hdropped hcleared ⊢
  obtain ⟨packets, bytes, dropped⟩ := run
  simp only at hdropped hcleared ⊢
  split
  · exact .refl b
  split
  · exact hdropped
  next hpos =>
  refine hdropped.trans (held_advanceWindow ?_ ?_)
  · rw [hcleared.span, hdropped.capacity]
    exact hcap
  · rw [hcleared.first, SequenceNumber.next_advanced, Nat.sub_add_cancel (Nat.pos_of_ne_zero hpos)]

theorem held_entomb (h : b.Sound) (first : SequenceNumber) (hi : i < b.capacity) :
    Held b (b.entomb first i) := by
  refine (held_discardSlot h.booked hi true).trans ⟨keeps_setSlot _ (fun ho => ?_)
    (hi.trans_eq (b.discardSlot_capacity true i).symm), ?_⟩
  · rw [discardSlot_slot] at ho
    exact Bool.noConfusion ho
  · exact .of_set rfl rfl rfl rfl rfl (fun ho => ⟨ho, rfl, id⟩) id

theorem held_entombFrom (first : SequenceNumber) (number fuel offset bytes : Nat)
    (h : b.Sound) : Held b (entombFrom first number fuel offset bytes b).2.2 := by
  induction fuel generalizing offset bytes b with
  | zero => exact .refl b
  | succ fuel ih =>
    rw [entombFrom_succ]
    split
    · exact .refl b
    next hgo =>
    have hlt : offset < b.sequenceSpan := Nat.lt_of_not_le fun hge => hgo (.inl hge)
    exact (held_entomb h first (hlt.trans_le h.lined.span_le)).trans (ih _ _ (h.entomb first hlt))

theorem held_labelFrom (last : SequenceNumber) (count stop bytes : Nat) (b : SendBuffer)
    (hcount : count ≤ stop) (hstop : stop ≤ b.capacity) :
    Held b (labelFrom last count stop bytes b) := by
  induction count generalizing stop bytes b with
  | zero => exact .refl b
  | succ count ih =>
    refine .trans ⟨keeps_setSlot b ?_ (show stop - 1 < b.capacity by omega), ?_⟩
      (ih (stop - 1) _ _ (by omega) (show stop - 1 ≤ b.capacity by omega))
    · exact fun ho => ⟨ho, rfl, rfl, rfl, rfl⟩
    · exact .of_set rfl rfl rfl rfl rfl (fun ho => ⟨ho, rfl, id⟩) id

theorem held_expireMessage (h : b.Sound) {offset : Nat} (hlt : offset < b.sequenceSpan) :
    Held b (b.expireMessage offset).2 := by
  have hheld := held_entombFrom (b.firstSequence.advanced offset)
    (b.slot offset).header.messageNumber b.sequenceSpan offset 0 h
  have he := (entombFrom_entombed (b.firstSequence.advanced offset)
    (b.slot offset).header.messageNumber b.sequenceSpan offset 0 h (Nat.le_of_lt hlt)).2
  unfold expireMessage
  simp only
  generalize entombFrom (b.firstSequence.advanced offset) (b.slot offset).header.messageNumber
    b.sequenceSpan offset 0 b = run at hheld he ⊢
  obtain ⟨stop, bytes, entombed⟩ := run
  simp only at hheld he ⊢
  refine hheld.trans (held_labelFrom _ _ _ _ _ (by omega) ?_)
  exact he.capacity.symm ▸ he.bound.trans h.lined.span_le

theorem held_dropExpiredMessage (h : b.Sound) (now : Nat) :
    Held b (b.dropExpiredMessage now).2 := by
  unfold dropExpiredMessage
  split
  · exact .refl b
  split
  · next offset hfound =>
    have := b.expiredFrom_offset now _ _ _ hfound
    exact held_expireMessage h (by omega)
  · exact ⟨.of_slots rfl rfl rfl, .of_slots rfl rfl rfl rfl rfl⟩

theorem held_synchronizeEmpty (h : b.Sound) (next : SequenceNumber) :
    Held b (b.synchronizeEmpty next).2 := by
  unfold synchronizeEmpty
  split
  · exact .refl b
  next hempty =>
  have hspan : b.sequenceSpan = 0 := by omega
  simp only
  split
  · exact .refl b
  refine ⟨⟨Nat.le_add_right _ _, fun j hj ho => ?_⟩, rfl, rfl, rfl, id, fun k j hj => ?_⟩
  · have hblank := (h.lined.blank hspan _ (SlotRing.position_lt
      { b.slots with head := 0, head_lt := b.slots.capacity_pos } j)).1
    exact Bool.noConfusion (hblank.symm.trans ho)
  have hlt : j < b.sequenceSpan := (offsetOf_eq_some hj).1
  omega

end SendBuffer

end Srt
