/-
# `SendRetransmissions` — no requested retransmission is lost

Calling `next_packet` again and again hands out the entries of the ring that
stand, one a call and in their order (`drain_due`).  The ledger of the ring
(`Owing`) says that these are the marked packets, each once, apart from the
ones the caller already holds.
-/
import Srt.Reliability.SendRing

namespace Srt

namespace SendBuffer

variable {b c : SendBuffer} {owed : List SequenceNumber}

/-- The retransmissions still to be handed out. -/
def due (b : SendBuffer) : List SequenceNumber :=
  b.retransmissions.toList.filter b.retransmissionStands

/-- `count` calls of `next_packet`: the packets and the buffer left. -/
def drain (defer : Bool) (now : Nat) : Nat → SendBuffer → List OutboundPacket × SendBuffer
  | 0, b => ([], b)
  | count + 1, b =>
    match b.nextPacket defer true now with
    | (none, b) => ([], b)
    | (some packet, b) =>
      let rest := drain defer now count b
      (packet :: rest.1, rest.2)

theorem Owing.nodup_due (h : Owing b owed) : b.due.Nodup :=
  h.tally.nodup_filter fun _ => retainsPacket_of_stands

/-- What is due is what stands and is not owed. -/
theorem Owing.mem_due (h : Owing b owed) (k : SequenceNumber) :
    k ∈ b.due ↔ b.retransmissionStands k = true ∧ k ∉ owed := by
  unfold due
  rw [List.mem_filter]
  constructor
  · rintro ⟨hmem, hstands⟩
    refine ⟨hstands, fun howed => ?_⟩
    have hcount := h.tally k (retainsPacket_of_stands hstands)
    have h1 := List.count_pos_iff.2 hmem
    have h2 := List.count_pos_iff.2 howed
    rw [List.count_append, if_pos hstands] at hcount
    omega
  rintro ⟨hstands, hout⟩
  have hcount := h.tally k (retainsPacket_of_stands hstands)
  rw [List.count_append, if_pos hstands, List.count_eq_zero_of_not_mem hout] at hcount
  refine ⟨List.count_pos_iff.1 ?_, hstands⟩
  omega

section

variable (h : Owing b owed) (hb : b.Sound) {k : SequenceNumber} {i : Nat}
include h hb

/-- One call hands out the first entry that stands; the others stay. -/
theorem Owing.nextPacket_due (defer : Bool) (now : Nat) {rest : List SequenceNumber}
    (hdue : b.due = k :: rest) :
    ∃ packet c, b.nextPacket defer true now = (some packet, c)
      ∧ packet.header.sequence = k ∧ packet.header.retransmitted = true ∧ c.due = rest := by
  have hcap : b.sequenceSpan ≤ b.capacity := hb.lined.span_le
  have hrun := b.retransmits defer
  unfold SendBuffer.nextPacket
  rw [if_pos rfl]
  generalize nextRetransmission defer b.retransmissions.size b = run at hrun ⊢
  cases hrun with
  | none hskip =>
    have hnone : b.due = [] := hskip.filter
    rw [hnone] at hdue
    cases hdue
  | @some c j i left hskip hfind hq =>
    have hstands := (retransmissionStands_of_find hfind).trans hq
    have hfirst : b.due = j :: left.filter b.retransmissionStands := by
      refine hskip.filter.trans ?_
      rw [List.filter_cons_of_pos hstands]
    have hnodup := h.nodup_due
    rw [hfirst] at hdue hnodup
    obtain ⟨rfl, rfl⟩ := List.cons.inj hdue
    refine ⟨_, _, rfl, hb.lined.outboundAgain_sequence hfind, rfl, ?_⟩
    have hleft := hskip.left
    obtain ⟨⟨r, rfl⟩, -, -, -⟩ := hskip
    obtain ⟨hself, hother, -⟩ := stands_setMark (b := b)
      (c := { b with retransmissions := r.tail }.setSlot i
        { b.slot i with retransmissionQueued := defer })
      (s := { b.slot i with retransmissionQueued := defer }) hcap hfind rfl rfl rfl
      (find_eq_some hfind).1
    unfold due
    show r.tail.toList.filter _ = _
    rw [RingQueue.toList_tail, show r.toList.tail = left from congrArg List.tail hleft]
    -- the entry is the only one of its packet that counts, so no other has changed
    refine List.filter_congr fun x hx => hother x ?_
    rintro rfl
    exact (List.nodup_cons.1 hnodup).1 (List.mem_filter.2 ⟨hx, hstands⟩)

/-- As many calls as retransmissions are due hand out each of them, in the
order of the ring, and leave none. -/
theorem Owing.drain_due (defer : Bool) (now : Nat) :
    (drain defer now b.due.length b).1.map (·.header.sequence) = b.due
      ∧ (∀ packet ∈ (drain defer now b.due.length b).1, packet.header.retransmitted = true)
      ∧ (drain defer now b.due.length b).2.due = [] := by
  generalize hdue : b.due = due
  induction due generalizing b owed with
  | nil => exact ⟨rfl, by simp [drain], hdue⟩
  | cons k rest ih =>
    obtain ⟨packet, c, hrun, hsequence, hagain, hrest⟩ := h.nextPacket_due hb defer now hdue
    have hsound := hb.nextPacket defer true now
    have howing := h.nextPacket hb defer true now
    rw [hrun] at hsound howing
    obtain ⟨hlist, hall, hnone⟩ := ih howing hsound hrest
    simp only [drain, List.length_cons, hrun, List.map_cons, List.mem_cons, forall_eq_or_imp]
    exact ⟨by rw [hsequence, hlist], ⟨hagain, hall⟩, hnone⟩

/-- A request for a packet that was sent is never refused. -/
theorem Owing.queueRetransmission_accepts (hfind : b.find k = some i) :
    (b.queueRetransmission k).1 = true := by
  obtain ⟨ho, hi, -⟩ := find_eq_some hfind
  unfold SendBuffer.queueRetransmission
  rw [(Option.filter_eq_some_iff.1 hfind).1]
  simp only [hb.lined.not_dropped hi ho, ho, Bool.false_eq_true, if_false, Bool.not_true]
  split
  · rfl
  next hready =>
  simp only [Bool.or_eq_true, Bool.not_eq_true', not_or, Bool.not_eq_false,
    Bool.not_eq_true] at hready
  exact (h.pushRetransmission hb hfind hready.1 hready.2).1

/-- A marked slot is a live packet of the window. -/
theorem Owing.window_of_mark (hi : i < b.capacity) (hq : (b.slot i).retransmissionQueued = true) :
    (b.slot i).occupied = true ∧ i < b.sequenceSpan := by
  have ho : (b.slot i).occupied = true := h.marked _ hq
  exact ⟨ho, hb.lined.lt_span hi ho⟩

end

/-- What compaction leaves in the ring of drop requests. -/
theorem toList_compactDropRequestQueue (b : SendBuffer) :
    b.compactDropRequestQueue.dropRequests.toList
      = b.dropRequests.toList.filter b.dropRequestStands :=
  (RingQueue.toList_rewind _).trans (RingQueue.toList_compact ..)

theorem pushDropRequest_refuses (b : SendBuffer) (offset : Nat) :
    (b.pushDropRequest offset).1 = false ↔ b.dropRequests.toList.length = b.capacity
      ∧ ∀ k ∈ b.dropRequests.toList, b.dropRequestStands k = true := by
  have hkept := congrArg List.length b.toList_compactDropRequestQueue
  rw [RingQueue.length_toList] at hkept
  rw [← List.length_filter_eq_length_iff, ← hkept, RingQueue.length_toList]
  have hcap : b.compactDropRequestQueue.capacity = b.capacity := rfl
  unfold pushDropRequest
  by_cases hfull : b.dropRequests.size = b.capacity
  · simp only [if_pos hfull, hcap]
    split
    · next hstill => exact iff_of_true rfl ⟨hfull, hstill.trans hfull.symm⟩
    · next hroom => exact iff_of_false Bool.noConfusion fun h => hroom (h.2.trans hfull)
  · simp only [if_neg hfull]
    exact iff_of_false Bool.noConfusion fun h => hfull h.1

/-- Every marked packet has one entry or is held by the caller, every entry
that stands belongs to such a packet, no ring is larger than the window, no
request for a retransmission is refused and a drop request only while the
ring is full of entries that stand, compaction keeps the order, and calling
`next_packet` until nothing is due hands out each retransmission once. -/
theorem no_retransmission_is_lost (h : Lts.Reaches owingSystem Settles (b, owed)) :
    (∀ i < b.capacity, (b.slot i).retransmissionQueued = true →
      i < b.sequenceSpan ∧ (b.slot i).occupied = true
        ∧ (b.retransmissions.toList ++ owed).count (b.firstSequence.advanced i) = 1)
    ∧ (∀ k ∈ b.retransmissions.toList, b.retransmissionStands k = true →
      b.retransmissions.toList.count k = 1 ∧ k ∉ owed
        ∧ ∃ i, b.find k = some i ∧ (b.slot i).retransmissionQueued = true)
    ∧ b.retransmissions.toList.length ≤ b.capacity
    ∧ b.dropRequests.toList.length ≤ b.capacity
    ∧ (∀ offset, (b.pushDropRequest offset).1 = false
      ↔ b.dropRequests.toList.length = b.capacity
        ∧ ∀ k ∈ b.dropRequests.toList, b.dropRequestStands k = true)
    ∧ (∀ k i, b.find k = some i → (b.queueRetransmission k).1 = true)
    ∧ b.compactRetransmissionQueue.retransmissions.toList
      = b.retransmissions.toList.filter b.retransmissionStands
    ∧ b.compactDropRequestQueue.dropRequests.toList
      = b.dropRequests.toList.filter b.dropRequestStands
    ∧ b.due.Nodup
    ∧ (∀ k, k ∈ b.due ↔ b.retransmissionStands k = true ∧ k ∉ owed)
    ∧ ∀ defer now,
      (drain defer now b.due.length b).1.map (·.header.sequence) = b.due
        ∧ (∀ packet ∈ (drain defer now b.due.length b).1, packet.header.retransmitted = true)
        ∧ (drain defer now b.due.length b).2.due = [] := by
  obtain ⟨hb, howing⟩ : b.Sound ∧ Owing b owed := owing_of_reaches h
  have hcap : b.sequenceSpan ≤ b.capacity := hb.lined.span_le
  refine ⟨fun i hi hq => ?_, fun k hk hstands => ?_, ?_, ?_, b.pushDropRequest_refuses,
    fun k i hfind => howing.queueRetransmission_accepts hb hfind, RingQueue.toList_compact ..,
    b.toList_compactDropRequestQueue, howing.nodup_due, howing.mem_due,
    fun defer now => howing.drain_due hb defer now⟩
  · obtain ⟨ho, hlt⟩ := howing.window_of_mark hb hi hq
    have hfind := find_of_offset (offsetOf_advanced hcap hlt) ho
    have hstands := (retransmissionStands_of_find hfind).trans hq
    have hcount := howing.tally _ (retainsPacket_of_stands hstands)
    rw [if_pos hstands] at hcount
    exact ⟨hlt, ho, hcount⟩
  · have hdue : k ∈ b.due := List.mem_filter.2 ⟨hk, hstands⟩
    have hout := ((howing.mem_due k).1 hdue).2
    have hcount := howing.tally k (retainsPacket_of_stands hstands)
    rw [if_pos hstands, List.count_append, List.count_eq_zero_of_not_mem hout] at hcount
    obtain ⟨i, hi, ho, hq⟩ := retransmissionStands_iff.1 hstands
    exact ⟨hcount, hout, i, find_of_offset hi ho, hq⟩
  · rw [RingQueue.length_toList, ← howing.room]
    exact b.retransmissions.size_le
  · rw [RingQueue.length_toList, ← howing.drops]
    exact b.dropRequests.size_le

instance (b c : SendBuffer) (owed : List SequenceNumber) : Decidable (Fresh b c owed) :=
  Nat.decidableLoHi _ _ _

instance (s : SendBuffer × List SequenceNumber) : ∀ op, Decidable (Settles s op)
  | .requeuePreparedRetransmission sequence => inferInstanceAs (Decidable (sequence ∈ s.2))
  | .noteRetransmissionSent sequence _ => inferInstanceAs (Decidable (sequence ∈ s.2))
  | .enqueueMessage message f =>
    inferInstanceAs (Decidable (Fresh s.1 (s.1.enqueueMessage message f).2 s.2))
  | .enqueueStream bytes f =>
    inferInstanceAs (Decidable (Fresh s.1 (s.1.enqueueStream bytes f).2 s.2))
  | .synchronizeEmpty _ | .nextPacket .. | .peekRetransmissionPacket
  | .preserveProtectedPayload .. | .notePacketSubmitted _ | .acknowledgeSubmittedBefore _
  | .acknowledgeBefore _ | .requestRetransmission .. | .requestRetransmissionOfLastSent
  | .requestRetransmissionOfAllSent | .nextPendingDropRequest | .hasPendingDropRequest
  | .queueRetainedDropRequests | .releaseRetiredPrefix | .compactRetransmissionQueue
  | .queueRangeDropRequests _ | .dropMessagesOlderThan _ | .dropExpiredMessage _ =>
    inferInstanceAs (Decidable True)

/-- Three packets are asked for again; one of them is with the caller, one
was put back behind the third. -/
def heldRun : SendBuffer × List SequenceNumber :=
  [.enqueueMessage [1, 2, 3, 4, 5] { messageNumber := 1 }, .nextPacket false true 0,
    .nextPacket false true 0, .nextPacket false true 0,
    .requestRetransmission ⟨.ofNat (2 ^ 31 - 1), .ofNat 1⟩ 1 0, .nextPacket true true 1,
    .requeuePreparedRetransmission (.ofNat (2 ^ 31 - 1)), .nextPacket true true 2].foldl
      (fun s op => (s.1.apply op, s.1.owes s.2 op)) (exampleSender, [])

theorem no_retransmission_is_lost_heldRun :
    heldRun.2 = [.ofNat 0] ∧ heldRun.1.due = [.ofNat 1, .ofNat (2 ^ 31 - 1)]
      ∧ (drain false 3 heldRun.1.due.length heldRun.1).1.map (·.header.sequence)
        = [.ofNat 1, .ofNat (2 ^ 31 - 1)] := by
  have hmake : make (.ofNat (2 ^ 31 - 1)) 4 2 = some exampleSender := (Option.some_get _).symm
  have hstart : Lts.Reaches owingSystem Settles (exampleSender, []) :=
    .start ⟨⟨_, _, _, hmake⟩, rfl⟩
  have hreaches : Lts.Reaches owingSystem Settles (heldRun.1, heldRun.2) :=
    hstart.foldl (by decide +kernel)
  have hdue : heldRun.1.due = [.ofNat 1, .ofNat (2 ^ 31 - 1)] := by decide +kernel
  obtain ⟨-, -, -, -, -, -, -, -, -, -, hdrain⟩ := no_retransmission_is_lost hreaches
  exact ⟨by decide +kernel, hdue, (hdrain false 3).1.trans hdue⟩

/-- The caller holds nothing back: it never defers, and so it has nothing to
note as sent or to put back. -/
def HoldsNothing (_ : SendBuffer) : Op → Bool
  | .nextPacket defer _ _ => !defer
  | .requeuePreparedRetransmission _ => false
  | .noteRetransmissionSent .. => false
  | _ => true

/-- Number 0 is requested and acknowledged, the empty buffer is set back to
it, and it is requested again. -/
def reusedNumberRun : SendBuffer :=
  [.enqueueMessage [1] { messageNumber := 1 }, .nextPacket false true 0,
    .requestRetransmission ⟨.ofNat 0, .ofNat 0⟩ 0 0, .acknowledgeBefore (.ofNat 1),
    .synchronizeEmpty (.ofNat 0), .enqueueMessage [2] { messageNumber := 2 },
    .enqueueMessage [3] { messageNumber := 3 }, .nextPacket false false 1,
    .nextPacket false false 1, .requestRetransmission ⟨.ofNat 0, .ofNat 0⟩ 1 0].foldl apply
      ((make (.ofNat 0) 2 2).get (by decide))

/-- The entry of the first life of number 0 counts again: the packet has two
entries, they fill the ring, and the request for the next packet is refused. -/
theorem reused_number_has_two_entries :
    Lts.Reaches system (fun b op => HoldsNothing b op = true) reusedNumberRun
      ∧ (reusedNumberRun.slot 0).retransmissionQueued = true
      ∧ reusedNumberRun.firstSequence = .ofNat 0
      ∧ reusedNumberRun.retransmissions.toList = [.ofNat 0, .ofNat 0]
      ∧ reusedNumberRun.find (.ofNat 1) = some 1 ∧ (reusedNumberRun.slot 1).sent = true
      ∧ (reusedNumberRun.requestRetransmission ⟨.ofNat 1, .ofNat 1⟩ 2 0).1
        = .error (.invalidControlPayload, {}) := by
  have hstart : Lts.Reaches system (fun b op => HoldsNothing b op = true)
      ((make (.ofNat 0) 2 2).get (by decide)) :=
    .start ⟨.ofNat 0, 2, 2, (Option.some_get _).symm⟩
  exact ⟨hstart.foldl (by decide +kernel), by decide +kernel, by decide +kernel,
    by decide +kernel, by decide +kernel, by decide +kernel, by decide +kernel⟩

end SendBuffer

end Srt
