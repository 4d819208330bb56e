/-
# `SendRing` — the ring of retransmissions

The ring holds the sequence numbers that are to be sent again.  Entries are
not removed when their packet is acknowledged or dropped, so the ring is a
queue with stale entries: an entry counts while its packet is retained and
marked (`retransmissionStands`).  A retransmission that the caller has taken
with `defer` keeps its mark and has left the ring; it is owed until the
caller notes it as sent or puts it back (`Owing`).

The count of entries and owed packets follows the marks along every
operation, as long as the caller settles only what it owes and no packet is
enqueued under a number that still has an entry (`Settles`).
-/
import Srt.Lib.FlagQueue
import Srt.Reliability.SendMessages
import Srt.Reliability.SendMoves

namespace Srt

open List

namespace SendBuffer

variable {b c : SendBuffer}

/-! ## The window by sequence number -/

variable {i : Nat}

variable {k : SequenceNumber}

theorem retainsPacket_iff : b.retainsPacket k = true
    ↔ ∃ i, b.offsetOf k = some i ∧ (b.slot i).occupied = true := by
  unfold retainsPacket find
  cases b.offsetOf k with
  | none => simp
  | some i => cases ho : (b.slot i).occupied <;> simp [ho]

theorem retransmissionStands_iff : b.retransmissionStands k = true
    ↔ ∃ i, b.offsetOf k = some i ∧ (b.slot i).occupied = true
      ∧ (b.slot i).retransmissionQueued = true := by
  unfold retransmissionStands find
  cases b.offsetOf k with
  | none => simp
  | some i => cases ho : (b.slot i).occupied <;> simp [ho]

theorem retransmissionStands_of_find (h : b.find k = some i) :
    b.retransmissionStands k = (b.slot i).retransmissionQueued := by
  unfold retransmissionStands
  rw [h]
  rfl

theorem find_of_offset (hi : b.offsetOf k = some i)
    (ho : (b.slot i).occupied = true) : b.find k = some i := by
  unfold find
  rw [hi]
  exact Option.filter_eq_some_iff.2 ⟨rfl, ho⟩

theorem retainsPacket_of_stands (h : b.retransmissionStands k = true) :
    b.retainsPacket k = true := by
  obtain ⟨i, hoffset, ho, -⟩ := retransmissionStands_iff.1 h
  exact retainsPacket_iff.2 ⟨i, hoffset, ho⟩

variable {s : SendSlot}

theorem kept_preserveProtectedPayload (b : SendBuffer) (sequence : SequenceNumber)
    (key : EncryptionKey) (mode : CryptoMode) (payload : Bytes) :
    Kept b (b.preserveProtectedPayload sequence key mode payload).2 := by
  unfold preserveProtectedPayload
  split
  · simp only
    split
    · exact .refl b
    split
    · exact .refl b
    split
    · exact .refl b
    split
    · split <;> exact .refl b
    · exact .of_set rfl rfl rfl rfl rfl (fun ho => ⟨ho, rfl, id⟩) id
  · exact .refl b

/-! ## What is owed -/

/-- A packet that is retained has one entry or is owed once if it is marked,
and neither if it is not. -/
structure Owing (b : SendBuffer) (owed : List SequenceNumber) : Prop where
  tally : FlagQueue.Tally b.retainsPacket b.retransmissionStands
    (b.retransmissions.toList ++ owed)
  room : b.retransmissions.capacity = b.capacity
  drops : b.dropRequests.capacity = b.capacity
  marked : Marked b.slots
  sent : ∀ k i, b.offsetOf k = some i → (b.slot i).occupied = true →
    (b.slot i).retransmissionQueued = true → (b.slot i).sent = true

variable {owed : List SequenceNumber}

theorem Owing.kept (h : Owing b owed) (hkept : Kept b c) : Owing c owed := by
  refine ⟨?_, ?_, ?_, hkept.marked h.marked, fun k j hj ho hq => ?_⟩
  · rw [hkept.ring]
    refine h.tally.mono fun k hk => ?_
    obtain ⟨j, hj, ho⟩ := retainsPacket_iff.1 hk
    obtain ⟨i, hi, ho', hq, -⟩ := hkept.slots k j hj ho
    refine ⟨retainsPacket_iff.2 ⟨i, hi, ho'⟩, ?_⟩
    rw [retransmissionStands_of_find (find_of_offset hj ho),
      retransmissionStands_of_find (find_of_offset hi ho'), hq]
  · rw [hkept.ring, hkept.capacity]
    exact h.room
  · rw [hkept.drops, hkept.capacity]
    exact h.drops
  obtain ⟨i, hi, ho', hq', hs⟩ := hkept.slots k j hj ho
  exact hs (h.sent k i hi ho' (hq'.symm.trans hq))

theorem Owing.of_ring {entries : List SequenceNumber} (h : Owing b owed)
    (hring : c.retransmissions.capacity = b.retransmissions.capacity)
    (hdrops : c.dropRequests = b.dropRequests) (hslots : c.slots = b.slots)
    (hspan : c.sequenceSpan = b.sequenceSpan) (hfirst : c.firstSequence = b.firstSequence)
    (htally : FlagQueue.Tally b.retainsPacket b.retransmissionStands
      (c.retransmissions.toList ++ entries)) : Owing c entries := by
  have hoffset := offsetOf_congr hspan hfirst
  have hslot : ∀ i, c.slot i = b.slot i := fun i => by
    unfold slot
    rw [hslots]
  have hfind : ∀ k, c.find k = b.find k := fun k => by
    unfold find
    simp only [hoffset, hslot]
  have hcap : c.capacity = b.capacity := by
    unfold SendBuffer.capacity
    rw [hslots]
  refine ⟨?_, ?_, ?_, hslots ▸ h.marked, fun k i hi ho hq => ?_⟩
  · refine htally.mono fun k hk => ?_
    unfold retainsPacket retransmissionStands at *
    simp only [hfind, hslot] at hk ⊢
    exact ⟨hk, trivial⟩
  · rw [hring, h.room, hcap]
  · rw [hdrops, h.drops, hcap]
  rw [hslot] at ho hq ⊢
  exact h.sent k i (hoffset k ▸ hi) ho hq

theorem Owing.compactRetransmissionQueue (h : Owing b owed) :
    Owing b.compactRetransmissionQueue owed := by
  refine h.of_ring (RingQueue.capacity_compact ..) rfl rfl rfl rfl ?_
  show FlagQueue.Tally _ _ ((b.retransmissions.compact b.retransmissionStands).toList ++ owed)
  rw [RingQueue.toList_compact]
  exact h.tally.filter

/-- The mark of one packet of the window is written. -/
theorem stands_setMark (hcap : b.sequenceSpan ≤ b.capacity) (hfind : b.find k = some i)
    (hslots : c.slots = b.slots.set i s) (hspan : c.sequenceSpan = b.sequenceSpan)
    (hfirst : c.firstSequence = b.firstSequence) (ho : s.occupied = true) :
    c.retransmissionStands k = s.retransmissionQueued
      ∧ (∀ j ≠ k, c.retransmissionStands j = b.retransmissionStands j)
      ∧ ∀ j, c.retainsPacket j = b.retainsPacket j := by
  obtain ⟨ho', hi, hk⟩ := find_eq_some hfind
  have hoffset := offsetOf_congr hspan hfirst
  have hself : c.slot i = s := by
    unfold slot
    rw [hslots, SlotRing.get_set_self]
  have hne : ∀ j < b.sequenceSpan, j ≠ i → c.slot j = b.slot j := fun j hj hji => by
    unfold slot
    rw [hslots, b.slots.get_set_ne (hi.trans_le hcap) (hj.trans_le hcap) hji]
  have hother : ∀ j ≠ k, c.find j = b.find j
      ∧ c.retransmissionStands j = b.retransmissionStands j := fun j hj => by
    unfold retransmissionStands find
    rw [hoffset]
    cases hm : b.offsetOf j with
    | none => exact ⟨rfl, rfl⟩
    | some m =>
      obtain ⟨hlt, hjm⟩ := offsetOf_eq_some hm
      have hmi : m ≠ i := fun heq => hj (by rw [hjm, hk, heq])
      cases hom : (b.slot m).occupied <;> simp [Option.filter, hne m hlt hmi, hom]
  have hfound : c.find k = some i := by
    refine find_of_offset ?_ (hself ▸ ho)
    rw [hoffset, hk]
    exact offsetOf_advanced hcap hi
  refine ⟨?_, fun j hj => (hother j hj).2, fun j => ?_⟩
  · rw [retransmissionStands_of_find hfound, hself]
  unfold retainsPacket
  by_cases hj : j = k
  · rw [hj, hfound, hfind]
  · rw [(hother j hj).1]

/-- The mark of a packet is written together with the ring. -/
theorem Owing.setMark {entries : List SequenceNumber} (h : Owing b owed)
    (hcap : b.sequenceSpan ≤ b.capacity) (hfind : b.find k = some i)
    (hring : c.retransmissions.capacity = b.retransmissions.capacity)
    (hdrops : c.dropRequests = b.dropRequests) (hslots : c.slots = b.slots.set i s)
    (hspan : c.sequenceSpan = b.sequenceSpan) (hfirst : c.firstSequence = b.firstSequence)
    (ho : s.occupied = true) (hs : s.retransmissionQueued = true → s.sent = true)
    (htally : FlagQueue.Tally b.retainsPacket c.retransmissionStands (c.retransmissions.toList ++
      entries)) : Owing c entries := by
  obtain ⟨-, hother, hretains⟩ := stands_setMark hcap hfind hslots hspan hfirst ho
  obtain ⟨-, hi, hk⟩ := find_eq_some hfind
  have hcap' : c.capacity = b.capacity := by
    unfold SendBuffer.capacity
    rw [hslots]
    rfl
  refine ⟨htally.mono fun j hj => ⟨hretains j ▸ hj, rfl⟩, ?_, ?_,
    hslots ▸ h.marked.set fun _ => ho, fun j m hm hom hq => ?_⟩
  · rw [hring, h.room, hcap']
  · rw [hdrops, h.drops, hcap']
  rw [offsetOf_congr hspan hfirst] at hm
  have hlt := (offsetOf_eq_some hm).1
  unfold slot at hom hq ⊢
  rw [hslots] at hom hq ⊢
  by_cases hmi : m = i
  · subst hmi
    rw [SlotRing.get_set_self] at hq ⊢
    exact hs hq
  rw [b.slots.get_set_ne (hi.trans_le hcap) (hlt.trans_le hcap) hmi] at hom hq ⊢
  exact h.sent j m hm hom hq

/-- The entries that stand are numbers of the window. -/
theorem mem_window_of_stands (h : b.retransmissionStands k = true) :
    k ∈ (range b.sequenceSpan).map b.firstSequence.advanced := by
  obtain ⟨i, hi, -, -⟩ := retransmissionStands_iff.1 h
  obtain ⟨hlt, hk⟩ := offsetOf_eq_some hi
  exact mem_map.2 ⟨i, mem_range.2 hlt, hk.symm⟩

/-- After a compaction there is room for a packet that is not marked. -/
theorem Owing.room_of_compact (h : Owing b owed) (hb : b.Sound)
    (hfind : b.find k = some i) (hq : (b.slot i).retransmissionQueued = false) :
    b.compactRetransmissionQueue.retransmissions.size < b.capacity := by
  have hcap : b.sequenceSpan ≤ b.capacity := hb.lined.span_le
  obtain ⟨-, hi, hk⟩ := find_eq_some hfind
  have hlt := h.tally.length_filter_lt (k := k) (fun _ => retainsPacket_of_stands)
    (fun _ => mem_window_of_stands) (mem_map.2 ⟨i, mem_range.2 hi, hk.symm⟩)
    ((retransmissionStands_of_find hfind).trans hq)
  rw [← RingQueue.toList_compact, RingQueue.length_toList, length_map, length_range] at hlt
  exact hlt.trans_le hcap

/-- A full ring makes room, so a request is never refused; the entries that
stand keep their order and the new one comes last. -/
theorem Owing.pushRetransmission (h : Owing b owed) (hb : b.Sound) (hfind : b.find k = some i)
    (hs : (b.slot i).sent = true) (hq : (b.slot i).retransmissionQueued = false) :
    (b.pushRetransmission k i).1 = true ∧ Owing (b.pushRetransmission k i).2 owed := by
  have hcap : b.sequenceSpan ≤ b.capacity := hb.lined.span_le
  have hroom := h.room_of_compact hb hfind hq
  have hcompact : ∃ c, c = (if b.retransmissions.size = b.capacity then
      b.compactRetransmissionQueue else b) ∧ Owing c owed ∧ c.retransmissions.size < c.capacity
      ∧ c.capacity = b.capacity ∧ c.sequenceSpan = b.sequenceSpan ∧ c.find k = some i
      ∧ c.slot i = b.slot i := by
    refine ⟨_, rfl, ?_⟩
    split
    · exact ⟨h.compactRetransmissionQueue, hroom, rfl, rfl, hfind, rfl⟩
    next hfull =>
    have hle := b.retransmissions.size_le
    have hcapacity : b.retransmissions.ring.capacity = b.capacity := h.room
    exact ⟨h, by omega, rfl, rfl, hfind, rfl⟩
  obtain ⟨c, hc, howing, hsize, hcapacity, hspan, hfound, hslot⟩ := hcompact
  have hcap' : c.sequenceSpan ≤ c.capacity := by
    rw [hspan, hcapacity]
    exact hcap
  unfold SendBuffer.pushRetransmission
  rw [← hc]
  simp only
  rw [if_neg (Nat.ne_of_lt hsize)]
  have hout := find_eq_some hfound
  refine ⟨rfl, howing.setMark hcap' hfound (RingQueue.capacity_push ..) rfl rfl rfl rfl hout.1
    (fun _ => by rw [hslot]; exact hs) ?_⟩
  obtain ⟨hself, hother, -⟩ := stands_setMark (s := { c.slot i with retransmissionQueued := true })
    (c := { c with retransmissions := c.retransmissions.push k }.setSlot i
      { c.slot i with retransmissionQueued := true }) hcap' hfound rfl rfl rfl hout.1
  show FlagQueue.Tally _ _ ((c.retransmissions.push k).toList ++ owed)
  rw [RingQueue.toList_push _ _ (by rw [howing.room]; exact hsize)]
  refine (howing.tally.put (k := k) ?_ hself hother).perm ?_
  · rw [retransmissionStands_of_find hfound, hslot]
    exact hq
  rw [append_assoc, singleton_append]
  exact perm_middle.symm

theorem Owing.queueRetransmission (h : Owing b owed) (hb : b.Sound) (k : SequenceNumber) :
    Owing (b.queueRetransmission k).2 owed := by
  unfold SendBuffer.queueRetransmission
  split
  · exact h
  next i hi =>
  split
  · exact h.kept (b.rests_queueDropRequest k).kept
  split
  · exact h
  next ho =>
  split
  · exact h
  next hready =>
  simp only [Bool.or_eq_true, Bool.not_eq_true', not_or, Bool.not_eq_false,
    Bool.not_eq_true] at ho hready
  exact (h.pushRetransmission hb (find_of_offset hi ho) hready.1 hready.2).2

/-! ## Taking from the ring -/

/-- The ring without its first entries, which are all stale. -/
structure Skipped (b c : SendBuffer) (rest : List SequenceNumber) : Prop where
  same : ∃ r, c = { b with retransmissions := r }
  capacity : c.retransmissions.capacity = b.retransmissions.capacity
  entries : ∃ stale, b.retransmissions.toList = stale ++ rest
    ∧ ∀ k ∈ stale, b.retransmissionStands k = false
  left : c.retransmissions.toList = rest

theorem Skipped.refl (b : SendBuffer) : Skipped b b b.retransmissions.toList :=
  ⟨⟨_, rfl⟩, rfl, ⟨[], rfl, by simp⟩, rfl⟩

variable {rest : List SequenceNumber}

theorem Skipped.tail (h : Skipped b c (k :: rest)) (hstale : b.retransmissionStands k = false) :
    Skipped b { c with retransmissions := c.retransmissions.tail } rest := by
  obtain ⟨⟨r, rfl⟩, hcap, ⟨stale, hentries, hall⟩, hleft⟩ := h
  refine ⟨⟨_, rfl⟩, hcap, ⟨stale ++ [k], ?_, fun j hj => ?_⟩, ?_⟩
  · rw [hentries, append_assoc, singleton_append]
  · rcases mem_append.1 hj with hj | hj
    · exact hall j hj
    rw [mem_singleton.1 hj]
    exact hstale
  show r.tail.toList = rest
  rw [RingQueue.toList_tail]
  exact congrArg tail hleft

section

variable (h : Skipped b c rest)
include h

theorem Skipped.find (k : SequenceNumber) : c.find k = b.find k := by
  obtain ⟨⟨r, rfl⟩, -, -, -⟩ := h
  rfl

theorem Skipped.slot (i : Nat) : c.slot i = b.slot i := by
  obtain ⟨⟨r, rfl⟩, -, -, -⟩ := h
  rfl

theorem Skipped.front : c.retransmissions.front = rest.head? := by
  rw [RingQueue.front_eq, h.left]

theorem Skipped.filter : b.retransmissions.toList.filter b.retransmissionStands
      = rest.filter b.retransmissionStands := by
  obtain ⟨-, -, ⟨stale, hentries, hall⟩, -⟩ := h
  rw [hentries, filter_append, filter_eq_nil_iff.2 fun k hk => by simp [hall k hk], nil_append]

theorem Skipped.owing (hb : Owing b owed) : Owing c owed := by
  obtain ⟨⟨r, rfl⟩, hcap, ⟨stale, hentries, hall⟩, hleft⟩ := h
  refine hb.of_ring hcap rfl rfl rfl rfl ?_
  have htally := hb.tally
  rw [hentries, append_assoc] at htally
  rw [hleft]
  exact htally.skips hall

end

theorem stale_of_find_none (h : b.find k = none) : b.retransmissionStands k = false := by
  unfold retransmissionStands
  rw [h]
  rfl

/-- What the first loop of `next_packet` returns: the first entry that
stands, or nothing when none does. -/
inductive Retransmits (defer : Bool) (b : SendBuffer) : Option OutboundPacket × SendBuffer → Prop
  | none {c : SendBuffer} (h : Skipped b c []) : Retransmits defer b (none, c)
  | some {c : SendBuffer} {k : SequenceNumber} {i : Nat} {rest : List SequenceNumber}
      (h : Skipped b c (k :: rest)) (hfind : b.find k = some i)
      (hq : (b.slot i).retransmissionQueued = true) :
      Retransmits defer b (some (b.outboundAgain i),
        { c with retransmissions := c.retransmissions.tail }.setSlot i
          { b.slot i with retransmissionQueued := defer })

theorem Skipped.nextRetransmission (h : Skipped b c rest) (defer : Bool) (fuel : Nat)
    (hfuel : rest.length ≤ fuel) : Retransmits defer b (nextRetransmission defer fuel c) := by
  induction fuel generalizing c rest with
  | zero =>
    obtain rfl : rest = [] := eq_nil_of_length_eq_zero (Nat.le_zero.1 hfuel)
    exact .none h
  | succ fuel ih =>
    have hagain : ∀ i, c.outboundAgain i = b.outboundAgain i := by
      obtain ⟨⟨r, rfl⟩, -, -, -⟩ := h
      exact fun _ => rfl
    unfold SendBuffer.nextRetransmission
    rw [h.front]
    cases rest with
    | nil => exact .none h
    | cons k rest =>
      simp only [head?_cons, h.find k]
      cases hfind : b.find k with
      | none => exact ih (h.tail (stale_of_find_none hfind)) (Nat.le_of_succ_le_succ hfuel)
      | some i =>
        simp only [h.slot, hagain]
        cases hq : (b.slot i).retransmissionQueued with
        | false =>
          have hstale := (retransmissionStands_of_find hfind).trans hq
          exact ih (h.tail hstale) (Nat.le_of_succ_le_succ hfuel)
        | true => exact .some h hfind hq

theorem retransmits (defer : Bool) (b : SendBuffer) :
    Retransmits defer b (nextRetransmission defer b.retransmissions.size b) :=
  (Skipped.refl b).nextRetransmission defer _ (by rw [RingQueue.length_toList])

theorem Lined.outboundAgain_sequence (h : b.Lined 0)
    (hfind : b.find k = some i) : (b.outboundAgain i).header.sequence = k := by
  obtain ⟨-, hi, hk⟩ := find_eq_some hfind
  exact ((h.numbered i hi).1).trans hk.symm

/-- A retransmission that is taken leaves the ring; with `defer` it is owed
from then on. -/
theorem Owing.retransmits {run : Option OutboundPacket × SendBuffer} (h : Owing b owed)
    (hb : b.Sound) {defer : Bool} (hrun : Retransmits defer b run) :
    Owing run.2 (owed ++ if defer then run.1.toList.map (·.header.sequence) else []) := by
  have hcap : b.sequenceSpan ≤ b.capacity := hb.lined.span_le
  cases hrun with
  | none hskip =>
    rw [Option.toList_none, map_nil, ite_self, append_nil]
    exact hskip.owing h
  | @some c k i rest hskip hfind hq =>
    have howing := hskip.owing h
    have hleft := hskip.left
    have hseq := hb.lined.outboundAgain_sequence hfind
    have hcring := hskip.capacity
    obtain ⟨⟨r, rfl⟩, -, -, -⟩ := hskip
    obtain ⟨ho, -, -⟩ := find_eq_some hfind
    have hsent := h.sent k i (Option.filter_eq_some_iff.1 hfind).1 ho hq
    have htally := howing.tally
    rw [hleft, cons_append] at htally
    obtain ⟨hself, hother, -⟩ := stands_setMark (b := { b with retransmissions := r })
      (c := { b with retransmissions := r.tail }.setSlot i
        { b.slot i with retransmissionQueued := defer })
      (s := { b.slot i with retransmissionQueued := defer }) hcap hfind rfl rfl rfl ho
    refine howing.setMark (s := { b.slot i with retransmissionQueued := defer }) hcap hfind
      rfl rfl rfl rfl rfl ho (fun _ => hsent) ?_
    show FlagQueue.Tally _ _ (r.tail.toList ++ _)
    rw [RingQueue.toList_tail, show r.toList.tail = rest from congrArg tail hleft]
    cases defer with
    | false =>
      rw [if_neg Bool.false_ne_true, append_nil]
      exact htally.take hself hother
    | true =>
      -- the mark stays, so the entry moves from the ring to what is owed
      rw [if_pos rfl, Option.toList_some, map_singleton, hseq, ← append_assoc]
      have hmark : ({ b with retransmissions := r.tail }.setSlot i
          { b.slot i with retransmissionQueued := true }).retransmissionStands
          = ({ b with retransmissions := r }).retransmissionStands := by
        funext j
        by_cases hj : j = k
        · rw [hj, hself]
          exact ((retransmissionStands_of_find hfind).trans hq).symm
        · exact hother j hj
      rw [hmark]
      exact htally.perm (perm_append_singleton k _).symm

theorem Owing.nextPacket (h : Owing b owed) (hb : b.Sound) (defer allow : Bool) (now : Nat) :
    Owing (b.nextPacket defer allow now).2 (owed ++ if defer && allow then
      (nextRetransmission defer b.retransmissions.size b).1.toList.map (·.header.sequence)
      else []) := by
  have hrun := h.retransmits hb (b.retransmits defer)
  unfold SendBuffer.nextPacket
  cases allow with
  | false =>
    rw [Bool.and_false, if_neg Bool.false_ne_true, if_neg Bool.false_ne_true, append_nil]
    exact h.kept (held_nextOriginal defer now _ b hb.lined.span_le).toKept
  | true =>
    rw [Bool.and_true, if_pos rfl]
    split
    · next heq => rw [heq] at hrun ⊢; exact hrun
    next heq =>
    have hsound := (idle_nextRetransmission defer b.retransmissions.size b).sound hb
    rw [heq] at hrun hsound ⊢
    exact hrun.kept (held_nextOriginal defer now _ _ hsound.lined.span_le).toKept

theorem Skipped.peekRetransmissionFrom (h : Skipped b c rest)
    (fuel : Nat) : ∃ rest', Skipped b (peekRetransmissionFrom fuel c).2 rest' := by
  induction fuel generalizing c rest with
  | zero => exact ⟨rest, h⟩
  | succ fuel ih =>
    unfold SendBuffer.peekRetransmissionFrom
    rw [h.front]
    cases rest with
    | nil => exact ⟨[], h⟩
    | cons k rest =>
      simp only [head?_cons, h.find k, h.slot]
      split
      · exact ⟨_, h⟩
      next hnone =>
      refine ih (h.tail ?_)
      cases hfind : b.find k with
      | none => exact stale_of_find_none hfind
      | some i =>
        rw [retransmissionStands_of_find hfind]
        rw [hfind] at hnone
        simpa [Option.filter] using hnone

theorem Owing.peekRetransmissionPacket (h : Owing b owed) :
    Owing b.peekRetransmissionPacket.2 owed := by
  obtain ⟨rest, hskip⟩ := (Skipped.refl b).peekRetransmissionFrom b.retransmissions.size
  exact hskip.owing h

/-! ## Settling what is owed -/

section

variable (h : Owing b owed) (hk : k ∈ owed)
include h hk

/-- What is owed apart from `k`. -/
theorem Owing.tally_erase : FlagQueue.Tally b.retainsPacket b.retransmissionStands
      (k :: (b.retransmissions.toList ++ owed.erase k)) := by
  refine h.tally.perm ?_
  exact ((perm_cons_erase hk).append_left _).trans perm_middle

theorem Owing.forget (hfind : b.find k = none) : Owing b (owed.erase k) :=
  h.of_ring rfl rfl rfl rfl rfl ((h.tally_erase hk).skip (stale_of_find_none hfind))

theorem Owing.marked_of_mem (hfind : b.find k = some i) :
    (b.slot i).retransmissionQueued = true := by
  obtain ⟨ho, -, -⟩ := find_eq_some hfind
  have hretained : b.retainsPacket k = true := by
    unfold retainsPacket
    rw [hfind]
    rfl
  rw [← retransmissionStands_of_find hfind]
  exact h.tally.flag_of_mem hretained (mem_append_right _ hk)

end

section

variable (h : Owing b owed) (hb : b.Sound) (hk : k ∈ owed)
include h hb hk

/-- The mark of an owed packet is cleared. -/
theorem Owing.clear (hfind : b.find k = some i) (ho : s.occupied = true)
    (hs : s.retransmissionQueued = false) : Owing (b.setSlot i s) (owed.erase k) := by
  have hcap : b.sequenceSpan ≤ b.capacity := hb.lined.span_le
  obtain ⟨hself, hother, -⟩ := stands_setMark (c := b.setSlot i s) hcap hfind rfl rfl rfl ho
  refine h.setMark hcap hfind rfl rfl rfl rfl rfl ho (fun hq => ?_) ?_
  · rw [hs] at hq
    cases hq
  · exact (h.tally_erase hk).take (hself.trans hs) hother

theorem Owing.requeuePreparedRetransmission :
    Owing (b.requeuePreparedRetransmission k) (owed.erase k) := by
  unfold SendBuffer.requeuePreparedRetransmission
  split
  · next hfind => exact h.forget hk hfind
  next i hfind =>
  have hclear := h.clear hb hk hfind (s := { b.slot i with retransmissionQueued := false })
    (find_eq_some hfind).1 rfl
  refine hclear.queueRetransmission (Idle.sound ?_ hb) k
  exact .of_set rfl rfl (.flags _ rfl fun _ => rfl) .inl

theorem Owing.noteRetransmissionSent (now : Nat) :
    Owing (b.noteRetransmissionSent k now) (owed.erase k) := by
  unfold SendBuffer.noteRetransmissionSent
  split
  · next hfind => exact h.forget hk hfind
  next i hfind =>
  obtain ⟨ho, -, -⟩ := find_eq_some hfind
  have hsent := h.sent k i (Option.filter_eq_some_iff.1 hfind).1 ho (h.marked_of_mem hk hfind)
  rw [if_pos hsent]
  exact h.clear hb hk hfind ho rfl

end

/-! ## Requests -/

theorem Owing.requestOne (h : Owing b owed) (hb : b.Sound) (now minimumRepeat : Nat)
    (k : SequenceNumber) (queued : Queued) :
    Owing (b.requestOne now minimumRepeat k queued).2 owed
      ∧ (b.requestOne now minimumRepeat k queued).2.Sound := by
  have howing := h.queueRetransmission hb k
  have hsound := (b.idle_queueRetransmission k).sound hb
  simp only [SendBuffer.requestOne]
  split
  · exact ⟨h, hb⟩
  split
  · next hrun => rw [hrun] at howing hsound; exact ⟨howing, hsound⟩
  · next hrun => rw [hrun] at howing hsound; exact ⟨howing, hsound⟩

theorem Owing.requestFrom (h : Owing b owed) (hb : b.Sound) (now minimumRepeat count : Nat)
    (k : SequenceNumber) (queued : Queued) :
    Owing (requestFrom now minimumRepeat count k queued b).2 owed := by
  induction count generalizing k queued b with
  | zero => exact h
  | succ count ih =>
    obtain ⟨howing, hsound⟩ := h.requestOne hb now minimumRepeat k queued
    unfold SendBuffer.requestFrom
    split
    · next hrun => rw [hrun] at howing; exact howing
    next hrun =>
    rw [hrun] at howing hsound
    exact ih howing hsound _ _

theorem Owing.requestRetransmission (h : Owing b owed) (hb : b.Sound) (range : SequenceRange)
    (now minimumRepeat : Nat) : Owing (b.requestRetransmission range now minimumRepeat).2 owed := by
  unfold SendBuffer.requestRetransmission
  split
  · exact h
  · exact h.requestFrom hb ..

theorem Owing.requestLastSentFrom (h : Owing b owed) (hb : b.Sound) (offset : Nat) :
    Owing (b.requestLastSentFrom offset).2 owed := by
  induction offset with
  | zero => exact h
  | succ offset ih =>
    unfold SendBuffer.requestLastSentFrom
    split
    · exact h.queueRetransmission hb _
    · exact ih

theorem Owing.requestAllSentFrom (h : Owing b owed) (hb : b.Sound) (count offset queued : Nat) :
    Owing (requestAllSentFrom count offset queued b).2 owed := by
  induction count generalizing offset queued b with
  | zero => exact h
  | succ count ih =>
    have howing := h.queueRetransmission hb (b.slot offset).header.sequence
    have hsound := (b.idle_queueRetransmission (b.slot offset).header.sequence).sound hb
    unfold SendBuffer.requestAllSentFrom
    simp only
    split
    · exact ih h hb _ _
    split
    · next hrun => rw [hrun] at howing; exact howing
    next hrun =>
    rw [hrun] at howing hsound
    exact ih howing hsound _ _

/-! ## Enqueueing -/

theorem Owing.enqueuePacket (h : Owing b owed) (f : MessageFields) (boundary : MessageBoundary)
    (payload : Bytes) (hroom : b.sequenceSpan < b.capacity)
    (hfresh : b.nextSequence ∉ b.retransmissions.toList ++ owed) :
    Owing (b.enqueuePacket f boundary payload) owed := by
  have hcap : b.sequenceSpan + 1 ≤ b.capacity := hroom
  -- a number of the longer window is an old one with its slot, or the new one
  have hwindow : ∀ k j, (b.enqueuePacket f boundary payload).offsetOf k = some j →
      (b.offsetOf k = some j ∧ (b.enqueuePacket f boundary payload).slot j = b.slot j)
        ∨ (k = b.nextSequence
          ∧ ((b.enqueuePacket f boundary payload).slot j).retransmissionQueued = false) := by
    intro k j hj
    obtain ⟨hlt, hk⟩ := offsetOf_eq_some hj
    have hle : j < b.sequenceSpan + 1 := hlt
    have hk' : k = b.firstSequence.advanced j := hk
    rcases Nat.lt_succ_iff_lt_or_eq.1 hle with hold | rfl
    · exact .inl ⟨hk' ▸ offsetOf_advanced (Nat.le_of_lt hroom) hold,
        (b.enqueuePacket_slot f boundary payload hroom).1 j hold⟩
    refine .inr ⟨hk', ?_⟩
    unfold SendBuffer.slot SendBuffer.enqueuePacket
    simp only [SlotRing.get_set_self]
  refine ⟨h.tally.born fun k hk => ?_, h.room, h.drops, h.marked.set fun _ => rfl,
    fun k j hj ho hq => ?_⟩
  · obtain ⟨j, hj, ho⟩ := retainsPacket_iff.1 hk
    have hstands := retransmissionStands_of_find (find_of_offset hj ho)
    rcases hwindow k j hj with ⟨hold, hslot⟩ | ⟨hnew, hq⟩
    · rw [hslot] at ho hstands
      exact .inl ⟨retainsPacket_iff.2 ⟨j, hold, ho⟩,
        hstands.trans (retransmissionStands_of_find (find_of_offset hold ho)).symm⟩
    · exact .inr ⟨hnew ▸ hfresh, hstands.trans hq⟩
  rcases hwindow k j hj with ⟨hold, hslot⟩ | ⟨-, hclear⟩
  · rw [hslot] at ho hq ⊢
    exact h.sent k j hold ho hq
  rw [hclear] at hq
  cases hq

theorem Owing.enqueuePackets (h : Owing b owed) (f : MessageFields) (count : Nat) (first : Bool)
    (bytes : Bytes) (hroom : b.sequenceSpan + count ≤ b.capacity)
    (hfresh : ∀ m, b.sequenceSpan ≤ m → m < b.sequenceSpan + count → b.firstSequence.advanced m ∉
      b.retransmissions.toList ++ owed) : Owing (enqueuePackets f count first bytes b) owed := by
  induction count generalizing first bytes b with
  | zero => exact h
  | succ count ih =>
    refine ih (h.enqueuePacket f _ _ (by omega) (hfresh _ le_rfl (by omega))) false _ ?_
      fun m hm hlt => ?_
    · show b.sequenceSpan + 1 + count ≤ b.capacity
      omega
    have hm' : b.sequenceSpan + 1 ≤ m := hm
    have hlt' : m < b.sequenceSpan + 1 + count := hlt
    exact hfresh m (by omega) (by omega)

theorem enqueuePackets_span (f : MessageFields) (count : Nat) (first : Bool) (bytes : Bytes)
    (b : SendBuffer) :
    (enqueuePackets f count first bytes b).sequenceSpan = b.sequenceSpan + count := by
  induction count generalizing first bytes b with
  | zero => rfl
  | succ count ih =>
    refine (ih false _ _).trans ?_
    show b.sequenceSpan + 1 + count = _
    omega

/-- The numbers given to new packets are not among the entries and what is
owed. -/
def Fresh (b c : SendBuffer) (owed : List SequenceNumber) : Prop :=
  ∀ m, b.sequenceSpan ≤ m → m < c.sequenceSpan →
    b.firstSequence.advanced m ∉ b.retransmissions.toList ++ owed

theorem Owing.enqueueMessage (h : Owing b owed) (hb : b.Sound) (message : Bytes)
    (f : MessageFields) (hfresh : Fresh b (b.enqueueMessage message f).2 owed) :
    Owing (b.enqueueMessage message f).2 owed := by
  obtain ⟨count, hroom, heq⟩ := enqueueMessage_eq hb message f
  rw [heq] at hfresh ⊢
  rw [Fresh, enqueuePackets_span] at hfresh
  exact h.enqueuePackets f _ _ _ hroom hfresh

theorem Owing.enqueueStream (h : Owing b owed) (hb : b.Sound) (bytes : Bytes)
    (f : MessageFields) (hfresh : Fresh b (b.enqueueStream bytes f).2 owed) :
    Owing (b.enqueueStream bytes f).2 owed := by
  obtain ⟨count, taken, hroom, heq⟩ := enqueueStream_eq hb bytes f
  rw [heq] at hfresh ⊢
  rw [Fresh, enqueuePackets_span] at hfresh
  exact h.enqueuePackets _ _ _ _ hroom hfresh

/-! ## Runs -/

/-- What the caller owes after an operation: a retransmission taken with
`defer`, until it is noted as sent or put back. -/
def owes (b : SendBuffer) (owed : List SequenceNumber) : Op → List SequenceNumber
  | .nextPacket defer allow _ => owed ++ if defer && allow then
      (nextRetransmission defer b.retransmissions.size b).1.toList.map (·.header.sequence)
      else []
  | .requeuePreparedRetransmission sequence => owed.erase sequence
  | .noteRetransmissionSent sequence _ => owed.erase sequence
  | _ => owed

/-- A buffer together with what its caller owes. -/
def owingSystem : Lts.System (SendBuffer × List SequenceNumber) Op :=
  .ofFun (fun s => (∃ initial capacity size, make initial capacity size = some s.1) ∧ s.2 = [])
    fun s op => (s.1.apply op, s.1.owes s.2 op)

/-- The caller settles only what it owes, and no new packet takes a number
that still has an entry. -/
def Settles (s : SendBuffer × List SequenceNumber) : Op → Prop
  | .requeuePreparedRetransmission sequence => sequence ∈ s.2
  | .noteRetransmissionSent sequence _ => sequence ∈ s.2
  | .enqueueMessage message f => Fresh s.1 (s.1.enqueueMessage message f).2 s.2
  | .enqueueStream bytes f => Fresh s.1 (s.1.enqueueStream bytes f).2 s.2
  | _ => True

theorem owing_make {initial : SequenceNumber} {n size : Nat}
    (h : make initial n size = some b) : Owing b [] := by
  unfold make at h
  split at h
  · cases h
    refine ⟨fun k hk => ?_, rfl, rfl, fun _ => id, fun k i hi => ?_⟩
    · obtain ⟨i, hi, -⟩ := retainsPacket_iff.1 hk
      exact absurd (offsetOf_eq_some hi).1 (Nat.not_lt_zero i)
    · exact absurd (offsetOf_eq_some hi).1 (Nat.not_lt_zero i)
  · cases h

theorem Owing.apply (h : Owing b owed) (hb : b.Sound) {op : Op} (hop : Settles (b, owed) op) :
    Owing (b.apply op) (b.owes owed op) := by
  fun_cases SendBuffer.apply b op with
  | case1 next => exact h.kept (held_synchronizeEmpty hb next).toKept
  | case2 message f => exact h.enqueueMessage hb message f hop
  | case3 bytes f => exact h.enqueueStream hb bytes f hop
  | case4 defer allow now => exact h.nextPacket hb defer allow now
  | case5 => exact h.peekRetransmissionPacket
  | case6 sequence => exact h.requeuePreparedRetransmission hb hop
  | case7 sequence key mode payload =>
    exact h.kept (b.kept_preserveProtectedPayload sequence key mode payload)
  | case8 sequence => exact h.kept (b.rests_notePacketSubmitted sequence).kept
  | case9 sequence => exact h.kept (held_acknowledgeSubmittedBefore hb sequence).toKept
  | case10 sequence => exact h.kept (held_acknowledgeBefore hb sequence).toKept
  | case11 range now repeatAfter => exact h.requestRetransmission hb range now repeatAfter
  | case12 sequence now => exact h.noteRetransmissionSent hb hop now
  | case13 => exact h.requestLastSentFrom hb b.sequenceSpan
  | case14 => exact h.requestAllSentFrom hb b.sequenceSpan 0 0
  | case15 => exact h.kept b.rests_nextPendingDropRequest.kept
  | case16 => exact h.kept b.rests_hasPendingDropRequest.kept
  | case17 => exact h.kept (rests_queueRetainedFrom b.sequenceSpan 0 0 b).kept
  | case18 => exact h.kept (held_releaseRetiredPrefix hb).toKept
  | case19 => exact h.compactRetransmissionQueue
  | case20 ranges => exact h.kept (b.rests_queueRangeDropRequests ranges).kept
  | case21 cutoff => exact h.kept (held_dropMessagesOlderThan hb cutoff).toKept
  | case22 now => exact h.kept (held_dropExpiredMessage hb now).toKept

theorem owing_of_reaches {s : SendBuffer × List SequenceNumber}
    (h : Lts.Reaches owingSystem Settles s) : s.1.Sound ∧ Owing s.1 s.2 := by
  refine h.invariant (I := fun s => s.1.Sound ∧ Owing s.1 s.2) ?_ ?_
  · rintro ⟨b, owed⟩ ⟨⟨initial, capacity, size, hmake⟩, hnone⟩
    obtain rfl : owed = [] := hnone
    exact ⟨sound_make hmake, owing_make hmake⟩
  rintro ⟨b, owed⟩ op _ - ⟨hsound, howing⟩ hop rfl
  exact ⟨hsound.apply op, howing.apply hsound hop⟩

end SendBuffer

end Srt
