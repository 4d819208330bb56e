/-
# `ReceiveWindow` — the receive ring as a window of positions

Proofs count packets by unbounded positions.  `Window isn A Q b F N` says
that the buffer is the window from position `F` with the acknowledgement at
position `N`: every packet sits in the slot of its own position and satisfies
`Q`, and every position that is settled, passed or acknowledged is in `A`.
The set `A` is left open on purpose: with everything in it the statement is
about the ring alone, with "was received or given up" it is about what an
acknowledgement means, with "at most the horizon" about how far it may go.

Two things move the frontier.  Passing settled slots one at a time is a
`Shifted` buffer: trimming and popping are nothing else.  The jump at the end
of a drop is the other one, and it is right only when it leaves no packet
behind.
-/
import Srt.Reliability.ReceiveStorage

namespace Srt

open ReceiveSlot

/-- Received or given up. -/
def ReceiveSlot.settled (s : ReceiveSlot) : Bool :=
  s.occupied || s.dropped

variable {s : ReceiveSlot}

theorem ReceiveSlot.settled_eq_false :
    s.settled = false ↔ s.occupied = false ∧ s.dropped = false := by
  simp [settled]

theorem ReceiveSlot.settled_of_occupied (h : s.occupied = true) : s.settled = true := by
  simp [settled, h]

theorem ReceiveSlot.settled_of_dropped (h : s.dropped = true) : s.settled = true := by
  simp [settled, h]

namespace ReceiveBuffer

variable {b c d : ReceiveBuffer}

/-! ## Passing the head slots -/

/-- `c` is `b` with its first `k` slots emptied and passed. -/
structure Shifted (b c : ReceiveBuffer) (k : Nat) : Prop where
  capacity : c.capacity = b.capacity
  le : k ≤ b.capacity
  first : c.firstStored = b.firstStored.advanced k
  ack : c.nextAck = b.nextAck
  kept : ∀ j, j + k < b.capacity → c.slot j = b.slot (j + k)
  emptied : ∀ j < b.capacity, b.capacity ≤ j + k → (c.slot j).settled = false
  payload : ∀ j, j + k < b.capacity → (b.slot (j + k)).occupied = true →
    c.payloads.get (b.slot (j + k)).payloadIndex = b.payloads.get (b.slot (j + k)).payloadIndex
  classified : c.classifiedLossPrefix = b.classifiedLossPrefix - k

theorem Shifted.refl (b : ReceiveBuffer) : Shifted b b 0 where
  capacity := rfl
  le := Nat.zero_le _
  first := by simp
  ack := rfl
  kept _ _ := rfl
  emptied j hj hk := by omega
  payload _ _ _ := rfl
  classified := by simp

variable {k : Nat}

/-- The message being discarded is not part of the window. -/
theorem Shifted.discarding (h : Shifted b c k) (message : Option Nat) :
    Shifted b { c with discardingMessage := message } k :=
  ⟨h.capacity, h.le, h.first, h.ack, h.kept, h.emptied, h.payload, h.classified⟩

theorem Shifted.trans {m : Nat} (h : Shifted b c k) (h' : Shifted c d m)
    (hle : k + m ≤ b.capacity) : Shifted b d (k + m) where
  capacity := h'.capacity.trans h.capacity
  le := hle
  first := by rw [h'.first, h.first, SequenceNumber.advanced_advanced]
  ack := h'.ack.trans h.ack
  kept j hj := by
    have hcap := h.capacity
    rw [h'.kept j (by omega), h.kept (j + m) (by omega)]
    congr 1
    omega
  emptied j hj hk := by
    have hcap := h.capacity
    by_cases hin : j + m < b.capacity
    · rw [h'.kept j (by omega)]
      exact h.emptied (j + m) hin (by omega)
    · exact h'.emptied j (by omega) (by omega)
  payload j hj ho := by
    have hcap := h.capacity
    have hslot : c.slot (j + m) = b.slot (j + (k + m)) := by
      rw [h.kept (j + m) (by omega)]
      congr 1
      omega
    have hnext := h'.payload j (by omega) (by rw [hslot]; exact ho)
    rw [hslot] at hnext
    rw [hnext]
    have hpos : j + (k + m) = j + m + k := by omega
    rw [hpos] at ho ⊢
    exact h.payload (j + m) (by omega) ho
  classified := by
    rw [h'.classified, h.classified]
    omega

theorem slot_advanceFrontier (b : ReceiveBuffer) (n j : Nat) :
    (b.advanceFrontier n).slot j = b.slot (n + j) :=
  b.slots.get_advance n j

theorem slot_add_capacity (b : ReceiveBuffer) (j : Nat) : b.slot (j + b.capacity) = b.slot j :=
  b.slots.get_add_capacity j

variable {i : Nat}

theorem slot_setSlot {j : Nat} (hi : i < b.capacity) (hj : j < b.capacity) (s : ReceiveSlot) :
    (b.setSlot i s).slot j = if j = i then s else b.slot j :=
  b.slots.get_set hi hj s

variable {n : Nat}

/-- The first `n` slots are empty and the head moves past them. -/
theorem shifted_advanceFrontier (hn : n ≤ b.capacity) (hcap : c.capacity = b.capacity)
    (hfirst : c.firstStored = b.firstStored) (hack : c.nextAck = b.nextAck)
    (hclass : c.classifiedLossPrefix = b.classifiedLossPrefix)
    (hempty : ∀ j < n, (c.slot j).settled = false)
    (hslots : ∀ j, n ≤ j → j < b.capacity → c.slot j = b.slot j)
    (hpayload : ∀ j, n ≤ j → j < b.capacity → (b.slot j).occupied = true →
      c.payloads.get (b.slot j).payloadIndex = b.payloads.get (b.slot j).payloadIndex) :
    Shifted b (c.advanceFrontier n) n where
  capacity := hcap
  le := hn
  first := by
    show c.firstStored.advanced n = _
    rw [hfirst]
  ack := hack
  kept j hj := by
    rw [slot_advanceFrontier, Nat.add_comm n j]
    exact hslots (j + n) (by omega) hj
  emptied j hj hk := by
    have hwrap : n + j = (n + j - c.capacity) + c.capacity := by omega
    rw [slot_advanceFrontier, hwrap, slot_add_capacity]
    exact hempty _ (by omega)
  payload j hj ho := hpayload (j + n) (by omega) hj ho
  classified := by
    show c.classifiedLossPrefix - min n c.classifiedLossPrefix = _
    omega

/-- Giving one packet's cell back leaves the payloads of the others. -/
theorem Stored.get_release (h : b.Stored) {j : Nat} (hi : i < b.capacity) (hj : j < b.capacity)
    (hij : j ≠ i) (hoi : (b.slot i).occupied = true) (hoj : (b.slot j).occupied = true) :
    (b.payloads.release (b.slot i).payloadIndex).get (b.slot j).payloadIndex
      = b.payloads.get (b.slot j).payloadIndex := by
  refine b.payloads.get_release_of_ne ?_
  refine h.payloadIndex_ne (b.slots.position_lt j) ?_ hoi hoj
  exact fun he => hij ((b.slots.position_inj hj hi).1 he)

theorem shifted_retireDropped (b : ReceiveBuffer) (hd : (b.slot 0).occupied = false) :
    Shifted b (b.retireHead { b.slot 0 with dropped := false }) 1 := by
  unfold retireHead
  rw [removeRejectedMessage_eq]
  have hpos : 0 < b.capacity := b.slots.capacity_pos
  refine shifted_advanceFrontier hpos rfl rfl rfl rfl ?_ ?_ (fun _ _ _ _ => rfl)
  · intro j hj
    obtain rfl := Nat.lt_one_iff.1 hj
    show (SlotRing.get (SlotRing.set b.slots 0 _) 0).settled = false
    rw [SlotRing.get_set_self]
    exact settled_eq_false.2 ⟨hd, rfl⟩
  intro j hpos' hj
  exact b.slots.get_set_ne hpos hj (by omega) _

theorem shifted_retireOccupied (h : b.Stored) (ho : (b.slot 0).occupied = true)
    (discarding : Option Nat) :
    Shifted b ({ b.releasePayload (b.slot 0) with discardingMessage := discarding }.retireHead
      { b.slot 0 with occupied := false }) 1 := by
  unfold retireHead
  rw [removeRejectedMessage_eq]
  have hpos : 0 < b.capacity := b.slots.capacity_pos
  refine shifted_advanceFrontier hpos rfl rfl rfl rfl ?_ ?_ ?_
  · intro j hj
    obtain rfl := Nat.lt_one_iff.1 hj
    show (SlotRing.get (SlotRing.set b.slots 0 _) 0).settled = false
    rw [SlotRing.get_set_self]
    exact settled_eq_false.2 ⟨rfl, (h.slot 0).exclusive ho⟩
  · intro j hpos' hj
    exact b.slots.get_set_ne hpos hj (by omega) _
  intro j hpos' hj hoj
  exact h.get_release hpos hj (by omega) ho hoj

/-- The slots that were passed were settled. -/
structure Passed (b c : ReceiveBuffer) (k : Nat) : Prop extends Shifted b c k where
  passed : ∀ j < k, (b.slot j).settled = true

theorem Passed.refl (b : ReceiveBuffer) : Passed b b 0 := ⟨.refl b, nofun⟩

/-- A slot that was passed is empty, so what follows ends in front of it. -/
theorem Passed.trans {m : Nat} (h : Passed b c k) (h' : Passed c d m) : Passed b d (k + m) := by
  have hcap := h.capacity
  have hle := h.le
  have hle' := h'.le
  have hsum : k + m ≤ b.capacity := by
    by_contra hlt
    have hlast := h.emptied (b.capacity - k) (by omega) (by omega)
    rw [h'.passed (b.capacity - k) (by omega)] at hlast
    cases hlast
  refine ⟨h.toShifted.trans h'.toShifted hsum, ?_⟩
  intro j hj
  by_cases hjk : j < k
  · exact h.passed j hjk
  have hslot := h.kept (j - k) (by omega)
  rw [Nat.sub_add_cancel (by omega)] at hslot
  rw [← hslot]
  exact h'.passed (j - k) (by omega)

/-- A rejected packet of the message is held, or the message is being
discarded: the packets of such a message are not delivered. -/
def Forfeit (b : ReceiveBuffer) (message : Nat) : Prop :=
  (∃ j < b.capacity, (b.slot j).rejectedPayload = true ∧ (b.slot j).header.messageNumber = message)
    ∨ b.discardingMessage = some message

instance (b : ReceiveBuffer) (message : Nat) : Decidable (b.Forfeit message) :=
  inferInstanceAs (Decidable (_ ∨ _))

/-- The trie knows the rejected packets. -/
theorem Stored.messageRejected_iff (h : b.Stored) (message : Nat) :
    b.messageRejected message = true ↔ ∃ j < b.capacity, (b.slot j).rejectedPayload = true
      ∧ (b.slot j).header.messageNumber = message := by
  have hrej : ∀ s : ReceiveSlot, message ∈ s.rejection
      ↔ s.rejectedPayload = true ∧ s.header.messageNumber = message := by
    intro s
    unfold rejection
    cases s.rejectedPayload with
    | false => simp
    | true => simp [eq_comm]
  unfold messageRejected
  rw [h.rejections.contains_iff]
  unfold SlotRing.total
  rw [Multiset.mem_sum]
  constructor
  · rintro ⟨p, hp, hmem⟩
    obtain ⟨i, hi, hpos⟩ := b.slots.exists_position (Finset.mem_range.1 hp)
    rw [← hpos] at hmem
    exact ⟨i, hi, (hrej (b.slot i)).1 hmem⟩
  rintro ⟨i, hi, hslot⟩
  exact ⟨b.slots.position i, Finset.mem_range.2 (b.slots.position_lt i), (hrej (b.slot i)).2 hslot⟩

/-- Passing slots rejects nothing. -/
theorem Shifted.forfeit (h : Shifted b c k) (hc : c.Stored)
    (hdiscard : ∀ m, c.discardingMessage = some m → b.Forfeit m) {message : Nat}
    (hf : c.Forfeit message) : b.Forfeit message := by
  have hcap := h.capacity
  rcases hf with ⟨j, hj, hrej, hnum⟩ | hd
  · by_cases hjk : j + k < b.capacity
    · rw [h.kept j hjk] at hrej hnum
      exact .inl ⟨j + k, hjk, hrej, hnum⟩
    have hempty := settled_eq_false.1 (h.emptied j (by omega) (by omega))
    rw [hc.rejectedPayload_of_empty hempty.1] at hrej
    cases hrej
  · exact hdiscard message hd

/-- Only forfeit messages are discarded. -/
theorem Stored.discardingAt_forfeit (h : b.Stored) {message : Nat}
    (hd : b.discardingAt s = some message) :
    message = s.header.messageNumber ∧ b.Forfeit message := by
  unfold discardingAt at hd
  dsimp only at hd
  split at hd
  · next hnew =>
    simp only [Bool.and_eq_true] at hnew
    cases hd
    exact ⟨rfl, .inl ((h.messageRejected_iff _).1 hnew.2)⟩
  obtain ⟨hold, hnum⟩ := Option.filter_eq_some_iff.1 hd
  exact ⟨by simpa using hnum, .inr hold⟩

/-- What `trim_dropped_prefix` leaves: dropped markers and packets of forfeit
messages were passed until the head is not a dropped marker. -/
structure Trimmed (b c : ReceiveBuffer) (k : Nat) : Prop extends Passed b c k where
  head : (c.slot 0).dropped = false
  forfeit : ∀ m, c.Forfeit m → b.Forfeit m
  trimmed : ∀ j < k, (b.slot j).dropped = true
    ∨ (b.slot j).occupied = true ∧ b.Forfeit (b.slot j).header.messageNumber

theorem Passed.trimmed (h : Passed b c 1) (h' : Trimmed c d k) (hf : ∀ m, c.Forfeit m → b.Forfeit m)
    (hhead : (b.slot 0).dropped = true ∨ (b.slot 0).occupied = true ∧ b.Forfeit (b.slot
      0).header.messageNumber) : Trimmed b d (1 + k) := by
  have hall := h.trans h'.toPassed
  refine ⟨hall, h'.head, fun m hm => hf m (h'.forfeit m hm), ?_⟩
  intro j hj
  cases j with
  | zero => exact hhead
  | succ j =>
    have hle := hall.le
    rw [← h.kept j (by omega)]
    exact (h'.trimmed j (by omega)).imp_right (And.imp_right (hf _))

theorem trimmed_refl (hd : (b.slot 0).dropped = false) : Trimmed b b 0 :=
  ⟨.refl b, hd, fun _ => id, nofun⟩

theorem trimDroppedPrefixFrom_spec {fuel : Nat} (h : b.Stored)
    (hfuel : b.capacity ≤ fuel ∨ ∃ j ≤ fuel, j < b.capacity ∧ (b.slot j).settled = false) :
    ∃ k, Trimmed b (b.trimDroppedPrefixFrom fuel) k := by
  induction fuel generalizing b with
  | zero =>
    have hpos : 0 < b.capacity := b.slots.capacity_pos
    rcases hfuel with hfuel | ⟨j, hj, -, hslot⟩
    · omega
    obtain rfl : j = 0 := by omega
    exact ⟨0, trimmed_refl (settled_eq_false.1 hslot).2⟩
  | succ fuel ih =>
    have hpos : 0 < b.capacity := b.slots.capacity_pos
    -- Once the head is passed, its slot is the empty one at the end.
    have hnext : ∀ c, Shifted b c 1 → (b.slot 0).settled = true →
        c.capacity ≤ fuel ∨ ∃ j ≤ fuel, j < c.capacity ∧ (c.slot j).settled = false := by
      intro c hc hhead
      have hcap := hc.capacity
      rcases hfuel with hfuel | ⟨j, hj, hjcap, hslot⟩
      · exact .inr ⟨b.capacity - 1, by omega, by omega,
          hc.emptied (b.capacity - 1) (by omega) (by omega)⟩
      cases j with
      | zero =>
        rw [hhead] at hslot
        cases hslot
      | succ j =>
        refine .inr ⟨j, by omega, by omega, ?_⟩
        rw [hc.kept j hjcap]
        exact hslot
    have hhead : (b.slot 0).settled = true → ∀ j < 1, (b.slot j).settled = true := by
      intro hs j hj
      rwa [Nat.lt_one_iff.1 hj]
    unfold trimDroppedPrefixFrom
    dsimp only
    split
    · next hd =>
      have hempty : (b.slot 0).occupied = false := by
        cases ho : (b.slot 0).occupied with
        | false => rfl
        | true =>
          rw [(h.slot 0).exclusive ho] at hd
          cases hd
      have hsettled := settled_of_dropped hd
      have hone := shifted_retireDropped b hempty
      obtain ⟨k, hk⟩ := ih (h.retireDropped hd) (hnext _ hone hsettled)
      refine ⟨1 + k, Passed.trimmed ⟨hone, hhead hsettled⟩ hk ?_ (.inl hd)⟩
      intro m hm
      refine hone.forfeit (h.retireDropped hd) ?_ hm
      intro m' hm'
      unfold retireHead at hm'
      rw [removeRejectedMessage_eq] at hm'
      exact .inr hm'
    next hd =>
    have hd : (b.slot 0).dropped = false := by simpa using hd
    split
    · exact ⟨0, trimmed_refl hd⟩
    next ho =>
    have ho : (b.slot 0).occupied = true := by simpa using ho
    have hsettled := settled_of_occupied ho
    split
    · refine ⟨0, ⟨⟨(Shifted.refl b).discarding _, by simp⟩, hd, ?_, by simp⟩⟩
      intro m hm
      rcases hm with hrej | hdiscard
      · exact .inl hrej
      · exact (h.discardingAt_forfeit hdiscard).2
    next hgo =>
    obtain ⟨message, hsome⟩ : ∃ message, b.discardingAt (b.slot 0) = some message := by
      cases hnone : b.discardingAt (b.slot 0) with
      | none => exact absurd (by simp [hnone]) hgo
      | some message => exact ⟨message, rfl⟩
    obtain ⟨hnumber, hforfeit⟩ := h.discardingAt_forfeit hsome
    have hdone : ∀ discarding c, (∀ m, discarding = some m → b.Forfeit m) →
        c = ({ b.releasePayload (b.slot 0) with
          discardingMessage := discarding } : ReceiveBuffer).retireHead
            { b.slot 0 with occupied := false } →
        ∃ k, Trimmed b (c.trimDroppedPrefixFrom fuel) k := by
      rintro discarding c hdiscard rfl
      have hone := shifted_retireOccupied h ho discarding
      have hstored := h.retireOccupied ho discarding
      obtain ⟨k, hk⟩ := ih hstored (hnext _ hone hsettled)
      refine ⟨1 + k, Passed.trimmed ⟨hone, hhead hsettled⟩ hk ?_ (.inr ⟨ho, hnumber ▸ hforfeit⟩)⟩
      intro m hm
      refine hone.forfeit hstored ?_ hm
      intro m' hm'
      unfold retireHead at hm'
      rw [removeRejectedMessage_eq] at hm'
      exact hdiscard m' hm'
    split
    · exact hdone none _ (by simp) rfl
    refine hdone _ _ ?_ rfl
    intro m hm
    exact (h.discardingAt_forfeit hm).2

theorem trimDroppedPrefix_spec (h : b.Stored) : ∃ k, Trimmed b b.trimDroppedPrefix k :=
  trimDroppedPrefixFrom_spec h (.inl le_rfl)

/-! ## Pops -/

/-- Delivering `n` packets from offset `i` on: their slots are empty, nothing
else moved, and the bytes are theirs in order. -/
structure Delivered (b c : ReceiveBuffer) (i n : Nat) (bytes : Bytes) : Prop where
  capacity : c.capacity = b.capacity
  first : c.firstStored = b.firstStored
  ack : c.nextAck = b.nextAck
  classified : c.classifiedLossPrefix = b.classifiedLossPrefix
  rejected : c.rejectedMessages = b.rejectedMessages
  discarding : c.discardingMessage = b.discardingMessage
  emptied : ∀ j, i ≤ j → j < i + n → (c.slot j).settled = false
  kept : ∀ j < b.capacity, ¬ (i ≤ j ∧ j < i + n) → c.slot j = b.slot j
  payload : ∀ j < b.capacity, ¬ (i ≤ j ∧ j < i + n) → (b.slot j).occupied = true →
    c.payloads.get (b.slot j).payloadIndex = b.payloads.get (b.slot j).payloadIndex
  bytes : bytes = (List.range' i n).flatMap b.payloadOf

theorem Delivered.cons {bytes : Bytes} (h : b.Stored)
    (hread : (b.slot i).readable = true) (hn : i + (n + 1) ≤ b.capacity)
    (hocc : ∀ j, i < j → j < i + (n + 1) → (b.slot j).occupied = true)
    (h' : Delivered (b.deliverSlot i false) c (i + 1) n bytes) :
    Delivered b c i (n + 1) (b.payloadOf i ++ bytes) := by
  have hi : i < b.capacity := by omega
  have hslot : ∀ j < b.capacity, j ≠ i → (b.deliverSlot i false).slot j = b.slot j :=
    fun j hj hji => slot_deliverSlot_of_ne hi hj hji false
  have hcell : ∀ j < b.capacity, j ≠ i → (b.slot j).occupied = true →
      (b.deliverSlot i false).payloads.get (b.slot j).payloadIndex
        = b.payloads.get (b.slot j).payloadIndex :=
    fun j hj hji hj' => h.get_release hi hj hji (occupied_of_readable hread) hj'
  refine ⟨h'.capacity, h'.first, h'.ack, h'.classified, h'.rejected, h'.discarding, ?_, ?_, ?_, ?_⟩
  · intro j hj hjn
    by_cases hji : j = i
    · subst hji
      rw [h'.kept j hi (by omega)]
      show (SlotRing.get (SlotRing.set b.slots j _) j).settled = false
      rw [SlotRing.get_set_self]
      exact settled_eq_false.2 ⟨rfl, rfl⟩
    · exact h'.emptied j (by omega) (by omega)
  · intro j hj hout
    rw [h'.kept j hj (by omega), hslot j hj (by omega)]
  · intro j hj hout ho
    have hnext := h'.payload j hj (by omega) (by rw [hslot j hj (by omega)]; exact ho)
    rw [hslot j hj (by omega)] at hnext
    rw [hnext, hcell j hj (by omega) ho]
  rw [List.range'_succ, List.flatMap_cons, h'.bytes]
  congr 1
  refine List.flatMap_congr ?_
  intro j hj
  rw [List.mem_range'_1] at hj
  unfold payloadOf
  rw [hslot j (by omega) (by omega), hcell j (by omega) (by omega) (hocc j (by omega) (by omega))]

theorem deliverSlots_spec (h : b.Stored) (hn : i + n ≤ b.capacity)
    (hread : ∀ j, i ≤ j → j < i + n → (b.slot j).readable = true) :
    Delivered b (deliverSlots n i b).2 i n (deliverSlots n i b).1 := by
  induction n generalizing i b with
  | zero =>
    exact ⟨rfl, rfl, rfl, rfl, rfl, rfl, by omega, fun _ _ _ => rfl, fun _ _ _ _ => rfl, rfl⟩
  | succ n ih =>
    have hhead := hread i le_rfl (by omega)
    refine Delivered.cons h hhead hn ?_ (ih (h.deliverSlot hhead false) ?_ ?_)
    · intro j hj hjn
      exact occupied_of_readable (hread j (by omega) (by omega))
    · show i + 1 + n ≤ b.capacity
      omega
    intro j hj hjn
    rw [slot_deliverSlot_of_ne (by omega) (by omega) (by omega)]
    exact hread j (by omega) (by omega)

theorem Delivered.passed {bytes : Bytes} (h : Delivered b c 0 n bytes)
    (hn : n ≤ b.capacity) (hsettled : ∀ j < n, (b.slot j).settled = true) :
    Passed b (c.advanceFrontier n) n :=
  ⟨shifted_advanceFrontier hn h.capacity h.first h.ack h.classified
    (fun j hj => h.emptied j (by omega) (by omega)) (fun j hj hjc => h.kept j hjc (by omega))
    (fun j hj hjc => h.payload j hjc (by omega)), hsettled⟩

/-- The message at the head, as `pop_message` takes it: `n` packets of one
message, the first marked as its beginning and only the last as its end. -/
structure HeadMessage (b : ReceiveBuffer) (n : Nat) (message : Nat) : Prop where
  pos : 0 < n
  le : n ≤ b.capacity
  readable : ∀ j < n, (b.slot j).readable = true
  sequence : ∀ j < n, (b.slot j).header.sequence = b.firstStored.advanced j
  number : ∀ j < n, (b.slot j).header.messageNumber = message
  unread : ∀ j < n, (b.slot j).payloadOffset = 0
  start : (b.slot 0).header.boundary = .solo ∨ (b.slot 0).header.boundary = .first
  ends : ∀ j < n, ((b.slot j).endsMessage = true ↔ j + 1 = n)
  middle : ∀ j < n, 0 < j → (b.slot j).header.boundary = .subsequent
    ∨ (b.slot j).header.boundary = .last

/-- A pop that fails leaves the buffer; one that succeeds takes the message
at the head and passes its slots and what was settled behind them. -/
inductive Popped (b : ReceiveBuffer) : Except Error ReceivedMessageResult × ReceiveBuffer → Prop
  | failed (e : Error) : Popped b (.error e, b)
  | taken {c d : ReceiveBuffer} {n k message : Nat} (found : HeadMessage b n message)
      (passed : Passed b c n) (trimmed : Trimmed c d k)
      (rejected : c.rejectedMessages = b.rejectedMessages)
      (discarding : c.discardingMessage = b.discardingMessage) :
      Popped b (.ok ⟨(List.range' 0 n).flatMap b.payloadOf, message, b.firstStored,
        (b.slot 0).header.timestamp⟩, d)

theorem popMessage_spec (h : b.Stored) (size : Nat) : Popped b (b.popMessage size) := by
  unfold popMessage
  cases hf : b.find b.firstStored with
  | none => exact .failed _
  | some i =>
    obtain ⟨hi, hseq, -⟩ := find_eq_some_iff.1 hf
    have hi0 : i = 0 := by
      have hcap : b.capacity < 2 ^ 30 := b.capacity_lt
      have hzero : b.firstStored.advanced 0 = b.firstStored.advanced i := by simpa using hseq
      exact ((SequenceNumber.advanced_inj_of_lt (by omega) (by omega)).1 hzero).symm
    subst hi0
    dsimp only
    split
    · exact .failed _
    next hstart =>
    split
    · exact .failed _
    cases hscan : b.scanMessage (b.slot 0).header.messageNumber b.capacity b.firstStored 0 0 with
    | error e => exact .failed e
    | ok found =>
      obtain ⟨packets, total⟩ := found
      have hzero : b.firstStored = b.firstStored.advanced 0 := by simp
      rw [hzero] at hscan
      obtain ⟨hpos, hle, hall⟩ := scanMessage_ok (by omega) hscan
      have hfind := fun j hj => find_eq_some_iff.1 (hall j (Nat.zero_le j) hj).1
      have hmessage : HeadMessage b packets (b.slot 0).header.messageNumber := by
        refine ⟨hpos, hle, fun j hj => (hfind j hj).2.2.1, fun j hj => (hfind j hj).2.2.2,
          fun j hj => (hall j (Nat.zero_le j) hj).2.1,
          fun j hj => (hall j (Nat.zero_le j) hj).2.2.1, ?_,
          fun j hj => (hall j (Nat.zero_le j) hj).2.2.2.1,
          fun j hj => (hall j (Nat.zero_le j) hj).2.2.2.2⟩
        by_contra hno
        exact hstart ⟨fun h => hno (.inl h), fun h => hno (.inr h)⟩
      dsimp only
      split
      · exact .failed _
      have hread := fun j (hj : j < packets) => hmessage.readable j hj
      have hdelivered := deliverSlots_spec (b := b.invalidateDeliveryQueries) (i := 0)
        (n := packets) h (by show 0 + packets ≤ b.capacity; omega)
        (fun j _ hj => hread j (by omega))
      have hstored := Stored.deliverSlots (b := b.invalidateDeliveryQueries) (i := 0)
        (n := packets) h (by show 0 + packets ≤ b.capacity; omega)
        (fun j _ hj => hread j (by omega))
      have hpassed := hdelivered.passed hle (fun j hj =>
        settled_of_occupied (occupied_of_readable (hread j hj)))
      obtain ⟨k, hk⟩ := trimDroppedPrefix_spec (hstored.advanceFrontier packets)
      have hbytes := hdelivered.bytes
      generalize deliverSlots packets 0 b.invalidateDeliveryQueries = out
        at hdelivered hpassed hk hbytes ⊢
      rw [hbytes]
      exact .taken hmessage ⟨⟨hpassed.capacity, hpassed.le, hpassed.first, hpassed.ack,
        hpassed.kept, hpassed.emptied, hpassed.payload, hpassed.classified⟩,
        hpassed.passed⟩ hk hdelivered.rejected hdelivered.discarding

/-! ## The window -/

/-- The buffer is the window from position `F`, acknowledged up to `N`. -/
structure Window (isn : SequenceNumber) (A : Nat → Prop) (Q : Nat → DataHeader → Bytes → Prop)
    (b : ReceiveBuffer) (F N : Nat) : Prop where
  first : b.firstStored = isn.advanced F
  ack : b.nextAck = isn.advanced N
  le : F ≤ N
  near : N < F + 2 ^ 30
  coherent : ∀ i < b.capacity, (b.slot i).occupied = true →
    (b.slot i).header.sequence = isn.advanced (F + i)
  carried : ∀ i < b.capacity, (b.slot i).occupied = true →
    Q (F + i) (b.slot i).header (b.payloads.get (b.slot i).payloadIndex)
  passed : ∀ p < N, A p
  settled : ∀ i < b.capacity, (b.slot i).settled = true → A (F + i)

/-- The acknowledgement cannot go further. -/
def Maximal (b : ReceiveBuffer) (F N : Nat) : Prop :=
  N < F + b.capacity → (b.slot (N - F)).settled = false

variable {isn : SequenceNumber} {A : Nat → Prop} {Q : Nat → DataHeader → Bytes → Prop} {F N : Nat}

theorem window_make (h : make isn n = some b) :
    Window isn A Q b 0 0 ∧ Maximal b 0 0 ∧ (b.slot 0).dropped = false := by
  unfold make at h
  split at h
  · cases h
    refine ⟨⟨by simp, by simp, le_rfl, by decide, ?_, ?_, by simp, ?_⟩, fun _ => rfl, rfl⟩
    · intro i _ ho
      cases ho
    · intro i _ ho
      cases ho
    intro i _ hs
    cases hs
  · cases h

section

variable (h : Window isn A Q b F N) {p : Nat}
include h

/-- The offset of a position within the window. -/
theorem Window.offsetOf_eq_some_iff (hp : p < F + 2 ^ 30) (hFp : F ≤ p) :
    b.offsetOf (isn.advanced p) = some i ↔ i < b.capacity ∧ p = F + i := by
  have hcap : b.capacity < 2 ^ 30 := b.capacity_lt
  rw [ReceiveBuffer.offsetOf_eq_some_iff, h.first, SequenceNumber.advanced_advanced]
  constructor
  · rintro ⟨hi, heq⟩
    exact ⟨hi, (SequenceNumber.advanced_inj_of_lt (by omega) (by omega)).1 heq⟩
  rintro ⟨hi, rfl⟩
  exact ⟨hi, rfl⟩

/-- Where a packet is stored its number is the slot's own. -/
theorem Window.isSettled_eq (hp : p < F + 2 ^ 30) (hFp : F ≤ p) :
    b.isSettled (isn.advanced p) = true ↔ p < F + b.capacity ∧ (b.slot (p - F)).settled = true := by
  unfold isSettled
  cases ho : b.offsetOf (isn.advanced p) with
  | none =>
    constructor
    · intro he
      cases he
    rintro ⟨hlt, -⟩
    have hsome := (h.offsetOf_eq_some_iff hp hFp (i := p - F)).2 ⟨by omega, by omega⟩
    rw [ho] at hsome
    cases hsome
  | some i =>
    obtain ⟨hi, rfl⟩ := (h.offsetOf_eq_some_iff hp hFp).1 ho
    have hsub : F + i - F = i := by omega
    rw [hsub]
    dsimp only
    constructor
    · intro hs
      refine ⟨by omega, ?_⟩
      cases hd : (b.slot i).dropped with
      | true => exact settled_of_dropped hd
      | false =>
        rw [hd, Bool.false_or, Bool.and_eq_true] at hs
        exact settled_of_occupied hs.1
    rintro ⟨-, hs⟩
    cases hd : (b.slot i).dropped with
    | true => rfl
    | false =>
      have hocc : (b.slot i).occupied = true := by
        unfold ReceiveSlot.settled at hs
        rwa [hd, Bool.or_false] at hs
      rw [hocc, h.coherent i hi hocc, beq_self_eq_true]
      rfl

/-- The acknowledgement moves over settled slots, as far as it goes. -/
theorem Window.advanceAcknowledgementFrom {fuel : Nat} (hfuel : F + b.capacity ≤ N + fuel) :
    ∃ N', N ≤ N' ∧ N' ≤ max N (F + b.capacity)
      ∧ b.advanceAcknowledgementFrom fuel = { b with nextAck := isn.advanced N' }
      ∧ Window isn A Q { b with nextAck := isn.advanced N' } F N' ∧ Maximal b F N'
      ∧ ∀ p, N ≤ p → p < N' → (b.slot (p - F)).settled = true := by
  have hcap : b.capacity < 2 ^ 30 := b.capacity_lt
  have hself : ({ b with nextAck := isn.advanced N } : ReceiveBuffer) = b := by
    rw [← h.ack]
  induction fuel generalizing b N with
  | zero =>
    refine ⟨N, le_rfl, le_max_left .., ?_, ?_, fun hlt => by omega, by omega⟩
    · rw [hself]
      rfl
    rw [hself]
    exact h
  | succ fuel ih =>
    have hle := h.le
    have hnear := h.near
    unfold ReceiveBuffer.advanceAcknowledgementFrom
    by_cases hs : b.isSettled b.nextAck = true
    · rw [if_pos hs]
      rw [h.ack, h.isSettled_eq hnear hle] at hs
      obtain ⟨hlt, hsettled⟩ := hs
      have hA : A N := by
        have := h.settled (N - F) (by omega) hsettled
        rwa [show F + (N - F) = N by omega] at this
      have hnext : b.nextAck.next = isn.advanced (N + 1) := by
        rw [h.ack, SequenceNumber.next_advanced]
      rw [hnext]
      have hstep : Window isn A Q { b with nextAck := isn.advanced (N + 1) } F (N + 1) := by
        refine ⟨h.first, rfl, by omega, by omega, h.coherent, h.carried, ?_, h.settled⟩
        intro p hp
        by_cases hpN : p < N
        · exact h.passed p hpN
        obtain rfl : p = N := by omega
        exact hA
      obtain ⟨N', hN, hmax, heq, hw, hmaximal, hover⟩ := ih hstep
        (by show F + b.capacity ≤ N + 1 + fuel; omega) hcap rfl
      refine ⟨N', by omega, ?_, heq, hw, hmaximal, ?_⟩
      · change N' ≤ max (N + 1) (F + b.capacity) at hmax
        omega
      intro p hp hpN
      by_cases hpeq : p = N
      · rw [hpeq]
        exact hsettled
      · exact hover p (by omega) hpN
    rw [if_neg hs]
    refine ⟨N, le_rfl, le_max_left .., hself.symm, hself.symm ▸ h, ?_, by omega⟩
    intro hlt
    rw [h.ack, h.isSettled_eq hnear hle] at hs
    cases hsettled : (b.slot (N - F)).settled with
    | false => rfl
    | true => exact absurd ⟨hlt, hsettled⟩ hs

theorem Window.advanceAcknowledgement : ∃ N', N ≤ N' ∧ N' ≤ max N (F + b.capacity)
      ∧ b.advanceAcknowledgement = { b with nextAck := isn.advanced N' }
      ∧ Window isn A Q b.advanceAcknowledgement F N' ∧ Maximal b.advanceAcknowledgement F N'
      ∧ ∀ p, N ≤ p → p < N' → (b.slot (p - F)).settled = true := by
  have hle := h.le
  obtain ⟨N', hN, hmax, heq, hw, hmaximal, hover⟩ :=
    h.advanceAcknowledgementFrom (show F + b.capacity ≤ N + b.capacity by omega)
  refine ⟨N', hN, hmax, heq, ?_, ?_, hover⟩
  · unfold ReceiveBuffer.advanceAcknowledgement
    rw [heq]
    exact hw
  unfold ReceiveBuffer.advanceAcknowledgement
  rw [heq]
  exact hmaximal

end

/-- A settled slot behind a shift was there before it. -/
theorem Shifted.of_settled (h : Shifted b c k) (hi : i < c.capacity)
    (hs : (c.slot i).settled = true) : i + k < b.capacity ∧ c.slot i = b.slot (i + k) := by
  have hcap := h.capacity
  by_cases hin : i + k < b.capacity
  · exact ⟨hin, h.kept i hin⟩
  rw [h.emptied i (by omega) (by omega)] at hs
  cases hs

/-- The frontier moves by `k`, and the acknowledgement to `M`. -/
theorem Window.shift {M : Nat} (h : Window isn A Q b F N) (hk : Shifted b c k)
    (hle : F + k ≤ M) (hnear : M < F + k + 2 ^ 30) (hA : ∀ p < M, A p) :
    Window isn A Q { c with nextAck := isn.advanced M } (F + k) M := by
  refine ⟨?_, rfl, hle, hnear, ?_, ?_, hA, ?_⟩
  · show c.firstStored = _
    rw [hk.first, h.first, SequenceNumber.advanced_advanced]
  · intro i hi ho
    obtain ⟨hin, hslot⟩ := hk.of_settled hi (settled_of_occupied ho)
    change (c.slot i).occupied = true at ho
    show (c.slot i).header.sequence = _
    rw [hslot] at ho ⊢
    rw [h.coherent (i + k) hin ho]
    congr 1
    omega
  · intro i hi ho
    obtain ⟨hin, hslot⟩ := hk.of_settled hi (settled_of_occupied ho)
    change (c.slot i).occupied = true at ho
    show Q _ (c.slot i).header (c.payloads.get (c.slot i).payloadIndex)
    rw [hslot] at ho ⊢
    rw [hk.payload i hin ho, show F + k + i = F + (i + k) by omega]
    exact h.carried (i + k) hin ho
  intro i hi hs
  obtain ⟨hin, hslot⟩ := hk.of_settled hi hs
  change (c.slot i).settled = true at hs
  rw [hslot] at hs
  rw [show F + k + i = F + (i + k) by omega]
  exact h.settled (i + k) hin hs

/-- The slot the acknowledgement stands at stays where it is. -/
theorem Maximal.shift (h : Maximal b F N) (hk : Shifted b c k) (hle : F + k ≤ N) :
    Maximal c (F + k) N := by
  have hcap := hk.capacity
  intro hlt
  by_cases hin : N - (F + k) + k < b.capacity
  · rw [hk.kept _ hin, show N - (F + k) + k = N - F by omega]
    exact h (by omega)
  · exact hk.emptied _ (by omega) (by omega)

/-- Passing settled slots never passes the acknowledgement. -/
theorem Window.pass (h : Window isn A Q b F N) (hmax : Maximal b F N)
    (hk : Passed b c k) : F + k ≤ N ∧ Window isn A Q c (F + k) N ∧ Maximal c (F + k) N := by
  have hle := h.le
  have hnear := h.near
  have hkle := hk.le
  have hbound : F + k ≤ N := by
    by_contra hlt
    have hopen := hmax (by omega)
    rw [hk.passed (N - F) (by omega)] at hopen
    cases hopen
  have hw := h.shift hk.toShifted hbound (by omega) h.passed
  rw [← h.ack, ← hk.ack] at hw
  exact ⟨hbound, hw, hmax.shift hk.toShifted hbound⟩

theorem Window.set (h : Window isn A Q b F N) (hcap : c.capacity = b.capacity)
    (hfirst : c.firstStored = b.firstStored) (hack : c.nextAck = b.nextAck)
    (hslots : ∀ j < b.capacity, j ≠ i → c.slot j = b.slot j)
    (hpayload : ∀ j < b.capacity, j ≠ i → (b.slot j).occupied = true → c.payloads.get (b.slot
      j).payloadIndex = b.payloads.get (b.slot j).payloadIndex)
    (hsettled : (c.slot i).settled = true → A (F + i))
    (hoccupied : (c.slot i).occupied = true → (c.slot i).header.sequence = isn.advanced (F + i) ∧ Q
      (F + i) (c.slot i).header (c.payloads.get (c.slot i).payloadIndex)) :
    Window isn A Q c F N := by
  refine ⟨hfirst.trans h.first, hack.trans h.ack, h.le, h.near, ?_, ?_, h.passed, ?_⟩
  · intro j hj ho
    by_cases hji : j = i
    · rw [hji] at ho ⊢
      exact (hoccupied ho).1
    rw [hslots j (by omega) hji] at ho ⊢
    exact h.coherent j (by omega) ho
  · intro j hj ho
    by_cases hji : j = i
    · rw [hji] at ho ⊢
      exact (hoccupied ho).2
    rw [hslots j (by omega) hji] at ho ⊢
    rw [hpayload j (by omega) hji ho]
    exact h.carried j (by omega) ho
  intro j hj hs
  by_cases hji : j = i
  · rw [hji] at hs ⊢
    exact hsettled hs
  rw [hslots j (by omega) hji] at hs
  exact h.settled j (by omega) hs

end ReceiveBuffer

end Srt
