/-
# `ReceiveOrder` — packets stay where their numbers say

A packet is stored at the offset of its sequence number from the frontier.
Every operation behind it moves the ring and the frontier together, empties
slots, or rewrites a slot without touching its header: it `Carries` the
packets, and carrying keeps them in order.  The exception is the last step of
`drop_range_impl`, which moves the frontier over slots it does not look at.
It is harmless where the frontier stops at the first packet that was
preserved (`Capped`), as it does for a range that is `Clear` of messages with a
rejected packet; where the trim has taken that packet, later packets end up
behind the frontier and reappear at the far end of the ring.
-/
import Srt.Reliability.ReceiveFrontier

namespace Srt

namespace ReceiveBuffer

variable {b c d : ReceiveBuffer} {k m : Nat}

/-- The ring moved by `k`; what is stored was stored there before. -/
structure Carries (b c : ReceiveBuffer) (k : Nat) : Prop where
  capacity : c.capacity = b.capacity
  first : c.firstStored = b.firstStored.advanced k
  stored : ∀ j < b.capacity, (c.slot j).occupied = true →
    j + k < b.capacity ∧ (b.slot (j + k)).occupied = true
      ∧ (c.slot j).header = (b.slot (j + k)).header

theorem Carries.refl (b : ReceiveBuffer) : Carries b b 0 :=
  ⟨rfl, (SequenceNumber.advanced_zero _).symm, fun _ hj ho => ⟨hj, ho, rfl⟩⟩

theorem Carries.trans (h : Carries b c k) (h' : Carries c d m) : Carries b d (k + m) := by
  have hcap := h.capacity
  refine ⟨h'.capacity.trans hcap, ?_, ?_⟩
  · rw [h'.first, h.first, SequenceNumber.advanced_advanced]
  intro j hj ho
  obtain ⟨hjm, ho', hheader⟩ := h'.stored j (by omega) ho
  obtain ⟨hjk, ho'', hheader'⟩ := h.stored (j + m) (by omega) ho'
  rw [show j + (k + m) = j + m + k by omega]
  exact ⟨hjk, ho'', hheader.trans hheader'⟩

theorem Shifted.carries (h : Shifted b c k) : Carries b c k := by
  refine ⟨h.capacity, h.first, ?_⟩
  intro j hj ho
  have hjk : j + k < b.capacity := by
    by_contra hout
    have hempty := ReceiveSlot.settled_eq_false.1 (h.emptied j hj (by omega))
    rw [hempty.1] at ho
    cases ho
  have hslot := h.kept j hjk
  rw [hslot] at ho ⊢
  exact ⟨hjk, ho, rfl⟩

/-- Slots are emptied or keep their headers. -/
theorem carries_zero (hcap : c.capacity = b.capacity) (hfirst : c.firstStored = b.firstStored)
    (hslots : ∀ j < b.capacity, (c.slot j).occupied = true →
      (b.slot j).occupied = true ∧ (c.slot j).header = (b.slot j).header) : Carries b c 0 :=
  ⟨hcap, by rw [hfirst, SequenceNumber.advanced_zero], fun j hj ho => ⟨hj, hslots j hj ho⟩⟩

theorem carries_set {i : Nat} (hi : i < b.capacity) (hcap : c.capacity = b.capacity)
    (hfirst : c.firstStored = b.firstStored) (hrest : ∀ j < b.capacity, j ≠ i → c.slot j = b.slot j)
    (hslot : (c.slot i).occupied = true →
      (b.slot i).occupied = true ∧ (c.slot i).header = (b.slot i).header) : Carries b c 0 := by
  refine carries_zero hcap hfirst ?_
  intro j hj ho
  by_cases hji : j = i
  · subst hji
    exact hslot ho
  rw [hrest j hj hji] at ho ⊢
  exact ⟨ho, rfl⟩

theorem carries_acknowledged (b : ReceiveBuffer) (a : SequenceNumber) :
    Carries b { b with nextAck := a } 0 :=
  carries_zero rfl rfl (fun _ _ ho => ⟨ho, rfl⟩)

theorem carries_advanceAcknowledgement (b : ReceiveBuffer) : Carries b b.advanceAcknowledgement 0 :=
  carries_zero (advanceAcknowledgement_capacity b) (advanceAcknowledgement_firstStored b)
    (fun j _ ho => by
      rw [advanceAcknowledgement_slot] at ho ⊢
      exact ⟨ho, rfl⟩)

theorem Stored.carries_trim (h : b.Stored) : ∃ k, Carries b b.trimDroppedPrefix k := by
  obtain ⟨k, hk⟩ := trimDroppedPrefix_spec h
  exact ⟨k, hk.carries⟩

/-! ## The operations -/

/-- Some amount the ring moved by. -/
def Moves (b c : ReceiveBuffer) : Prop :=
  ∃ k, Carries b c k

theorem Moves.refl (b : ReceiveBuffer) : Moves b b := ⟨0, .refl b⟩

theorem Carries.moves (h : Carries b c k) (h' : Moves c d) : Moves b d := by
  obtain ⟨m, hm⟩ := h'
  exact ⟨k + m, h.trans hm⟩

theorem Moves.after (h : Moves c d) (h' : Carries b c k) : Moves b d := h'.moves h

theorem carries_setSlot {i : Nat} {s : ReceiveSlot} (hi : i < b.capacity)
    (hs : s.occupied = true → (b.slot i).occupied = true ∧ s.header = (b.slot i).header) :
    Carries b (b.setSlot i s) 0 := by
  refine carries_set hi rfl rfl ?_ ?_
  · intro j hj hji
    exact b.slots.get_set_ne hi hj hji s
  intro ho
  have hself : (b.setSlot i s).slot i = s := b.slots.get_set_self i s
  rw [hself] at ho ⊢
  exact hs ho

theorem Stored.moves_discardMessagePayload (h : b.Stored) (sequence : SequenceNumber) :
    Moves b (b.discardMessagePayload sequence) := by
  unfold ReceiveBuffer.discardMessagePayload
  cases hf : b.find sequence with
  | none => exact .refl b
  | some i =>
    obtain ⟨hi, -, hread, -⟩ := find_eq_some_iff.1 hf
    have hset : Carries b (b.setSlot i { b.slot i with rejectedPayload := true }) 0 :=
      carries_setSlot hi (fun ho => ⟨ho, rfl⟩)
    have hreject := Stored.reject (b := b.invalidateDeliveryQueries) h (i := i)
      (occupied_of_readable hread) (rejected_of_readable hread)
    exact Moves.after hreject.carries_trim ⟨hset.capacity, hset.first, hset.stored⟩

theorem Stored.moves_popMessage (h : b.Stored) (size : Nat) : Moves b (b.popMessage size).2 := by
  have hspec := popMessage_spec h size
  generalize b.popMessage size = out at hspec
  cases hspec with
  | failed e => exact .refl b
  | taken found passed trimmed rejected discarding =>
    exact passed.toShifted.carries.moves ⟨_, trimmed.toShifted.carries⟩

theorem carries_deliverSlot {i : Nat} (hi : i < b.capacity) (delivered : Bool) :
    Carries b (b.deliverSlot i delivered) 0 := by
  refine carries_set hi rfl rfl ?_ ?_
  · intro j hj hji
    exact slot_deliverSlot_of_ne hi hj hji delivered
  intro ho
  have hempty : ((b.deliverSlot i delivered).slot i).occupied = false := by
    show (SlotRing.get (SlotRing.set b.slots i _) i).occupied = false
    rw [SlotRing.get_set_self]
  rw [hempty] at ho
  cases ho

theorem carries_firstCompleteMessage (b : ReceiveBuffer) :
    Carries b b.firstCompleteMessage.2 0 := by
  obtain ⟨q, hq⟩ := b.firstCompleteMessage_eq
  rw [hq]
  exact ⟨rfl, (SequenceNumber.advanced_zero _).symm, fun _ hj ho => ⟨hj, ho, rfl⟩⟩

theorem carries_firstBufferedPacket (b : ReceiveBuffer) : Carries b b.firstBufferedPacket.2 0 := by
  obtain ⟨q, hq⟩ := b.firstBufferedPacket_eq
  rw [hq]
  exact ⟨rfl, (SequenceNumber.advanced_zero _).symm, fun _ hj ho => ⟨hj, ho, rfl⟩⟩

theorem Stored.moves_popMessageUnordered (h : b.Stored) (size : Nat) :
    Moves b (b.popMessageUnordered size).2 := by
  have hquery := b.carries_firstCompleteMessage
  have hstored := h.firstCompleteMessage
  unfold ReceiveBuffer.popMessageUnordered
  generalize b.firstCompleteMessage = answer at hquery hstored
  obtain ⟨message, c⟩ := answer
  dsimp only at hquery hstored ⊢
  refine hquery.moves ?_
  cases message with
  | none => exact .refl c
  | some message =>
    dsimp only
    split
    · exact hstored.moves_popMessage size
    split
    · exact .refl c
    cases hf : c.find message.firstSequence with
    | none => exact .refl c
    | some i =>
      obtain ⟨hi, -, hread, -⟩ := find_eq_some_iff.1 hf
      dsimp only
      split
      · exact .refl c
      split
      · exact .refl c
      have hdeliver := carries_deliverSlot (b := c.invalidateDeliveryQueries) hi true
      have hrest := (Stored.deliverSlot (b := c.invalidateDeliveryQueries) hstored hread
        true).advanceAcknowledgement.carries_trim
      have hclean : Carries c c.invalidateDeliveryQueries 0 :=
        carries_zero rfl rfl (fun _ _ ho => ⟨ho, rfl⟩)
      exact hclean.moves (hdeliver.moves ((carries_advanceAcknowledgement _).moves hrest))

theorem Stored.moves_streamFrom {due : PacketTimestamp → Bool} {fuel space : Nat}
    (h : b.Stored) : Moves b (ReceiveBuffer.streamFrom due fuel space b).2 := by
  refine h.streamFrom_closed (R := Moves) .refl (fun ⟨_, hc⟩ hd => hc.moves hd) ?_ ?_
  · intro b copied
    have hset := carries_setSlot (b := { b with bufferedPayloadBytes :=
      b.bufferedPayloadBytes - copied }) (s := { b.slot 0 with
        payloadOffset := (b.slot 0).payloadOffset + copied }) b.slots.capacity_pos
          (fun ho => ⟨ho, rfl⟩)
    exact ⟨0, hset.capacity, hset.first, hset.stored⟩
  intro b c hpassed hc
  have hclean : Carries b b.invalidateDeliveryQueries 0 :=
    carries_zero rfl rfl (fun _ _ ho => ⟨ho, rfl⟩)
  exact hclean.moves (hpassed.toShifted.carries.moves hc.carries_trim)

theorem Stored.moves_popStream (h : b.Stored) (size : Nat) (due : PacketTimestamp → Bool) :
    Moves b (b.popStream size due).2 := by
  unfold ReceiveBuffer.popStream
  split
  · exact .refl b
  cases hf : b.find b.firstStored with
  | none => exact .refl b
  | some i =>
    dsimp only
    split
    · exact .refl b
    · exact h.moves_streamFrom

theorem moves_markGapAt (b : ReceiveBuffer) (sequence : SequenceNumber) (deadline : Nat) :
    Moves b (b.markGapAt sequence deadline) := by
  unfold markGapAt
  cases ho : b.offsetOf sequence with
  | none => exact .refl b
  | some i =>
    obtain ⟨hi, -⟩ := ReceiveBuffer.offsetOf_eq_some_iff.1 ho
    dsimp only
    split
    · exact ⟨0, carries_setSlot hi (fun ho => ⟨ho, rfl⟩)⟩
    · exact .refl b

theorem moves_markGapFrom {deadline n : Nat} {sequence : SequenceNumber} :
    Moves b (markGapFrom deadline n sequence b) := by
  induction n generalizing b sequence with
  | zero => exact .refl b
  | succ n ih =>
    obtain ⟨k, hk⟩ := moves_markGapAt b sequence deadline
    exact hk.moves ih

theorem moves_markGap (b : ReceiveBuffer) (range : SequenceRange) (deadline : Nat) :
    Moves b (b.markGap range deadline) := by
  unfold ReceiveBuffer.markGap
  dsimp only
  split
  · exact .refl b
  · exact moves_markGapFrom

theorem advanceFrontier_firstStored (b : ReceiveBuffer) (n : Nat) :
    (b.advanceFrontier n).firstStored = b.firstStored.advanced n :=
  rfl

theorem advanceFrontier_capacity (b : ReceiveBuffer) (n : Nat) :
    (b.advanceFrontier n).capacity = b.capacity :=
  rfl

/-- Nothing is stored, so nothing moves out of order. -/
theorem Blank.carries (h : c.Blank) (hcap : c.capacity = b.capacity)
    (hfirst : c.firstStored = b.firstStored.advanced k) : Carries b c k := by
  refine ⟨hcap, hfirst, ?_⟩
  intro j _ ho
  rw [(ReceiveSlot.settled_eq_false.1 (h.slot j)).1] at ho
  cases ho

theorem carries_skip_zero (b : ReceiveBuffer) : Carries b (b.skipFrontier 0) 0 := by
  refine carries_zero (skipFrontier_capacity b 0) ?_ ?_
  · rw [skipFrontier_firstStored, SequenceNumber.advanced_zero]
  intro j _ ho
  rw [skipFrontier_zero_slot] at ho ⊢
  exact ⟨ho, rfl⟩

theorem carries_catchUpAcknowledgement (b : ReceiveBuffer) :
    Carries b b.catchUpAcknowledgement 0 := by
  unfold catchUpAcknowledgement
  split
  · exact (carries_acknowledged b _).trans (carries_advanceAcknowledgement _)
  · exact .refl b

theorem Stored.moves_dropRangeImpl (h : b.Stored) {range : SequenceRange}
    {preservation : DropPreservation} (hcapped : b.Capped range preservation) :
    Moves b (b.dropRangeImpl range preservation) := by
  rcases h.dropRangeImpl_cases range preservation with
    heq | ⟨start, last, k, hspan, hwithin, hk, heq⟩ <;> rw [heq]
  · exact .refl b
  have hdropped : Carries b (b.dropWithin range preservation).buffer 0 := by
    refine carries_zero hwithin.capacity hwithin.first ?_
    intro j hj ho
    rcases hwithin.slot_cases hj with ⟨-, -, -, hempty⟩ | hsame
    · rw [hempty] at ho
      cases ho
    rw [hsame] at ho ⊢
    exact ⟨ho, rfl⟩
  have htrimmed : Carries b (b.dropTrimmed range preservation) _ :=
    hdropped.trans ((carries_advanceAcknowledgement _).trans hk.toShifted.carries)
  refine htrimmed.moves ?_
  refine Moves.after ⟨0, carries_catchUpAcknowledgement _⟩ (k := b.additionalAdvance range
    preservation) ?_
  rcases additionalAdvance_cases h hspan hcapped hk with hzero | ⟨-, hfull, -, -⟩
  · rw [hzero]
    exact carries_skip_zero _
  have hcapk := (advanceAcknowledgement_capacity _).trans hwithin.capacity
  have hblank : (b.dropTrimmed range preservation).Blank := by
    intro j hj
    have hcap' : (b.dropTrimmed range preservation).capacity = _ := hk.capacity
    exact hk.emptied j (by omega) (by omega)
  exact (hblank.skipFrontier _).carries (skipFrontier_capacity _ _) (skipFrontier_firstStored _ _)

theorem Stored.moves_discardBefore (h : b.Stored) (next : SequenceNumber) :
    Moves b (b.discardBefore next) := by
  unfold ReceiveBuffer.discardBefore
  split
  · exact .refl b
  generalize (next.distanceFrom b.firstStored).toNat = n
  have hraise : Carries ((b.discardWindow n).advanceFrontier n)
      (((b.discardWindow n).advanceFrontier n).raiseAcknowledgement next) 0 := by
    unfold ReceiveBuffer.raiseAcknowledgement
    split
    · exact carries_acknowledged _ next
    · exact .refl _
  refine Moves.after ⟨0, hraise⟩ (k := n) ?_
  by_cases hwithin : n < b.capacity
  · exact (shifted_discardWindow h hwithin).carries
  obtain ⟨hblank, hfirst, -, -, hcap⟩ := blank_discardWindow (n := n) h (by omega)
  refine (hblank.advanceFrontier n).carries ((advanceFrontier_capacity _ n).trans hcap) ?_
  rw [advanceFrontier_firstStored, hfirst]

theorem moves_acknowledgePeerDropRange (b : ReceiveBuffer) (range : SequenceRange) :
    Moves b (b.acknowledgePeerDropRange range) := by
  unfold ReceiveBuffer.acknowledgePeerDropRange
  split
  · exact (carries_acknowledged b _).moves ⟨0, carries_advanceAcknowledgement _⟩
  · exact .refl b

/-! ## The order -/

/-- A packet is stored at the offset of its number. -/
def Coherent (b : ReceiveBuffer) : Prop :=
  ∀ i < b.capacity, (b.slot i).occupied = true →
    (b.slot i).header.sequence = b.firstStored.advanced i

theorem coherent_make {initial : SequenceNumber} {n : Nat} (h : make initial n = some b) :
    b.Coherent := by
  unfold make at h
  split at h
  · cases h
    intro i _ ho
    cases ho
  · cases h

theorem Coherent.moves (h : b.Coherent) (hmoves : Moves b c) : c.Coherent := by
  obtain ⟨k, hk⟩ := hmoves
  have hcap := hk.capacity
  intro i hi ho
  obtain ⟨hik, hstored, hheader⟩ := hk.stored i (by omega) ho
  rw [hheader, h (i + k) hik hstored, hk.first, SequenceNumber.advanced_advanced, Nat.add_comm]

theorem Coherent.occupySlot {i : Nat} {packet : DataPacket} (h : b.Coherent) (hi : i < b.capacity)
    (hsequence : packet.header.sequence = b.firstStored.advanced i) :
    (b.occupySlot i packet).Coherent := by
  intro j hj ho
  by_cases hji : j = i
  · subst hji
    show (SlotRing.get (SlotRing.set b.slots j _) j).header.sequence = _
    rw [SlotRing.get_set_self]
    exact hsequence
  have hslot : (b.occupySlot i packet).slot j = b.slot j := b.slots.get_set_ne hi hj hji _
  rw [hslot] at ho ⊢
  exact h j hj ho

theorem Coherent.insert {packet : PacketView} (h : b.Coherent) (hs : b.Stored)
    (ht : packet.Typed) : (b.insert packet).2.Coherent := by
  cases packet with
  | control header payload => exact h
  | data packet =>
    unfold ReceiveBuffer.insert
    dsimp only
    split
    · exact h
    split
    · exact h
    cases ho : b.offsetOf packet.header.sequence with
    | none => exact h
    | some i =>
      obtain ⟨hi, hseq⟩ := ReceiveBuffer.offsetOf_eq_some_iff.1 ho
      dsimp only
      split
      · exact h
      next hfree =>
      have hempty : (b.slot i).occupied = false := by
        cases hocc : (b.slot i).occupied <;> simp_all
      have hstored := (hs.occupySlot hempty ht).advanceAcknowledgement
      have hack := (h.occupySlot hi hseq).moves ⟨0, carries_advanceAcknowledgement _⟩
      dsimp only
      split
      · exact hack.moves hstored.carries_trim
      · exact hack

/-- A drop requested by the peer is clear, so that it stops at the first packet
it preserves. -/
def StopsAtPreserved (b : ReceiveBuffer) : Op → Prop
  | .dropPeerRequestedRange range | .dropPeerRequestedStreamRange range => b.Clear range
  | _ => True

instance (b : ReceiveBuffer) (range : SequenceRange) (preservation : DropPreservation) :
    Decidable (b.Capped range preservation) :=
  Option.decidableForallMem _

instance (b : ReceiveBuffer) (range : SequenceRange) : Decidable (b.Clear range) :=
  inferInstanceAs (Decidable (_ ∧ _))

instance (b : ReceiveBuffer) : ∀ op, Decidable (b.StopsAtPreserved op)
  | .dropPeerRequestedRange range | .dropPeerRequestedStreamRange range =>
    inferInstanceAs (Decidable (b.Clear range))
  | .insert _ | .discardMessagePayload _ | .popMessage _ | .popMessageUnordered _
  | .popStream _ _ | .markGap _ _ | .dropRange _ | .discardBefore _
  | .acknowledgePeerDropRange _ | .firstCompleteMessage | .firstBufferedPacket => .isTrue trivial

theorem Coherent.dropRangeImpl (h : b.Coherent) (hs : b.Stored) {range : SequenceRange}
    {preservation : DropPreservation}
    (hcapped : b.dropRangeImpl range preservation = b ∨ b.Capped range preservation) :
    (b.dropRangeImpl range preservation).Coherent := by
  rcases hcapped with heq | hcapped
  · rw [heq]
    exact h
  · exact h.moves (hs.moves_dropRangeImpl hcapped)

theorem Coherent.apply (h : b.Coherent) (hs : b.Stored) (op : Op) (hop : b.StopsAtPreserved op) :
    (b.apply op).Coherent := by
  unfold ReceiveBuffer.apply
  cases op with
  | insert packet => exact h.insert hs packet.property
  | discardMessagePayload sequence => exact h.moves (hs.moves_discardMessagePayload sequence)
  | popMessage size => exact h.moves (hs.moves_popMessage size)
  | popMessageUnordered size => exact h.moves (hs.moves_popMessageUnordered size)
  | popStream size due => exact h.moves (hs.moves_popStream size due)
  | markGap range deadline => exact h.moves (b.moves_markGap range deadline)
  | dropRange range => exact h.moves (hs.moves_dropRangeImpl (b.capped_none range))
  | dropPeerRequestedRange range =>
    exact h.dropRangeImpl hs (Clear.capped hop hs .completeMessages)
  | dropPeerRequestedStreamRange range =>
    exact h.dropRangeImpl hs (Clear.capped hop hs .receivedPackets)
  | discardBefore next => exact h.moves (hs.moves_discardBefore next)
  | acknowledgePeerDropRange range => exact h.moves (b.moves_acknowledgePeerDropRange range)
  | firstCompleteMessage => exact h.moves ⟨0, b.carries_firstCompleteMessage⟩
  | firstBufferedPacket => exact h.moves ⟨0, b.carries_firstBufferedPacket⟩

theorem coherent_of_reaches (h : Lts.Reaches system StopsAtPreserved b) : b.Coherent := by
  refine h.invariant ?_ ?_
  · rintro c ⟨initial, capacity, hc⟩
    exact coherent_make hc
  rintro c op d hreaches hc hop rfl
  exact hc.apply (stored_of_reaches hreaches) op hop

theorem Stored.payloadIndex_inj (h : b.Stored) {i j : Nat} (hi : i < b.capacity)
    (hj : j < b.capacity) (hoi : (b.slot i).occupied = true) (hoj : (b.slot j).occupied = true)
    (heq : (b.slot i).payloadIndex = (b.slot j).payloadIndex) : i = j := by
  by_contra hne
  refine h.payloadIndex_ne (b.slots.position_lt i) ?_ hoj hoi heq
  exact fun hp => hne ((b.slots.position_inj hi hj).1 hp)

/-- Counters, bitmaps, payload cells and the trie repeat what the slots say
after any operations.  Packets are where their numbers say as long as what the
peer drops is clear of forfeit packets. -/
theorem buffer_represents_its_slots (b : ReceiveBuffer) :
    (Lts.Reachable system b → b.Stored
      ∧ ∀ i < b.capacity, ∀ j < b.capacity, (b.slot i).occupied = true →
        (b.slot j).occupied = true → (b.slot i).payloadIndex = (b.slot j).payloadIndex → i = j)
    ∧ (Lts.Reaches system StopsAtPreserved b → b.Coherent) := by
  refine ⟨?_, coherent_of_reaches⟩
  intro h
  have hs := stored_of_reaches h
  exact ⟨hs, fun i hi j hj => hs.payloadIndex_inj hi hj⟩

def exampleBuffer : ReceiveBuffer :=
  (make (.ofNat 0) 3).get (by decide)

theorem exampleBuffer_reached {guard : ReceiveBuffer → Op → Prop} :
    Lts.Reaches system guard exampleBuffer :=
  .start ⟨.ofNat 0, 3, (Option.some_get _).symm⟩

/-- A message of one packet. -/
def exampleData (sequence : Nat) (message : Fin (2 ^ 32)) : Op :=
  .insert ⟨.data ⟨{ sequence := .ofNat sequence, messageNumber := message, boundary := .solo },
    [1]⟩, message.isLt⟩

instance neZeroWord : NeZero (2 ^ 32) := ⟨by decide⟩

/-- The peer gives up a range that holds a message. -/
def preservedRun : ReceiveBuffer :=
  [exampleData 1 10, .dropPeerRequestedRange ⟨.ofNat 0, .ofNat 2⟩].foldl apply exampleBuffer

theorem buffer_represents_its_slots_preservedRun :
    (preservedRun.slot 0).occupied = true ∧ (preservedRun.slot 0).header.sequence = .ofNat 1
      ∧ preservedRun.firstStored = .ofNat 1 ∧ preservedRun.Stored ∧ preservedRun.Coherent := by
  have hreaches : Lts.Reaches system StopsAtPreserved preservedRun :=
    exampleBuffer_reached.foldl (by decide +kernel)
  obtain ⟨hstored, hcoherent⟩ := buffer_represents_its_slots preservedRun
  exact ⟨by decide +kernel, by decide +kernel, by decide +kernel,
    (hstored (hreaches.mono fun _ _ _ => trivial)).1, hcoherent hreaches⟩

/-- The payload of 1 is rejected and 2 is stored when the peer gives up 0 to 2. -/
def staleRun : ReceiveBuffer :=
  [exampleData 1 10, .discardMessagePayload (.ofNat 1), exampleData 2 11,
    .dropPeerRequestedRange ⟨.ofNat 0, .ofNat 2⟩].foldl apply exampleBuffer

/-- The packet 2 is behind the frontier, in the slot of 5. -/
theorem stale_packet_behind_frontier :
    Lts.Reachable system staleRun ∧ staleRun.firstStored = .ofNat 3
      ∧ (staleRun.slot 2).occupied = true ∧ (staleRun.slot 2).header.sequence = .ofNat 2
      ∧ ¬ staleRun.Coherent := by
  have hoccupied : (staleRun.slot 2).occupied = true := by decide +kernel
  have hsequence : (staleRun.slot 2).header.sequence = .ofNat 2 := by decide +kernel
  have hfirst : staleRun.firstStored = .ofNat 3 := by decide +kernel
  refine ⟨exampleBuffer_reached.foldl (by decide +kernel), hfirst, hoccupied, hsequence, ?_⟩
  intro hcoherent
  have heq := hcoherent 2 (by decide +kernel) hoccupied
  rw [hsequence, hfirst] at heq
  revert heq
  decide +kernel

end ReceiveBuffer

end Srt
