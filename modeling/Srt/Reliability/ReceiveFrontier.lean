/-
# `ReceiveFrontier` — what each operation does to the window

`Tight` is the window at rest: the acknowledgement is as far as it goes and
the head is not a dropped marker.  One lemma an operation says that it leads
from one window at rest to another (`Leads`), that neither frontier nor
acknowledgement goes back, and that a settled position stays settled until
the frontier passes it.  Each states what it needs: a packet that is stored
has to satisfy `Q`, a position that is given up has to be in `A`.

Three operations do not always lead to a window at rest, and their lemmas say
when they do: a drop requested by the peer while a rejected payload is held,
a discard that lands on a settled slot, and an acknowledged range that
reaches half the number space ahead.
-/
import Srt.Reliability.ReceiveWindow

namespace Srt

open ReceiveBuffer SequenceNumber

namespace ReceiveBuffer

variable {isn : SequenceNumber} {A : Nat → Prop} {Q : Nat → DataHeader → Bytes → Prop}
variable {b c d : ReceiveBuffer} {F N F' N' : Nat}

/-- The window at rest. -/
structure Tight (isn : SequenceNumber) (A : Nat → Prop) (Q : Nat → DataHeader → Bytes → Prop)
    (b : ReceiveBuffer) (F N : Nat) : Prop extends Window isn A Q b F N where
  maximal : Maximal b F N
  head : (b.slot 0).dropped = false

/-- Nothing goes back. -/
structure Evolves (b c : ReceiveBuffer) (F N F' N' : Nat) : Prop where
  capacity : c.capacity = b.capacity
  first_le : F ≤ F'
  ack_le : N ≤ N'
  settled : ∀ p, F' ≤ p → p < F + b.capacity → (b.slot (p - F)).settled = true →
    (c.slot (p - F')).settled = true
  classified : c.classifiedLossPrefix = b.classifiedLossPrefix - (F' - F)

theorem Evolves.refl (b : ReceiveBuffer) (F N : Nat) : Evolves b b F N F N :=
  ⟨rfl, le_rfl, le_rfl, fun _ _ _ h => h, by simp⟩

theorem Evolves.trans {F'' N'' : Nat} (h : Evolves b c F N F' N') (h' : Evolves c d F' N' F'' N'') :
    Evolves b d F N F'' N'' := by
  have hcap := h.capacity
  have hle := h.first_le
  have hle' := h'.first_le
  refine ⟨h'.capacity.trans hcap, by omega, h.ack_le.trans h'.ack_le, ?_, ?_⟩
  · intro p hp hlt hs
    exact h'.settled p hp (by omega) (h.settled p (by omega) hlt hs)
  rw [h'.classified, h.classified]
  omega

/-- From one window at rest to another. -/
def Leads (isn : SequenceNumber) (A : Nat → Prop) (Q : Nat → DataHeader → Bytes → Prop)
    (b : ReceiveBuffer) (F N : Nat) (c : ReceiveBuffer) : Prop :=
  ∃ F' N', Tight isn A Q c F' N' ∧ Evolves b c F N F' N'

theorem Tight.leads (h : Tight isn A Q b F N) : Leads isn A Q b F N b := ⟨F, N, h, .refl b F N⟩

theorem evolves_ack {n : SequenceNumber} (hN : N ≤ N') :
    Evolves b { b with nextAck := n } F N F N' :=
  ⟨rfl, le_rfl, hN, fun _ _ _ h => h, by simp⟩

variable {k : Nat}

theorem Shifted.evolves (h : Shifted b c k) : Evolves b c F N (F + k) N := by
  have hcap := h.capacity
  refine ⟨hcap, by omega, le_rfl, ?_, ?_⟩
  · intro p hp hlt hs
    rw [h.kept (p - (F + k)) (by omega), show p - (F + k) + k = p - F by omega]
    exact hs
  rw [h.classified]
  congr 1
  omega

/-- Passing settled slots from rest ends at rest when the head is not dropped. -/
theorem Tight.pass (h : Tight isn A Q b F N) (hk : Passed b c k)
    (hhead : (c.slot 0).dropped = false) : Leads isn A Q b F N c := by
  obtain ⟨-, hw, hmax⟩ := h.toWindow.pass h.maximal hk
  exact ⟨F + k, N, ⟨hw, hmax, hhead⟩, hk.evolves⟩

/-- Trimming comes to rest from a maximal acknowledgement. -/
theorem Window.trim (h : Window isn A Q b F N) (hmax : Maximal b F N) (hs : b.Stored) :
    Leads isn A Q b F N b.trimDroppedPrefix := by
  obtain ⟨k, hk⟩ := trimDroppedPrefix_spec hs
  obtain ⟨-, hw, hmax'⟩ := h.pass hmax hk.toPassed
  exact ⟨F + k, N, ⟨hw, hmax', hk.head⟩, hk.evolves⟩

/-- Acknowledging and trimming come to rest from any window. -/
theorem Window.rest (h : Window isn A Q b F N) (hs : b.Stored) :
    Leads isn A Q b F N b.advanceAcknowledgement.trimDroppedPrefix := by
  obtain ⟨N', hN, -, heq, hw, hmax, -⟩ := h.advanceAcknowledgement
  obtain ⟨F'', N'', htight, hev⟩ := hw.trim hmax hs.advanceAcknowledgement
  refine ⟨F'', N'', htight, Evolves.trans ?_ hev⟩
  rw [heq]
  exact evolves_ack hN

theorem Leads.after (h : Evolves b c F N F' N') (h' : Leads isn A Q c F' N' d) :
    Leads isn A Q b F N d := by
  obtain ⟨F'', N'', htight, hev⟩ := h'
  exact ⟨F'', N'', htight, h.trans hev⟩

theorem Leads.trans (h : Leads isn A Q b F N c)
    (h' : ∀ F' N', Tight isn A Q c F' N' → Leads isn A Q c F' N' d) : Leads isn A Q b F N d := by
  obtain ⟨F', N', htight, hev⟩ := h
  exact (h' F' N' htight).after hev

variable {i : Nat}

/-- One slot changed, none became unsettled, and nothing moved. -/
theorem evolves_set (hcap : c.capacity = b.capacity)
    (hclass : c.classifiedLossPrefix = b.classifiedLossPrefix)
    (hslots : ∀ j < b.capacity, j ≠ i → c.slot j = b.slot j)
    (hi : (b.slot i).settled = true → (c.slot i).settled = true) : Evolves b c F N F N := by
  refine ⟨hcap, le_rfl, le_rfl, ?_, by rw [hclass]; simp⟩
  intro p hp hlt hs
  by_cases hpi : p - F = i
  · rw [hpi] at hs ⊢
    exact hi hs
  rw [hslots (p - F) (by omega) hpi]
  exact hs

/-! ## Queries and deadlines -/

theorem Tight.firstCompleteMessage (h : Tight isn A Q b F N) :
    Tight isn A Q b.firstCompleteMessage.2 F N := by
  obtain ⟨q, hq⟩ := b.firstCompleteMessage_eq
  rw [hq]
  exact ⟨⟨h.first, h.ack, h.le, h.near, h.coherent, h.carried, h.passed, h.settled⟩, h.maximal,
    h.head⟩

theorem Tight.firstBufferedPacket (h : Tight isn A Q b F N) :
    Tight isn A Q b.firstBufferedPacket.2 F N := by
  obtain ⟨q, hq⟩ := b.firstBufferedPacket_eq
  rw [hq]
  exact ⟨⟨h.first, h.ack, h.le, h.near, h.coherent, h.carried, h.passed, h.settled⟩, h.maximal,
    h.head⟩

/-- Two slots hold the same packet, or the same marker. -/
structure SameHold (s t : ReceiveSlot) : Prop where
  occupied : s.occupied = t.occupied
  dropped : s.dropped = t.dropped
  header : s.header = t.header
  payloadIndex : s.payloadIndex = t.payloadIndex

theorem SameHold.settled {s t : ReceiveSlot} (h : SameHold s t) : s.settled = t.settled := by
  unfold ReceiveSlot.settled
  rw [h.occupied, h.dropped]

/-- Deadlines, read offsets and rejections are not part of the window. -/
theorem Tight.congr (h : Tight isn A Q b F N) (hcap : c.capacity = b.capacity)
    (hfirst : c.firstStored = b.firstStored) (hack : c.nextAck = b.nextAck)
    (hpayloads : c.payloads = b.payloads)
    (hslots : ∀ j < b.capacity, SameHold (c.slot j) (b.slot j)) : Tight isn A Q c F N := by
  have hpos : 0 < b.capacity := b.slots.capacity_pos
  have hle := h.le
  refine ⟨⟨hfirst.trans h.first, hack.trans h.ack, h.le, h.near, ?_, ?_, h.passed, ?_⟩, ?_, ?_⟩
  · intro i hi ho
    have hs := hslots i (by omega)
    rw [hs.occupied] at ho
    rw [hs.header]
    exact h.coherent i (by omega) ho
  · intro i hi ho
    have hs := hslots i (by omega)
    rw [hs.occupied] at ho
    rw [hs.header, hs.payloadIndex, hpayloads]
    exact h.carried i (by omega) ho
  · intro i hi hset
    have hs := hslots i (by omega)
    rw [hs.settled] at hset
    exact h.settled i (by omega) hset
  · intro hlt
    rw [(hslots (N - F) (by omega)).settled]
    exact h.maximal (by omega)
  rw [(hslots 0 hpos).dropped]
  exact h.head

theorem evolves_congr (hcap : c.capacity = b.capacity)
    (hclass : c.classifiedLossPrefix = b.classifiedLossPrefix)
    (hslots : ∀ j < b.capacity, SameHold (c.slot j) (b.slot j)) : Evolves b c F N F N := by
  refine ⟨hcap, le_rfl, le_rfl, ?_, by rw [hclass]; simp⟩
  intro p hp hlt hs
  rw [(hslots (p - F) (by omega)).settled]
  exact hs

theorem sameHold_set {s : ReceiveSlot} (hi : i < b.capacity) (hs : SameHold s (b.slot i)) :
    ∀ j < b.capacity, SameHold ((b.setSlot i s).slot j) (b.slot j) := by
  intro j hj
  rw [slot_setSlot hi hj]
  split
  · next hji =>
    rw [hji]
    exact hs
  · exact ⟨rfl, rfl, rfl, rfl⟩

theorem markGapAt_leads (h : Tight isn A Q b F N) (sequence : SequenceNumber) (deadline : Nat) :
    Tight isn A Q (b.markGapAt sequence deadline) F N
      ∧ Evolves b (b.markGapAt sequence deadline) F N F N := by
  unfold markGapAt
  cases ho : b.offsetOf sequence with
  | none => exact ⟨h, .refl b F N⟩
  | some i =>
    obtain ⟨hi, -⟩ := offsetOf_eq_some_iff.1 ho
    dsimp only
    split
    · have hsame := sameHold_set (s := { b.slot i with gapDeadline := deadline }) hi
        ⟨rfl, rfl, rfl, rfl⟩
      exact ⟨h.congr rfl rfl rfl rfl hsame, evolves_congr rfl rfl hsame⟩
    · exact ⟨h, .refl b F N⟩

variable {n : Nat}

theorem markGapFrom_leads {deadline : Nat} {sequence : SequenceNumber} (h : Tight isn A Q b F N) :
    Tight isn A Q (markGapFrom deadline n sequence b) F N
      ∧ Evolves b (markGapFrom deadline n sequence b) F N F N := by
  induction n generalizing b sequence with
  | zero => exact ⟨h, .refl b F N⟩
  | succ n ih =>
    obtain ⟨htight, hev⟩ := markGapAt_leads h sequence deadline
    obtain ⟨htight', hev'⟩ := @ih _ sequence.next htight
    exact ⟨htight', hev.trans hev'⟩

theorem Tight.markGap (h : Tight isn A Q b F N) (range : SequenceRange) (deadline : Nat) :
    Tight isn A Q (b.markGap range deadline) F N
      ∧ Evolves b (b.markGap range deadline) F N F N := by
  unfold ReceiveBuffer.markGap
  dsimp only
  split
  · exact ⟨h, .refl b F N⟩
  · exact markGapFrom_leads h

/-! ## Insertion and rejection -/

/-- A packet is stored where its number says. -/
theorem Window.occupySlot {packet : DataPacket} (h : Window isn A Q b F N) (hs : b.Stored)
    (hi : i < b.capacity) (hsequence : packet.header.sequence = isn.advanced (F + i))
    (hA : A (F + i)) (hQ : Q (F + i) packet.header packet.payload) :
    Window isn A Q (b.occupySlot i packet) F N := by
  have hslot : (b.occupySlot i packet).slot i = {
      header := packet.header
      payloadIndex := (b.payloads.acquire packet.payload).1
      payloadSize := packet.payload.length
      occupied := true } := by
    show SlotRing.get (SlotRing.set b.slots i _) i = _
    rw [SlotRing.get_set_self]
  refine h.set (i := i) rfl rfl rfl ?_ ?_ (fun _ => hA) ?_
  · intro j hj hji
    exact b.slots.get_set_ne hi hj hji _
  · intro j hj _ ho
    refine b.payloads.get_acquire_of_ne _ ?_
    intro he
    refine hs.leases.acquire_notMem packet.payload ?_
    rw [← he]
    refine Multiset.mem_sum.2 ⟨b.slots.position j, Finset.mem_range.2 (b.slots.position_lt j), ?_⟩
    show (b.slot j).payloadIndex ∈ (b.slot j).lease
    rw [ReceiveSlot.lease_of_occupied ho]
    exact Multiset.mem_singleton_self _
  intro _
  rw [hslot]
  refine ⟨hsequence, ?_⟩
  show Q _ packet.header ((b.payloads.acquire packet.payload).2.get _)
  rw [PayloadPool.get_acquire]
  exact hQ

theorem evolves_occupySlot (packet : DataPacket) (hi : i < b.capacity) :
    Evolves b (b.occupySlot i packet) F N F N := by
  refine evolves_set (i := i) rfl rfl ?_ ?_
  · intro j hj hji
    exact b.slots.get_set_ne hi hj hji _
  intro _
  show (SlotRing.get (SlotRing.set b.slots i _) i).settled = true
  rw [SlotRing.get_set_self]
  rfl

/-- An insertion, provided that a packet of the window may be stored. -/
theorem Tight.insert {packet : PacketView} (h : Tight isn A Q b F N) (hs : b.Stored)
    (ht : packet.Typed) (hnew : ∀ p, packet = .data p → ∀ i < b.capacity,
      p.header.sequence = isn.advanced (F + i) → A (F + i) ∧ Q (F + i) p.header p.payload) :
    Leads isn A Q b F N (b.insert packet).2 := by
  cases packet with
  | control header payload => exact h.leads
  | data packet =>
    unfold ReceiveBuffer.insert
    dsimp only
    split
    · exact h.leads
    split
    · exact h.leads
    cases ho : b.offsetOf packet.header.sequence with
    | none => exact h.leads
    | some i =>
      obtain ⟨hi, hseq⟩ := offsetOf_eq_some_iff.1 ho
      rw [h.first, advanced_advanced] at hseq
      obtain ⟨hA, hQ⟩ := hnew packet rfl i hi hseq
      dsimp only
      split
      · exact h.leads
      next hfree =>
      have hempty : (b.slot i).occupied = false := by
        cases hocc : (b.slot i).occupied <;> simp_all
      have hstored := hs.occupySlot hempty ht
      have hw := h.toWindow.occupySlot hs hi hseq hA hQ
      have hev := evolves_occupySlot (b := b) (F := F) (N := N) packet hi
      obtain ⟨N', hN, -, heq, hack, hmax, -⟩ := hw.advanceAcknowledgement
      have hevack : Evolves b (b.occupySlot i packet).advanceAcknowledgement F N F N' := by
        refine hev.trans ?_
        rw [heq]
        exact evolves_ack hN
      dsimp only
      split
      · exact (hack.trim hmax hstored.advanceAcknowledgement).after hevack
      refine ⟨F, N', ⟨hack, hmax, ?_⟩, hevack⟩
      rw [heq]
      show (SlotRing.get (SlotRing.set b.slots i _) 0).dropped = false
      by_cases hi0 : 0 = i
      · rw [← hi0, SlotRing.get_set_self]
      rw [b.slots.get_set_ne hi b.slots.capacity_pos hi0]
      exact h.head

theorem Tight.discardMessagePayload (h : Tight isn A Q b F N) (hs : b.Stored)
    (sequence : SequenceNumber) : Leads isn A Q b F N (b.discardMessagePayload sequence) := by
  unfold ReceiveBuffer.discardMessagePayload
  cases hf : b.find sequence with
  | none => exact h.leads
  | some i =>
    obtain ⟨hi, -, hread, -⟩ := find_eq_some_iff.1 hf
    have hsame := sameHold_set (s := { b.slot i with rejectedPayload := true }) hi
      ⟨rfl, rfl, rfl, rfl⟩
    have hreject := hs.reject (i := i) (occupied_of_readable hread) (rejected_of_readable hread)
    have htight : Tight isn A Q (((b.invalidateDeliveryQueries.indexOccupied i false
        false).setSlot i { b.slot i with rejectedPayload := true }).addRejectedMessage
          (b.slot i).header.messageNumber) F N := h.congr rfl rfl rfl rfl hsame
    refine Leads.after ?_ (htight.toWindow.trim htight.maximal hreject)
    exact evolves_congr rfl rfl hsame

/-! ## Pops -/

theorem Tight.popMessage (h : Tight isn A Q b F N) (hs : b.Stored) (size : Nat) :
    Leads isn A Q b F N (b.popMessage size).2 := by
  have hspec := popMessage_spec hs size
  generalize b.popMessage size = out at hspec
  cases hspec with
  | failed e => exact h.leads
  | taken found passed trimmed rejected discarding =>
    exact h.pass (passed.trans trimmed.toPassed) trimmed.head

/-- A readable packet gives way to a marker. -/
theorem Window.deliverSlot (h : Window isn A Q b F N) (hs : b.Stored)
    (hi : i < b.capacity) (hread : (b.slot i).readable = true) :
    Window isn A Q (b.deliverSlot i true) F N ∧ Evolves b (b.deliverSlot i true) F N F N := by
  have hslot : ∀ j < b.capacity, j ≠ i → (b.deliverSlot i true).slot j = b.slot j :=
    fun j hj hji => slot_deliverSlot_of_ne hi hj hji true
  have hself : ((b.deliverSlot i true).slot i).occupied = false
      ∧ ((b.deliverSlot i true).slot i).settled = true := by
    show (SlotRing.get (SlotRing.set b.slots i _) i).occupied = false
      ∧ (SlotRing.get (SlotRing.set b.slots i _) i).settled = true
    rw [SlotRing.get_set_self]
    exact ⟨rfl, rfl⟩
  have hocc := occupied_of_readable hread
  refine ⟨h.set (i := i) rfl rfl rfl hslot ?_ ?_ ?_, evolves_set rfl rfl hslot fun _ => hself.2⟩
  · intro j hj hji ho
    exact hs.get_release hi hj hji hocc ho
  · intro _
    exact h.settled i hi (ReceiveSlot.settled_of_occupied hocc)
  intro ho
  rw [hself.1] at ho
  cases ho

theorem Tight.popMessageUnordered (h : Tight isn A Q b F N) (hs : b.Stored) (size : Nat) :
    Leads isn A Q b F N (b.popMessageUnordered size).2 := by
  have hquery := h.firstCompleteMessage
  have hstored := hs.firstCompleteMessage
  have hev : Evolves b b.firstCompleteMessage.2 F N F N := by
    obtain ⟨q, hq⟩ := b.firstCompleteMessage_eq
    rw [hq]
    exact ⟨rfl, le_rfl, le_rfl, fun _ _ _ h => h, by simp⟩
  unfold ReceiveBuffer.popMessageUnordered
  generalize b.firstCompleteMessage = answer at hquery hstored hev
  obtain ⟨message, c⟩ := answer
  dsimp only at hquery hstored hev ⊢
  refine Leads.after hev ?_
  cases message with
  | none => exact hquery.leads
  | some message =>
    dsimp only
    split
    · exact hquery.popMessage hstored size
    split
    · exact hquery.leads
    cases hf : c.find message.firstSequence with
    | none => exact hquery.leads
    | some i =>
      obtain ⟨hi, -, hread, -⟩ := find_eq_some_iff.1 hf
      dsimp only
      split
      · exact hquery.leads
      split
      · exact hquery.leads
      have hclean : Tight isn A Q c.invalidateDeliveryQueries F N :=
        hquery.congr rfl rfl rfl rfl (fun _ _ => ⟨rfl, rfl, rfl, rfl⟩)
      have hsclean : c.invalidateDeliveryQueries.Stored := hstored
      obtain ⟨hw, hev'⟩ := hclean.toWindow.deliverSlot hsclean hi hread
      refine Leads.after ?_ (hw.rest (hsclean.deliverSlot hread true))
      exact ⟨hev'.capacity, hev'.first_le, hev'.ack_le, hev'.settled, hev'.classified⟩

/-- The head packet after `copied` of its bytes were read. -/
def readHead (b : ReceiveBuffer) (copied : Nat) : ReceiveBuffer :=
  ({ b with bufferedPayloadBytes := b.bufferedPayloadBytes - copied }).setSlot 0
    { b.slot 0 with payloadOffset := (b.slot 0).payloadOffset + copied }

/-- A stream reads from the head and passes it once it is read. -/
theorem Stored.streamFrom_closed {R : ReceiveBuffer → ReceiveBuffer → Prop} (refl : ∀ b, R b b)
    (trans : ∀ {b c d}, R b c → R c d → R b d) (read : ∀ b copied, R b (b.readHead copied))
    (pass : ∀ {b c}, Passed b.invalidateDeliveryQueries c 1 → c.Stored → R b c.trimDroppedPrefix)
    {due : PacketTimestamp → Bool} {fuel space : Nat} (hs : b.Stored) :
    R b (ReceiveBuffer.streamFrom due fuel space b).2 := by
  induction fuel generalizing b space with
  | zero => exact refl b
  | succ fuel ih =>
    unfold ReceiveBuffer.streamFrom
    split
    · exact refl b
    cases hf : b.find b.firstStored with
    | none => exact refl b
    | some i =>
      obtain ⟨hi, hseq, hread, -⟩ := find_eq_some_iff.1 hf
      obtain rfl : i = 0 := by
        have hcap : b.capacity < 2 ^ 30 := b.capacity_lt
        have hzero : b.firstStored.advanced 0 = b.firstStored.advanced i := by simpa using hseq
        exact ((advanced_inj_of_lt (by omega) (by omega)).1 hzero).symm
      dsimp only
      split
      · exact refl b
      have hconsume : (b.readHead (min ((b.slot 0).payloadSize - (b.slot 0).payloadOffset)
          space)).invalidateDeliveryQueries.Stored :=
        hs.consume (occupied_of_readable hread) (Nat.min_le_left ..)
      have hread' : ∀ copied, ((b.readHead copied).slot 0).readable = true := by
        intro copied
        show (SlotRing.get (SlotRing.set b.slots 0 _) 0).readable = true
        rw [SlotRing.get_set_self]
        exact hread
      split
      · exact read b _
      have hpos : 0 < b.capacity := hi
      have hone := deliverSlots_spec (n := 1) (i := 0) hconsume hpos
        (fun j _ hj => by rw [show j = 0 by omega]; exact hread' _)
      have hpassed := hone.passed hpos (fun j hj => by
        rw [show j = 0 by omega]
        exact ReceiveSlot.settled_of_occupied (occupied_of_readable (hread' _)))
      have hsone := (hconsume.deliverSlot (hread' _) false).advanceFrontier 1
      exact trans (read b _) (trans (pass hpassed hsone) (ih hsone.trimDroppedPrefix))

/-- The head packet is read and, when nothing is left of it, passed. -/
theorem Tight.streamFrom {due : PacketTimestamp → Bool} {fuel space : Nat} (h : Tight isn A Q b F N)
    (hs : b.Stored) : Leads isn A Q b F N (streamFrom due fuel space b).2 := by
  refine hs.streamFrom_closed (R := fun b c => ∀ {F N}, Tight isn A Q b F N → Leads isn A Q b F N c)
    (fun b _ _ h => h.leads) (fun hc hd _ _ h => (hc h).trans fun _ _ h' => hd h') ?_ ?_ h
  · intro b copied F N h
    have hsame := sameHold_set (s := { b.slot 0 with
      payloadOffset := (b.slot 0).payloadOffset + copied }) b.slots.capacity_pos
      ⟨rfl, rfl, rfl, rfl⟩
    have htight : Tight isn A Q (b.readHead copied) F N := h.congr rfl rfl rfl rfl hsame
    exact ⟨F, N, htight, evolves_congr rfl rfl hsame⟩
  intro b c hpassed hc F N h
  obtain ⟨k, hk⟩ := trimDroppedPrefix_spec hc
  have hclean : Tight isn A Q b.invalidateDeliveryQueries F N :=
    h.congr rfl rfl rfl rfl (fun _ _ => ⟨rfl, rfl, rfl, rfl⟩)
  have hev : Evolves b b.invalidateDeliveryQueries F N F N :=
    evolves_congr rfl rfl (fun _ _ => ⟨rfl, rfl, rfl, rfl⟩)
  exact .after hev (hclean.pass (hpassed.trans hk.toPassed) hk.head)

theorem Tight.popStream (h : Tight isn A Q b F N) (hs : b.Stored) (size : Nat)
    (due : PacketTimestamp → Bool) : Leads isn A Q b F N (b.popStream size due).2 := by
  unfold ReceiveBuffer.popStream
  split
  · exact h.leads
  cases hf : b.find b.firstStored with
  | none => exact h.leads
  | some i =>
    dsimp only
    split
    · exact h.leads
    · exact h.streamFrom hs

/-! ## Drops -/

/-- A slot is turned into a dropped marker; the rest stays. -/
theorem dropSlot_spec (hs : b.Stored) (hi : i < b.capacity) :
    ((b.dropSlot i).slot i).dropped = true ∧ ((b.dropSlot i).slot i).occupied = false
      ∧ (b.dropSlot i).capacity = b.capacity ∧ (b.dropSlot i).firstStored = b.firstStored
      ∧ (b.dropSlot i).nextAck = b.nextAck
      ∧ (b.dropSlot i).classifiedLossPrefix = b.classifiedLossPrefix
      ∧ (b.dropSlot i).discardingMessage = b.discardingMessage
      ∧ (∀ j < b.capacity, j ≠ i → (b.dropSlot i).slot j = b.slot j)
      ∧ ∀ j < b.capacity, j ≠ i → (b.slot j).occupied = true →
        (b.dropSlot i).payloads.get (b.slot j).payloadIndex
          = b.payloads.get (b.slot j).payloadIndex := by
  unfold dropSlot
  dsimp only
  split
  · next ho =>
    rw [removeRejectedMessage_eq]
    refine ⟨?_, ?_, rfl, rfl, rfl, rfl, rfl, ?_, ?_⟩
    · show (SlotRing.get (SlotRing.set b.slots i _) i).dropped = true
      rw [SlotRing.get_set_self]
    · show (SlotRing.get (SlotRing.set b.slots i _) i).occupied = false
      rw [SlotRing.get_set_self]
    · intro j hj hji
      exact b.slots.get_set_ne hi hj hji _
    intro j hj hji hoj
    exact hs.get_release hi hj hji ho hoj
  next ho =>
  refine ⟨?_, ?_, rfl, rfl, rfl, rfl, rfl, ?_, fun _ _ _ _ => rfl⟩
  · show (SlotRing.get (SlotRing.set b.slots i _) i).dropped = true
    rw [SlotRing.get_set_self]
  · show (SlotRing.get (SlotRing.set b.slots i _) i).occupied = false
    rw [SlotRing.get_set_self]
    simpa using ho
  intro j hj hji
  exact b.slots.get_set_ne hi hj hji _

/-- The progress of a drop over the offsets `[i, i + n)` of `b`: each slot is
dropped or left, and the first one that was left is remembered. -/
structure DropState (b : ReceiveBuffer) (i n : Nat) (p : DropProgress) : Prop where
  stored : p.buffer.Stored
  capacity : p.buffer.capacity = b.capacity
  first : p.buffer.firstStored = b.firstStored
  ack : p.buffer.nextAck = b.nextAck
  classified : p.buffer.classifiedLossPrefix = b.classifiedLossPrefix
  discarding : p.buffer.discardingMessage = b.discardingMessage
  outside : ∀ j < b.capacity, ¬ (i ≤ j ∧ j < i + n) → p.buffer.slot j = b.slot j
  inside : ∀ j, i ≤ j → j < i + n →
    ((p.buffer.slot j).dropped = true ∧ (p.buffer.slot j).occupied = false)
      ∨ p.buffer.slot j = b.slot j
  payload : ∀ j < b.capacity, p.buffer.slot j = b.slot j → (b.slot j).occupied = true →
    p.buffer.payloads.get (b.slot j).payloadIndex = b.payloads.get (b.slot j).payloadIndex
  none_preserved : p.firstPreserved = none → p.preserveThrough = none
    ∧ ∀ j, i ≤ j → j < i + n → (p.buffer.slot j).dropped = true
  some_preserved : ∀ s, p.firstPreserved = some s → ∃ m, i ≤ m ∧ m < i + n
    ∧ s = b.firstStored.advanced m ∧ p.buffer.slot m = b.slot m ∧ (b.slot m).occupied = true
    ∧ ∀ j, i ≤ j → j < m → (p.buffer.slot j).dropped = true

theorem dropState_start (h : b.Stored) (i : Nat) : DropState b i 0 { buffer := b } :=
  ⟨h, rfl, rfl, rfl, rfl, rfl, fun _ _ _ => rfl, by omega, fun _ _ _ _ => rfl,
    fun _ => ⟨rfl, by omega⟩, by simp⟩

/-- What one round can do. -/
theorem dropRound_cases (preservation : DropPreservation) (p : DropProgress) (i : Nat) :
    (∃ n, dropRound preservation p i = { p with buffer := p.buffer.dropSlot i, newlyDropped := n })
      ∨ ((p.buffer.slot i).occupied = true
        ∧ (p.buffer.slot i).header.sequence = p.buffer.firstStored.advanced i
        ∧ ∃ through, dropRound preservation p i = { p with
          firstPreserved := some (p.firstPreserved.getD (p.buffer.slot i).header.sequence)
          preserveThrough := through })
      ∨ (p.preserveThrough ≠ none ∧ dropRound preservation p i = p) := by
  unfold dropRound
  cases preservation with
  | none => exact .inl ⟨_, rfl⟩
  | receivedPackets =>
    dsimp only
    split
    · next hkeep =>
      simp only [Bool.and_eq_true, beq_iff_eq] at hkeep
      exact .inr (.inl ⟨hkeep.1.1, hkeep.2, _, rfl⟩)
    · exact .inl ⟨_, rfl⟩
  | completeMessages =>
    dsimp only
    split
    · next hthrough =>
      refine .inr (.inr ⟨?_, rfl⟩)
      intro hnone
      rw [hnone] at hthrough
      cases hthrough
    cases hlast : p.buffer.completeMessageLastOffset i with
    | none => exact .inl ⟨_, rfl⟩
    | some last =>
      have hslot : (p.buffer.slot i).occupied = true
          ∧ (p.buffer.slot i).header.sequence = p.buffer.firstStored.advanced i := by
        unfold completeMessageLastOffset slotAt at hlast
        by_cases hc : ((p.buffer.slot i).occupied
            && (p.buffer.slot i).header.sequence == p.buffer.firstStored.advanced i) = true
        · simpa using hc
        rw [if_neg hc] at hlast
        cases hlast
      exact .inr (.inl ⟨hslot.1, hslot.2, _, rfl⟩)

variable {p : DropProgress}

section

variable (h : DropState b i n p) (hin : i + n < b.capacity)
include h hin

theorem DropState.drop :
    DropState b i (n + 1) { p with buffer := p.buffer.dropSlot (i + n), newlyDropped := k } := by
  have hcap := h.capacity
  obtain ⟨hdropped, hempty, hcap', hfirst, hack, hclass, hdiscard, hother, hcell⟩ :=
    dropSlot_spec h.stored (i := i + n) (by omega)
  refine ⟨h.stored.dropSlot _, hcap'.trans hcap, hfirst.trans h.first, hack.trans h.ack,
    hclass.trans h.classified, hdiscard.trans h.discarding, ?_, ?_, ?_, ?_, ?_⟩
  · intro j hj hout
    exact (hother j (by omega) (by omega)).trans (h.outside j hj (by omega))
  · intro j hj hjn
    by_cases hji : j = i + n
    · rw [hji]
      exact .inl ⟨hdropped, hempty⟩
    rw [hother j (by omega) hji]
    exact h.inside j hj (by omega)
  · intro j hj hsame ho
    dsimp only at hsame ⊢
    have hji : j ≠ i + n := by
      rintro rfl
      rw [← hsame, hempty] at ho
      cases ho
    rw [hother j (by omega) hji] at hsame
    have hcell' := hcell j (by omega) hji (by rw [hsame]; exact ho)
    rw [hsame] at hcell'
    rw [hcell']
    exact h.payload j hj hsame ho
  · intro hnone
    obtain ⟨hthrough, hall⟩ := h.none_preserved hnone
    refine ⟨hthrough, ?_⟩
    intro j hj hjn
    by_cases hji : j = i + n
    · rw [hji]
      exact hdropped
    rw [hother j (by omega) hji]
    exact hall j hj (by omega)
  intro s hsome
  obtain ⟨m, him, hmn, hseq, hkept, hocc, hbefore⟩ := h.some_preserved s hsome
  refine ⟨m, him, by omega, hseq, ?_, hocc, ?_⟩
  · rw [hother m (by omega) (by omega)]
    exact hkept
  intro j hj hjm
  rw [hother j (by omega) (by omega)]
  exact hbefore j hj hjm

theorem DropState.keep {through : Option Nat} (ho : (p.buffer.slot (i + n)).occupied = true)
    (hseq : (p.buffer.slot (i + n)).header.sequence = p.buffer.firstStored.advanced (i + n)) :
    DropState b i (n + 1) { p with
      firstPreserved := some (p.firstPreserved.getD (p.buffer.slot (i + n)).header.sequence)
      preserveThrough := through } := by
  have hsame := h.outside (i + n) hin (by omega)
  refine ⟨h.stored, h.capacity, h.first, h.ack, h.classified, h.discarding, ?_, ?_,
    h.payload, nofun, ?_⟩
  · intro j hj hout
    exact h.outside j hj (by omega)
  · intro j hj hjn
    by_cases hji : j = i + n
    · rw [hji]
      exact .inr hsame
    · exact h.inside j hj (by omega)
  rintro s ⟨⟩
  cases hp : p.firstPreserved with
  | none =>
    refine ⟨i + n, by omega, by omega, ?_, hsame, by rw [← hsame]; exact ho, ?_⟩
    · rw [Option.getD_none, hseq, h.first]
    intro j hj hjn
    exact (h.none_preserved hp).2 j hj hjn
  | some s =>
    obtain ⟨m, him, hmn, hrest⟩ := h.some_preserved s hp
    exact ⟨m, him, by omega, hrest⟩

theorem DropState.round (preservation : DropPreservation) :
    DropState b i (n + 1) (dropRound preservation p (i + n)) := by
  rcases dropRound_cases preservation p (i + n) with ⟨k, heq⟩ | ⟨ho, hseq, through, heq⟩ |
    ⟨hthrough, heq⟩
  · rw [heq]
    exact h.drop hin
  · rw [heq]
    exact h.keep hin ho hseq
  rw [heq]
  have hsame := h.outside (i + n) hin (by omega)
  refine ⟨h.stored, h.capacity, h.first, h.ack, h.classified, h.discarding, ?_, ?_,
    h.payload, ?_, ?_⟩
  · intro j hj hout
    exact h.outside j hj (by omega)
  · intro j hj hjn
    by_cases hji : j = i + n
    · rw [hji]
      exact .inr hsame
    · exact h.inside j hj (by omega)
  · intro hnone
    exact absurd (h.none_preserved hnone).1 hthrough
  intro s hs
  obtain ⟨m, him, hmn, hrest⟩ := h.some_preserved s hs
  exact ⟨m, him, by omega, hrest⟩

end

theorem dropRounds_spec (h : DropState b i n p)
    (hin : i + n + k ≤ b.capacity) (preservation : DropPreservation) :
    DropState b i (n + k) (dropRounds preservation k (i + n) p) := by
  induction k generalizing n p with
  | zero => exact h
  | succ k ih =>
    unfold dropRounds
    have hstep := ih (h.round (by omega) preservation) (by omega)
    rw [show n + (k + 1) = n + 1 + k by omega]
    exact hstep

/-- Where no packet is preserved on purpose, none is. -/
theorem dropRounds_none (hp : p.firstPreserved = none) :
    (dropRounds .none k i p).firstPreserved = none := by
  induction k generalizing i p with
  | zero => exact hp
  | succ k ih => exact ih hp

/-- Inside or outside of the range, a slot is dropped or as it was. -/
theorem DropState.slot_cases {j : Nat} (h : DropState b i n p) (hj : j < b.capacity) :
    (i ≤ j ∧ j < i + n ∧ (p.buffer.slot j).dropped = true ∧ (p.buffer.slot j).occupied = false)
      ∨ p.buffer.slot j = b.slot j := by
  by_cases hjin : i ≤ j ∧ j < i + n
  · rcases h.inside j hjin.1 hjin.2 with ⟨hd, ho⟩ | hsame
    · exact .inl ⟨hjin.1, hjin.2, hd, ho⟩
    · exact .inr hsame
  · exact .inr (h.outside j hj hjin)

theorem DropState.forfeit {message : Nat} (h : DropState b i n p)
    (hf : p.buffer.Forfeit message) : b.Forfeit message := by
  have hcap := h.capacity
  rcases hf with ⟨j, hj, hrej, hnum⟩ | hd
  · rcases h.slot_cases (j := j) (by omega) with ⟨-, -, -, ho⟩ | hsame
    · rw [h.stored.rejectedPayload_of_empty ho] at hrej
      cases hrej
    rw [hsame] at hrej hnum
    exact .inl ⟨j, by omega, hrej, hnum⟩
  rw [h.discarding] at hd
  exact .inr hd

theorem DropState.window (h : DropState b i n p) (hw : Window isn A Q b F N)
    (hA : ∀ j, i ≤ j → j < i + n → A (F + j)) :
    Window isn A Q p.buffer F N ∧ Evolves b p.buffer F N F N := by
  have hcap := h.capacity
  refine ⟨⟨h.first.trans hw.first, h.ack.trans hw.ack, hw.le, hw.near, ?_, ?_, hw.passed, ?_⟩,
    ⟨hcap, le_rfl, le_rfl, ?_, by rw [h.classified]; simp⟩⟩
  · intro j hj ho
    rcases h.slot_cases (j := j) (by omega) with ⟨-, -, -, hempty⟩ | hsame
    · rw [hempty] at ho
      cases ho
    rw [hsame] at ho ⊢
    exact hw.coherent j (by omega) ho
  · intro j hj ho
    rcases h.slot_cases (j := j) (by omega) with ⟨-, -, -, hempty⟩ | hsame
    · rw [hempty] at ho
      cases ho
    rw [hsame] at ho ⊢
    rw [h.payload j (by omega) hsame ho]
    exact hw.carried j (by omega) ho
  · intro j hj hs
    rcases h.slot_cases (j := j) (by omega) with ⟨hij, hjn, -, -⟩ | hsame
    · exact hA j hij hjn
    rw [hsame] at hs
    exact hw.settled j (by omega) hs
  intro q hq hlt hs
  rcases h.slot_cases (j := q - F) (by omega) with ⟨-, -, hd, -⟩ | hsame
  · exact ReceiveSlot.settled_of_dropped hd
  rw [hsame]
  exact hs

/-- No slot is settled. -/
def Blank (b : ReceiveBuffer) : Prop :=
  ∀ j < b.capacity, (b.slot j).settled = false

theorem Blank.slot (h : b.Blank) (j : Nat) : (b.slot j).settled = false := by
  obtain ⟨i, hi, hp⟩ := b.slots.exists_position (b.slots.position_lt j)
  have heq : b.slot j = b.slot i := (congrArg b.slots.slots hp).symm
  rw [heq]
  exact h i hi

theorem Blank.advanceFrontier (h : b.Blank) (n : Nat) : (b.advanceFrontier n).Blank := by
  intro j _
  rw [slot_advanceFrontier]
  exact h.slot _

theorem Blank.skipFrontier (h : b.Blank) (n : Nat) : (b.skipFrontier n).Blank := by
  unfold ReceiveBuffer.skipFrontier
  split
  · exact h.advanceFrontier n
  · exact Blank.advanceFrontier (b := b.invalidateDeliveryQueries) h n

/-- A blank window is at rest wherever it stands. -/
theorem Blank.tight (h : b.Blank) (hfirst : b.firstStored = isn.advanced F)
    (hack : b.nextAck = isn.advanced N) (hle : F ≤ N) (hnear : N < F + 2 ^ 30)
    (hA : ∀ p < N, A p) : Tight isn A Q b F N := by
  have hempty : ∀ i, (b.slot i).occupied = false ∧ (b.slot i).dropped = false := fun i =>
    ReceiveSlot.settled_eq_false.1 (h.slot i)
  refine ⟨⟨hfirst, hack, hle, hnear, ?_, ?_, hA, ?_⟩, fun _ => h.slot _, (hempty 0).2⟩
  · intro i _ ho
    rw [(hempty i).1] at ho
    cases ho
  · intro i _ ho
    rw [(hempty i).1] at ho
    cases ho
  intro i _ hs
  rw [h.slot i] at hs
  cases hs

section

variable (b : ReceiveBuffer) (n : Nat)

theorem skipFrontier_firstStored : (b.skipFrontier n).firstStored = b.firstStored.advanced n := by
  unfold ReceiveBuffer.skipFrontier
  split <;> rfl

theorem skipFrontier_nextAck : (b.skipFrontier n).nextAck = b.nextAck := by
  unfold ReceiveBuffer.skipFrontier
  split <;> rfl

theorem skipFrontier_capacity : (b.skipFrontier n).capacity = b.capacity := by
  unfold ReceiveBuffer.skipFrontier
  split <;> rfl

theorem skipFrontier_classified :
    (b.skipFrontier n).classifiedLossPrefix = b.classifiedLossPrefix - n := by
  have hmin : b.classifiedLossPrefix - min n b.classifiedLossPrefix
      = b.classifiedLossPrefix - n := by
    omega
  unfold ReceiveBuffer.skipFrontier
  split
  · exact hmin
  · exact hmin

end

theorem skipFrontier_zero_slot (b : ReceiveBuffer) (j : Nat) :
    (b.skipFrontier 0).slot j = b.slot j := by
  unfold ReceiveBuffer.skipFrontier
  rw [if_pos rfl, slot_advanceFrontier, Nat.zero_add]

/-- The acknowledgement that is not behind the frontier stays. -/
theorem Window.catchUpAcknowledgement_eq (h : Window isn A Q b F N) :
    b.catchUpAcknowledgement = b := by
  have hle := h.le
  have hnear := h.near
  unfold catchUpAcknowledgement
  rw [if_neg]
  rw [h.first, h.ack, isn.distanceFrom_advanced (by omega) (by omega)]
  omega

theorem Tight.skip_zero (h : Tight isn A Q b F N) :
    Leads isn A Q b F N (b.skipFrontier 0).catchUpAcknowledgement := by
  have hsame : ∀ j < b.capacity, SameHold ((b.skipFrontier 0).slot j) (b.slot j) := by
    intro j _
    rw [skipFrontier_zero_slot]
    exact ⟨rfl, rfl, rfl, rfl⟩
  have hfirst : (b.skipFrontier 0).firstStored = b.firstStored := by
    rw [skipFrontier_firstStored, advanced_zero]
  have htight : Tight isn A Q (b.skipFrontier 0) F N := h.congr rfl hfirst rfl rfl hsame
  rw [htight.toWindow.catchUpAcknowledgement_eq]
  exact ⟨F, N, htight, evolves_congr rfl (b.skipFrontier_classified 0) hsame⟩

/-- A blank window may jump over positions that are in `A`. -/
theorem Window.skip (h : Window isn A Q b F N) (hblank : b.Blank) (hA : ∀ p < F + n, A p)
    (hn : F + n < N + 2 ^ 30) : Leads isn A Q b F N (b.skipFrontier n).catchUpAcknowledgement := by
  have hle := h.le
  have hnear := h.near
  have hblank' := hblank.skipFrontier n
  have hfirst : (b.skipFrontier n).firstStored = isn.advanced (F + n) := by
    rw [skipFrontier_firstStored, h.first, advanced_advanced]
  have hack : (b.skipFrontier n).nextAck = isn.advanced N := by
    rw [skipFrontier_nextAck, h.ack]
  have hev : ∀ M, N ≤ M → ∀ a, Evolves b { b.skipFrontier n with nextAck := a } F N (F + n) M := by
    intro M hM a
    refine ⟨skipFrontier_capacity b n, by omega, hM, ?_, ?_⟩
    · intro p _ _ hs
      rw [hblank.slot] at hs
      cases hs
    show (b.skipFrontier n).classifiedLossPrefix = _
    rw [skipFrontier_classified]
    congr 1
    omega
  by_cases hbehind : F + n ≤ N
  · have htight : Tight isn A Q (b.skipFrontier n) (F + n) N :=
      hblank'.tight hfirst hack hbehind (by omega) h.passed
    rw [htight.toWindow.catchUpAcknowledgement_eq]
    exact ⟨F + n, N, htight, hev N le_rfl _⟩
  have hcatch : (b.skipFrontier n).catchUpAcknowledgement
      = { b.skipFrontier n with
          nextAck := (b.skipFrontier n).firstStored }.advanceAcknowledgement := by
    unfold catchUpAcknowledgement
    rw [if_pos]
    rw [hfirst, hack, isn.distanceFrom_advanced (by omega) (by omega)]
    omega
  have hset : Tight isn A Q { b.skipFrontier n with nextAck := (b.skipFrontier n).firstStored }
      (F + n) (F + n) :=
    Blank.tight hblank' hfirst hfirst le_rfl (by omega) hA
  obtain ⟨N', hN, -, heq, hw, hmax, -⟩ := hset.toWindow.advanceAcknowledgement
  rw [hcatch]
  refine ⟨F + n, N', ⟨hw, hmax, ?_⟩, ?_⟩
  · rw [heq]
    exact hset.head
  rw [heq]
  exact hev N' (by omega) _

/-- The range of a drop, measured from the frontier. -/
structure DropSpan (b : ReceiveBuffer) (range : SequenceRange) (start last : Nat) : Prop where
  start : (range.first.distanceFrom b.firstStored).toNat = start
  last : range.last.distanceFrom b.firstStored = last

variable {range : SequenceRange}

theorem dropWithin_spec {start last : Nat} (hs : b.Stored)
    (hspan : DropSpan b range start last) (preservation : DropPreservation) :
    DropState b start (min last (b.capacity - 1) + 1 - start)
      (b.dropWithin range preservation) := by
  have hpos : 0 < b.capacity := b.slots.capacity_pos
  unfold dropWithin
  rw [hspan.start, hspan.last, Int.toNat_natCast]
  by_cases hle : start ≤ min last (b.capacity - 1) + 1
  · have hspec := dropRounds_spec (dropState_start hs start)
      (k := min last (b.capacity - 1) + 1 - start) (by omega) preservation
    rw [Nat.zero_add] at hspec
    exact hspec
  have hnone : min last (b.capacity - 1) + 1 - start = 0 := by omega
  dsimp only
  rw [hnone]
  exact dropState_start hs start

/-- A range is behind the window, or its part inside is dropped and the trim
and the skip follow. -/
theorem Stored.dropRangeImpl_cases (hs : b.Stored) (range : SequenceRange)
    (preservation : DropPreservation) :
    b.dropRangeImpl range preservation = b ∨ ∃ start last k, DropSpan b range start last
      ∧ DropState b start (min last (b.capacity - 1) + 1 - start) (b.dropWithin range preservation)
      ∧ Trimmed (b.dropWithin range preservation).buffer.advanceAcknowledgement
        (b.dropTrimmed range preservation) k
      ∧ b.dropRangeImpl range preservation = ((b.dropTrimmed range preservation).skipFrontier
        (b.additionalAdvance range preservation)).catchUpAcknowledgement := by
  unfold ReceiveBuffer.dropRangeImpl
  split
  · exact .inl rfl
  split
  · exact .inl rfl
  have hspan : DropSpan b range (range.first.distanceFrom b.firstStored).toNat
      (range.last.distanceFrom b.firstStored).toNat := ⟨rfl, by omega⟩
  have hwithin := dropWithin_spec hs hspan preservation
  obtain ⟨k, hk⟩ := trimDroppedPrefix_spec hwithin.stored.advanceAcknowledgement
  exact .inr ⟨_, _, k, hspan, hwithin, hk, rfl⟩

/-- Where a drop preserves a packet, the frontier is to stop there.  It does
when the trim has not passed that packet and the range does not reach half
the number space beyond it. -/
def Capped (b : ReceiveBuffer) (range : SequenceRange) (preservation : DropPreservation) : Prop :=
  ∀ s ∈ (b.dropWithin range preservation).firstPreserved,
    0 ≤ s.distanceFrom (b.dropTrimmed range preservation).firstStored
      ∧ 0 < range.last.next.distanceFrom s

section

variable (b : ReceiveBuffer)

theorem capped_none (range : SequenceRange) : b.Capped range .none := by
  intro s hs
  have hnone : (b.dropWithin range .none).firstPreserved = none := dropRounds_none rfl
  rw [hnone] at hs
  cases hs

theorem advanceAcknowledgement_slot (j : Nat) : b.advanceAcknowledgement.slot j = b.slot j := by
  obtain ⟨n, hn⟩ := advanceAcknowledgementFrom_eq b.capacity b
  unfold advanceAcknowledgement
  rw [hn]
  rfl

theorem advanceAcknowledgement_firstStored :
    b.advanceAcknowledgement.firstStored = b.firstStored := by
  obtain ⟨n, hn⟩ := advanceAcknowledgementFrom_eq b.capacity b
  unfold advanceAcknowledgement
  rw [hn]

theorem advanceAcknowledgement_capacity : b.advanceAcknowledgement.capacity = b.capacity := by
  obtain ⟨n, hn⟩ := advanceAcknowledgementFrom_eq b.capacity b
  unfold advanceAcknowledgement
  rw [hn]
  rfl

end

/-- A trim passes every dropped marker at the head. -/
theorem Trimmed.le_of_dropped {m : Nat} (h : Trimmed b c k) (hm : m ≤ b.capacity)
    (hd : ∀ j < m, (b.slot j).dropped = true) : m ≤ k := by
  by_contra hlt
  have hkept := h.kept 0 (by omega)
  rw [Nat.zero_add] at hkept
  have hhead := h.head
  rw [hkept, hd k (by omega)] at hhead
  cases hhead

/-- Beyond the trim the frontier moves only over an empty window. -/
theorem additionalAdvance_cases {start last : Nat} {preservation : DropPreservation} (hs : b.Stored)
    (hspan : DropSpan b range start last) (hcapped : b.Capped range preservation)
    (hk : Trimmed (b.dropWithin range preservation).buffer.advanceAcknowledgement
      (b.dropTrimmed range preservation) k) :
    b.additionalAdvance range preservation = 0 ∨ start = 0 ∧ k = b.capacity ∧ b.capacity ≤ last
        ∧ b.additionalAdvance range preservation = last + 1 - b.capacity := by
  have hwithin := dropWithin_spec hs hspan preservation
  have hlt := hspan.last ▸ range.last.distanceFrom_lt b.firstStored
  have hcap : b.capacity < 2 ^ 30 := b.capacity_lt
  have hpos : 0 < b.capacity := b.slots.capacity_pos
  have hcap' := (advanceAcknowledgement_capacity _).trans hwithin.capacity
  have hkle := hk.le
  have hfirst : (b.dropTrimmed range preservation).firstStored = b.firstStored.advanced k := by
    rw [hk.first, advanceAcknowledgement_firstStored, hwithin.first]
  have hlast : range.last = b.firstStored.advanced last := by
    have heq := advanced_distanceFrom (s := range.last) (o := b.firstStored)
      (by rw [hspan.last]; omega)
    rw [hspan.last, Int.toNat_natCast] at heq
    exact heq.symm
  unfold additionalAdvance
  dsimp only
  split
  · next hmore =>
    obtain ⟨hstart, hreach⟩ := hmore
    rw [hfirst, hlast, distanceFrom_advanced _ (by omega) (by omega)] at hreach
    have hzero : start = 0 := by
      rw [← hspan.start]
      omega
    subst hzero
    cases hp : (b.dropWithin range preservation).firstPreserved with
    | none =>
      have hall := (hwithin.none_preserved hp).2
      have hthrough : min last (b.capacity - 1) + 1 ≤ k := by
        refine hk.le_of_dropped (by omega) ?_
        intro j hj
        rw [advanceAcknowledgement_slot]
        exact hall j (by omega) (by omega)
      refine .inr ⟨rfl, by omega, by omega, ?_⟩
      unfold dropAdvance
      dsimp only
      rw [hfirst, hlast, next_advanced, distanceFrom_advanced _ (by omega) (by omega)]
      omega
    | some s =>
      obtain ⟨m, -, hmn, hseq, -, -, hbefore⟩ := hwithin.some_preserved s hp
      have hmk : m ≤ k := by
        refine hk.le_of_dropped (by omega) ?_
        intro j hj
        rw [advanceAcknowledgement_slot]
        exact hbefore j (by omega) hj
      obtain ⟨hnear, hbeyond⟩ := hcapped s hp
      refine .inl ?_
      unfold dropAdvance
      dsimp only
      rw [if_pos ⟨hnear, hbeyond⟩]
      rw [hfirst, hseq, distanceFrom_advanced _ (by omega) (by omega)] at hnear ⊢
      omega
  · exact .inl rfl

theorem forfeit_advanceAcknowledgement {m : Nat} (h : b.advanceAcknowledgement.Forfeit m) :
    b.Forfeit m := by
  have hcap := b.advanceAcknowledgement_capacity
  rcases h with ⟨j, hj, hrejected, hnumber⟩ | hdiscarding
  · rw [advanceAcknowledgement_slot] at hrejected hnumber
    exact .inl ⟨j, by omega, hrejected, hnumber⟩
  obtain ⟨q, hq⟩ := advanceAcknowledgementFrom_eq b.capacity b
  unfold advanceAcknowledgement at hdiscarding
  rw [hq] at hdiscarding
  exact .inr hdiscarding

/-- No packet stored in the range is of a forfeit message, and the range ends
short of half the number space ahead of the frontier. -/
def Clear (b : ReceiveBuffer) (range : SequenceRange) : Prop :=
  range.last.distanceFrom b.firstStored + 1 < 2 ^ 30
    ∧ ∀ j < b.capacity, range.first.distanceFrom b.firstStored ≤ j →
      j ≤ range.last.distanceFrom b.firstStored → (b.slot j).occupied = true →
      ¬ b.Forfeit (b.slot j).header.messageNumber

/-- Such a range is behind the window, or its drop stops at what it preserves. -/
theorem Clear.capped (h : b.Clear range) (hs : b.Stored) (preservation : DropPreservation) :
    b.dropRangeImpl range preservation = b ∨ b.Capped range preservation := by
  rcases hs.dropRangeImpl_cases range preservation with
    heq | ⟨start, last, k, hspan, hwithin, hk, -⟩
  · exact .inl heq
  obtain ⟨hend, hforfeit⟩ := h
  have hlast := hspan.last
  have hstart := hspan.start
  have hcap : b.capacity < 2 ^ 30 := b.capacity_lt
  have hcap' := (advanceAcknowledgement_capacity _).trans hwithin.capacity
  have hkle := hk.le
  refine .inr fun s hp => ?_
  obtain ⟨m, hsm, hmn, hseq, hkept, hocc, -⟩ := hwithin.some_preserved s hp
  have hfirst : (b.dropTrimmed range preservation).firstStored = b.firstStored.advanced k := by
    rw [hk.first, advanceAcknowledgement_firstStored, hwithin.first]
  have hrange : range.last.next = b.firstStored.advanced (last + 1) := by
    have heq := advanced_distanceFrom (s := range.last) (o := b.firstStored) (by omega)
    rw [hlast, Int.toNat_natCast] at heq
    rw [← heq, next_advanced]
  -- the trim passes only dropped markers and forfeit packets
  have hkm : k ≤ m := by
    by_contra hlt
    rcases hk.trimmed m (by omega) with hdropped | ⟨-, hrejected⟩
    · rw [advanceAcknowledgement_slot, hkept, (hs.slot m).exclusive hocc] at hdropped
      cases hdropped
    rw [advanceAcknowledgement_slot, hkept] at hrejected
    exact hforfeit m (by omega) (by omega) (by omega) hocc
      (hwithin.forfeit (forfeit_advanceAcknowledgement hrejected))
  rw [hfirst, hseq, hrange, distanceFrom_advanced _ (by omega) (by omega),
    distanceFrom_advanced _ (by omega) (by omega)]
  omega

/-- The positions of a range that the drop can reach are in `A`. -/
def Covers (A : Nat → Prop) (b : ReceiveBuffer) (F : Nat) (range : SequenceRange) : Prop :=
  ∀ p, F + (range.first.distanceFrom b.firstStored).toNat ≤ p →
    (p : Int) ≤ F + range.last.distanceFrom b.firstStored → A p

theorem Tight.dropRangeImpl (h : Tight isn A Q b F N) (hs : b.Stored)
    {preservation : DropPreservation} (hA : Covers A b F range)
    (hcapped : b.Capped range preservation) :
    Leads isn A Q b F N (b.dropRangeImpl range preservation) := by
  rcases hs.dropRangeImpl_cases range preservation with
    heq | ⟨start, last, k, hspan, hwithin, hk, heq⟩ <;> rw [heq]
  · exact h.leads
  have hlt := hspan.last ▸ range.last.distanceFrom_lt b.firstStored
  have hcover : ∀ p, F + start ≤ p → p ≤ F + last → A p := by
    intro p hp hp'
    refine hA p (by rw [hspan.start]; exact hp) ?_
    rw [hspan.last]
    omega
  have hpos : 0 < b.capacity := b.slots.capacity_pos
  obtain ⟨hw, hev⟩ := hwithin.window h.toWindow (fun j hj hjn => hcover _ (by omega) (by omega))
  obtain ⟨N', hN, -, hack, hw', hmax, -⟩ := hw.advanceAcknowledgement
  have hcapk := (advanceAcknowledgement_capacity _).trans hwithin.capacity
  obtain ⟨hkN, hwk, hmaxk⟩ := hw'.pass hmax hk.toPassed
  have hevk : Evolves b (b.dropTrimmed range preservation) F N (F + k) N' := by
    refine hev.trans (Evolves.trans ?_ hk.evolves)
    rw [hack]
    exact evolves_ack hN
  rcases additionalAdvance_cases hs hspan hcapped hk with hzero | ⟨hstart, hfull, hreach, hmore⟩
  · rw [hzero]
    exact Leads.after hevk (Tight.skip_zero ⟨hwk, hmaxk, hk.head⟩)
  rw [hmore]
  have hblank : (b.dropTrimmed range preservation).Blank := by
    intro j hj
    have hcap' : (b.dropTrimmed range preservation).capacity = _ := hk.capacity
    exact hk.emptied j (by omega) (by omega)
  refine Leads.after hevk (hwk.skip hblank ?_ (by omega))
  intro p hp
  by_cases hpF : p < F
  · exact h.passed p (hpF.trans_le h.le)
  · exact hcover p (by omega) (by omega)

/-! ## Discards -/

theorem discardSlot_frame (b : ReceiveBuffer) (i : Nat) :
    (b.discardSlot i).firstStored = b.firstStored ∧ (b.discardSlot i).nextAck = b.nextAck
      ∧ (b.discardSlot i).classifiedLossPrefix = b.classifiedLossPrefix
      ∧ (b.discardSlot i).discardingMessage = b.discardingMessage
      ∧ (b.discardSlot i).payloads
        = if (b.slot i).occupied then b.payloads.release (b.slot i).payloadIndex
          else b.payloads := by
  unfold discardSlot
  simp only [removeRejectedMessage_eq]
  split
  · exact ⟨rfl, rfl, rfl, rfl, rfl⟩
  · exact ⟨rfl, rfl, rfl, rfl, rfl⟩

theorem discardSlots_frame (h : b.Stored) (hn : i + n ≤ b.capacity) :
    (discardSlots n i b).firstStored = b.firstStored ∧ (discardSlots n i b).nextAck = b.nextAck
      ∧ (discardSlots n i b).classifiedLossPrefix = b.classifiedLossPrefix
      ∧ (discardSlots n i b).discardingMessage = b.discardingMessage
      ∧ ∀ j < b.capacity, ¬ (i ≤ j ∧ j < i + n) → (b.slot j).occupied = true →
        (discardSlots n i b).payloads.get (b.slot j).payloadIndex
          = b.payloads.get (b.slot j).payloadIndex := by
  induction n generalizing i b with
  | zero => exact ⟨rfl, rfl, rfl, rfl, fun _ _ _ _ => rfl⟩
  | succ n ih =>
    obtain ⟨hfirst, hack, hclass, hdiscard, hcells⟩ := b.discardSlot_frame i
    obtain ⟨-, -, hcap, hslots⟩ := discardSlots_spec (n := 1) (i := i) h (by omega)
    change (b.discardSlot i).capacity = b.capacity at hcap
    obtain ⟨hfirst', hack', hclass', hdiscard', hcells'⟩ :=
      ih (i := i + 1) (h.discardSlot i) (by omega)
    refine ⟨hfirst'.trans hfirst, hack'.trans hack, hclass'.trans hclass,
      hdiscard'.trans hdiscard, ?_⟩
    intro j hj hout ho
    have hslot : (b.discardSlot i).slot j = b.slot j := by
      have heq := hslots j hj
      rw [if_neg (by omega)] at heq
      exact heq
    have hrest := hcells' j (by omega) (by omega) (by rw [hslot]; exact ho)
    rw [hslot] at hrest
    refine hrest.trans ?_
    rw [hcells]
    split
    · next hoi => exact h.get_release (by omega) hj (by omega) hoi ho
    · rfl

theorem shifted_discardWindow (h : b.Stored) (hn : n < b.capacity) :
    Shifted b ((b.discardWindow n).advanceFrontier n) n := by
  have hmin : min n b.capacity = n := by omega
  obtain ⟨-, -, hcap, hslots⟩ := discardSlots_spec (b := b.invalidateDeliveryQueries) (n := n)
    (i := 0) h (by show 0 + n ≤ b.capacity; omega)
  obtain ⟨hfirst, hack, hclass, -, hcells⟩ := discardSlots_frame (b := b.invalidateDeliveryQueries)
    (n := n) (i := 0) h (by show 0 + n ≤ b.capacity; omega)
  have heq : b.discardWindow n = discardSlots n 0 b.invalidateDeliveryQueries := by
    unfold discardWindow
    rw [hmin]
    refine if_neg ?_
    rw [hcap]
    show ¬ b.capacity ≤ n
    omega
  rw [heq]
  refine shifted_advanceFrontier (by omega) hcap hfirst hack hclass ?_ ?_ ?_
  · intro j hj
    rw [hslots j (by show j < b.capacity; omega), if_pos (by omega)]
    rfl
  · intro j hnj hj
    rw [hslots j hj, if_neg (by omega)]
    rfl
  intro j hnj hj ho
  exact hcells j hj (by omega) ho

theorem blank_discardWindow (h : b.Stored) (hn : b.capacity ≤ n) :
    (b.discardWindow n).Blank ∧ (b.discardWindow n).firstStored = b.firstStored
      ∧ (b.discardWindow n).nextAck = b.nextAck
      ∧ (b.discardWindow n).classifiedLossPrefix = b.classifiedLossPrefix
      ∧ (b.discardWindow n).capacity = b.capacity := by
  have hmin : min n b.capacity = b.capacity := by omega
  obtain ⟨-, -, hcap, -⟩ := discardSlots_spec (b := b.invalidateDeliveryQueries)
    (n := b.capacity) (i := 0) h (by show 0 + b.capacity ≤ b.capacity; omega)
  obtain ⟨hfirst, hack, hclass, -, -⟩ := discardSlots_frame (b := b.invalidateDeliveryQueries)
    (n := b.capacity) (i := 0) h (by show 0 + b.capacity ≤ b.capacity; omega)
  have heq : b.discardWindow n
      = (discardSlots b.capacity 0 b.invalidateDeliveryQueries).resetSlots := by
    unfold discardWindow
    rw [hmin]
    refine if_pos ?_
    rw [hcap]
    exact hn
  rw [heq]
  exact ⟨fun _ _ => rfl, hfirst, hack, hclass, hcap⟩

/-- A discard lands on a slot where the window comes to rest: not a dropped
marker, and not a stored packet that the acknowledgement would have to pass. -/
def Lands (b : ReceiveBuffer) (next : SequenceNumber) : Prop :=
  0 < next.distanceFrom b.firstStored → ∀ i ∈ b.offsetOf next,
    (b.slot i).dropped = false ∧ (0 < next.distanceFrom b.nextAck → (b.slot i).occupied = false)

theorem Window.raiseAcknowledgement_eq (h : Window isn A Q b F N) (hn : n < 2 ^ 30)
    (hc : c.nextAck = b.nextAck) :
    c.raiseAcknowledgement (isn.advanced (F + n))
      = { c with nextAck := isn.advanced (max N (F + n)) } := by
  have hle := h.le
  have hnear := h.near
  have hack : c.nextAck = isn.advanced N := hc.trans h.ack
  have hdist : c.nextAck.distanceFrom (isn.advanced (F + n)) = (N : Int) - (F + n : Nat) := by
    rw [hack, isn.distanceFrom_advanced (by omega) (by omega)]
  unfold raiseAcknowledgement
  rw [hdist]
  split
  · rw [show max N (F + n) = F + n by omega]
  · rw [show max N (F + n) = N by omega, ← hack]

theorem Tight.discardWithin (h : Tight isn A Q b F N) (hk : Shifted b c n)
    (hn : n < b.capacity) (hA : ∀ p < F + n, A p) (hdropped : (b.slot n).dropped = false)
    (hoccupied : N < F + n → (b.slot n).occupied = false) :
    Tight isn A Q { c with nextAck := isn.advanced (max N (F + n)) } (F + n) (max N (F + n)) := by
  have hle := h.le
  have hnear := h.near
  have hcap : b.capacity < 2 ^ 30 := b.capacity_lt
  have hslot : c.slot 0 = b.slot n := by
    rw [hk.kept 0 (by omega), Nat.zero_add]
  refine ⟨h.toWindow.shift hk (by omega) (by omega) ?_, ?_, ?_⟩
  · intro p hp
    by_cases hpn : p < F + n
    · exact hA p hpn
    · exact h.passed p (by omega)
  · show Maximal c (F + n) (max N (F + n))
    by_cases hbehind : N < F + n
    · intro _
      rw [show max N (F + n) - (F + n) = 0 by omega, hslot]
      exact ReceiveSlot.settled_eq_false.2 ⟨hoccupied hbehind, hdropped⟩
    rw [show max N (F + n) = N by omega]
    exact h.maximal.shift hk (by omega)
  show (c.slot 0).dropped = false
  rw [hslot]
  exact hdropped

theorem Tight.discardBefore (h : Tight isn A Q b F N) (hs : b.Stored) {next : SequenceNumber}
    (hA : ∀ p : Nat, (p : Int) < F + next.distanceFrom b.firstStored → A p)
    (hlands : b.Lands next) : Leads isn A Q b F N (b.discardBefore next) := by
  have hle := h.le
  have hnear := h.near
  have hcap : b.capacity < 2 ^ 30 := b.capacity_lt
  unfold ReceiveBuffer.discardBefore
  split
  · exact h.leads
  next hforward =>
  obtain ⟨n, hn⟩ := Int.eq_ofNat_of_zero_le (show 0 ≤ next.distanceFrom b.firstStored by omega)
  have hlt := hn ▸ next.distanceFrom_lt b.firstStored
  have hnext : next = isn.advanced (F + n) := by
    rw [← advanced_distanceFrom (s := next) (o := b.firstStored) (by omega), hn,
      h.first, advanced_advanced]
    rfl
  have hdist : next.distanceFrom b.nextAck = (F + n : Nat) - (N : Int) := by
    rw [hnext, h.ack, isn.distanceFrom_advanced (by omega) (by omega)]
  unfold Lands at hlands
  rw [hn, hdist] at hlands
  rw [hn] at hA hforward ⊢
  rw [Int.toNat_natCast]
  have hbefore : ∀ p < F + n, A p := fun p hp => hA p (by omega)
  by_cases hwithin : n < b.capacity
  · have hk := shifted_discardWindow hs hwithin
    obtain ⟨hdropped, hoccupied⟩ := hlands (by omega) n
      (hnext ▸ (h.offsetOf_eq_some_iff (by omega) (Nat.le_add_right F n)).2 ⟨hwithin, rfl⟩)
    rw [hnext, h.raiseAcknowledgement_eq (by omega) hk.ack]
    exact ⟨F + n, max N (F + n),
      h.discardWithin hk hwithin hbefore hdropped (fun hb => hoccupied (by omega)),
      hk.evolves.trans (evolves_ack (by omega))⟩
  obtain ⟨hblank, hfirst, hack, hclass, hcap'⟩ := blank_discardWindow (n := n) hs (by omega)
  have hack' : ((b.discardWindow n).advanceFrontier n).nextAck = b.nextAck := hack
  rw [hnext, h.raiseAcknowledgement_eq (by omega) hack']
  refine ⟨F + n, max N (F + n), Blank.tight (hblank.advanceFrontier n) ?_ rfl (by omega)
    (by omega) ?_, hcap', by omega, by omega, ?_, ?_⟩
  · show (b.discardWindow n).firstStored.advanced n = isn.advanced (F + n)
    rw [hfirst, h.first, advanced_advanced]
  · intro p hp
    by_cases hpn : p < F + n
    · exact hbefore p hpn
    · exact h.passed p (by omega)
  · intro p hp hlt'
    omega
  show (b.discardWindow n).classifiedLossPrefix - min n (b.discardWindow n).classifiedLossPrefix = _
  rw [hclass]
  omega

/-- A peer's range over the acknowledgement; the window reaches as far as half
the sequence space. -/
theorem Tight.acknowledgePeerDropRange (h : Tight isn A Q b F N)
    (hreach : b.acknowledgesPeerDropRange range = true →
      0 ≤ range.last.next.distanceFrom b.firstStored)
    (hA : ∀ p : Nat, N ≤ p → (p : Int) ≤ N + range.last.distanceFrom b.nextAck → A p) :
    Leads isn A Q b F N (b.acknowledgePeerDropRange range) := by
  have hle := h.le
  have hnear := h.near
  unfold ReceiveBuffer.acknowledgePeerDropRange
  split
  · next hover =>
    have hreach := hreach hover
    simp only [acknowledgesPeerDropRange, Bool.not_eq_true', Bool.or_eq_false_iff,
      decide_eq_false_iff_not] at hover
    obtain ⟨m, hm⟩ := Int.eq_ofNat_of_zero_le (show 0 ≤ range.last.distanceFrom b.nextAck by omega)
    have hlt := hm ▸ range.last.distanceFrom_lt b.nextAck
    have hlast : range.last.next = isn.advanced (N + m + 1) := by
      rw [← advanced_distanceFrom (s := range.last) (o := b.nextAck) (by omega), hm,
        h.ack, advanced_advanced, next_advanced]
      rfl
    have hwithin : N + m + 1 < F + 2 ^ 30 := by
      rw [hlast, h.first, distanceFrom_advanced_eq_bmod] at hreach
      simp only [Int.bmod_def] at hreach
      omega
    have hw := h.toWindow.shift (Shifted.refl b) (M := N + m + 1) (by omega) (by omega) (by
      intro p hp
      by_cases hpN : p < N
      · exact h.passed p hpN
      · exact hA p (by omega) (by omega))
    rw [Nat.add_zero] at hw
    obtain ⟨N', hN, -, heq, hack, hmax, -⟩ := hw.advanceAcknowledgement
    rw [hlast]
    refine ⟨F, N', ⟨hack, hmax, ?_⟩, ?_⟩
    · rw [heq]
      exact h.head
    rw [heq]
    exact evolves_ack (by omega)
  · exact h.leads

end ReceiveBuffer

end Srt
