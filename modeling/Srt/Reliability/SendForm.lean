/-
# `SendForm` — a protected packet keeps its form

`preserve_protected_payload` replaces the plaintext of a packet by its
protected form, in the payload cell and the header of its slot.  From then on
no operation changes the two.  Cells are shared over time, slots as well, so a
packet is recognised by its `sequence_position`, which counts packets and is
never used twice.

`Keeps` says what one operation leaves of the packets: each live packet was
live before, in the same form if that form was protected, or it is new.
-/
import Srt.Reliability.SendMoves

namespace Srt

namespace SendBuffer

variable {b c : SendBuffer} {i j : Nat}

/-! ## Operations -/

theorem keeps_enqueuePackets (f : MessageFields) (count : Nat) (first : Bool) (bytes : Bytes)
    (h : b.Sound) (hroom : b.sequenceSpan + count ≤ b.capacity) :
    Keeps b (enqueuePackets f count first bytes b) := by
  induction count generalizing first bytes b with
  | zero => exact .refl b
  | succ count ih =>
    refine (keeps_enqueuePacket h f _ _ (by omega)).trans
      (ih _ _ (h.enqueuePacket f _ _ (by omega)) ?_)
    show b.sequenceSpan + 1 + count ≤ b.capacity
    omega

section

variable (h : b.Sound)
include h

theorem keeps_enqueueMessage (message : Bytes) (f : MessageFields) :
    Keeps b (b.enqueueMessage message f).2 := by
  obtain ⟨count, hroom, heq⟩ := enqueueMessage_eq h message f
  rw [heq]
  exact keeps_enqueuePackets f _ _ _ h hroom

theorem keeps_enqueueStream (bytes : Bytes) (f : MessageFields) :
    Keeps b (b.enqueueStream bytes f).2 := by
  obtain ⟨count, taken, hroom, heq⟩ := enqueueStream_eq h bytes f
  rw [heq]
  exact keeps_enqueuePackets _ _ _ _ h hroom

theorem keeps_nextPacket (defer allow : Bool) (now : Nat) :
    Keeps b (b.nextPacket defer allow now).2 := by
  obtain ⟨c, hc, ⟨p, -, heq⟩ | heq⟩ := nextPacket_cases b defer allow now <;> rw [heq]
  · exact hc.keeps
  · exact hc.keeps.trans (held_nextOriginal defer now _ _ (hc.sound h).lined.span_le).toKeeps

theorem keeps_preserveProtectedPayload (sequence : SequenceNumber) (key : EncryptionKey)
    (mode : CryptoMode) (payload : Bytes) :
    Keeps b (b.preserveProtectedPayload sequence key mode payload).2 := by
  unfold preserveProtectedPayload
  split
  · next i suite hfind _ =>
    obtain ⟨hoi, hi, -⟩ := find_eq_some hfind
    replace hi : i < b.capacity := hi.trans_le h.lined.span_le
    simp only
    split
    · exact .refl b
    split
    · exact .refl b
    split
    · exact .refl b
    split
    · split <;> exact .refl b
    next hkey =>
    refine ⟨le_rfl, fun j hj ho => ?_⟩
    by_cases hji : j = i
    · -- the one packet that changes was not protected before
      subst hji
      refine .inr ⟨j, hi, hoi, ?_, fun hne => absurd hne hkey, fun _ => ?_⟩
      · show ((b.slots.set j _).get j).sequencePosition = _
        rw [SlotRing.get_set_self]
      show ((b.payloads.store (b.slot j).payloadIndex payload).get
        ((b.slots.set j _).get j).payloadIndex).length = ((b.slots.set j _).get j).payloadSize
      rw [SlotRing.get_set_self]
      exact congrArg List.length (if_pos rfl)
    have hkeep : ∀ s, (b.slots.set i s).get j = b.slots.get j := fun s =>
      b.slots.get_set_ne hi hj hji s
    have hoj : (b.slot j).occupied = true := by
      have ho' : ((b.slots.set i _).get j).occupied = true := ho
      rwa [hkeep] at ho'
    refine .inr ⟨j, hj, hoj, .of_slot ?_ ?_ ?_ ?_ ?_⟩
    · exact congrArg SendSlot.header (hkeep _)
    · exact congrArg SendSlot.payloadIndex (hkeep _)
    · exact congrArg SendSlot.sequencePosition (hkeep _)
    · exact congrArg SendSlot.payloadSize (hkeep _)
    · exact if_neg fun heq => hji (h.booked.payloadIndex_inj hj hi hoj hoi heq)
  · exact .refl b

theorem keeps_apply (op : Op) : Keeps b (b.apply op) := by
  -- the cases follow the alternatives of `apply`
  fun_cases SendBuffer.apply b op with
  | case1 next => exact (held_synchronizeEmpty h next).toKeeps
  | case2 message fields => exact keeps_enqueueMessage h message fields
  | case3 bytes fields => exact keeps_enqueueStream h bytes fields
  | case4 defer allow now => exact keeps_nextPacket h defer allow now
  | case5 => exact (idle_peekRetransmissionFrom _ b).keeps
  | case6 sequence => exact (b.idle_requeuePreparedRetransmission sequence).keeps
  | case7 sequence key mode payload =>
    exact keeps_preserveProtectedPayload h sequence key mode payload
  | case8 sequence => exact (b.rests_notePacketSubmitted sequence).keeps
  | case9 sequence => exact (held_acknowledgeSubmittedBefore h sequence).toKeeps
  | case10 sequence => exact (held_acknowledgeBefore h sequence).toKeeps
  | case11 range now repeatAfter =>
    exact (b.idle_requestRetransmission range now repeatAfter).keeps
  | case12 sequence now => exact (h.idle_noteRetransmissionSent sequence now).keeps
  | case13 => exact (b.idle_requestLastSentFrom _).keeps
  | case14 => exact (idle_requestAllSentFrom _ _ _ b).keeps
  | case15 => exact b.rests_nextPendingDropRequest.keeps
  | case16 => exact b.rests_hasPendingDropRequest.keeps
  | case17 => exact (rests_queueRetainedFrom _ _ _ b).keeps
  | case18 => exact (held_releaseRetiredPrefix h).toKeeps
  | case19 => exact b.idle_compactRetransmissionQueue.keeps
  | case20 ranges => exact (b.rests_queueRangeDropRequests ranges).keeps
  | case21 cutoff => exact (held_dropMessagesOlderThan h cutoff).toKeeps
  | case22 now => exact (held_dropExpiredMessage h now).toKeeps

theorem keeps_foldl (ops : List Op) : Keeps b (ops.foldl apply b) := by
  induction ops generalizing b with
  | nil => exact .refl b
  | cons op ops ih => exact (keeps_apply h op).trans (ih (h.apply op))

theorem sound_foldl (ops : List Op) : (ops.foldl apply b).Sound := by
  induction ops generalizing b with
  | nil => exact h
  | cons op ops ih => exact ih (h.apply op)

end

/-- Between operations every cell is as long as its slot says. -/
theorem sized_of_reaches {guard : SendBuffer → Op → Prop} (h : Lts.Reaches system guard b) :
    ∀ j < b.capacity, (b.slot j).occupied = true → b.Sized j := by
  refine h.invariant (I := fun b => ∀ j < b.capacity, (b.slot j).occupied = true → b.Sized j) ?_ ?_
  · rintro b ⟨_, _, _, hmake⟩ j hj ho
    have hblank := (sound_make hmake).lined.outside j hj (.inr (Nat.zero_le j |>.trans' ?_))
    · exact Bool.noConfusion (hblank.1.symm.trans ho)
    unfold make at hmake
    split at hmake
    · cases hmake
      exact Nat.le_refl 0
    · cases hmake
  rintro b op _ hreaches hb - rfl j hj ho
  rcases (keeps_apply (sound_of_reaches hreaches) op).packets j hj ho with
    ⟨-, hsize⟩ | ⟨i, hi, hoi, hsame⟩
  · exact hsize
  · exact hsame.size (hb i hi hoi)

/-! ## Emission -/

section

variable (h : b.Lined 0) (hi : i < b.capacity) (hj : j < b.capacity)
  (hoi : (b.slot i).occupied = true) (hoj : (b.slot j).occupied = true)
include h hi hj hoi hoj

theorem Lined.position_inj (heq : (b.slot i).sequencePosition = (b.slot j).sequencePosition) :
    i = j := by
  have hni : (b.slot i).sequencePosition + _ = _ := (h.numbered i (h.lt_span hi hoi)).2
  have hnj : (b.slot j).sequencePosition + _ = _ := (h.numbered j (h.lt_span hj hoj)).2
  omega

theorem Lined.sequence_inj (heq : (b.slot i).header.sequence = (b.slot j).header.sequence) :
    i = j := by
  have hcap : b.capacity < 2 ^ 30 := b.capacity_lt
  have hni : (b.slot i).header.sequence = _ := (h.numbered i (h.lt_span hi hoi)).1
  have hnj : (b.slot j).header.sequence = _ := (h.numbered j (h.lt_span hj hoj)).1
  exact (SequenceNumber.advanced_inj_of_lt (by omega) (by omega)).1 (hni.symm.trans (heq.trans hnj))

end

/-- A protected packet that is still live has its form. -/
theorem Keeps.outbound_eq (h : Keeps b c) (hb : b.Sound) (hi : i < b.capacity)
    (hoi : (b.slot i).occupied = true) (hkey : (b.slot i).header.encryptionKey ≠ .none)
    (hj : j < c.capacity) (hoj : (c.slot j).occupied = true)
    (hposition : (c.slot j).sequencePosition = (b.slot i).sequencePosition) :
    c.outbound j = b.outbound i := by
  have hlt := hb.lined.lt_span hi hoi
  have hnumbered : (b.slot i).sequencePosition + _ = _ := (hb.lined.numbered i hlt).2
  rcases h.packets j hj hoj with ⟨hnew, -⟩ | ⟨i', hi', hoi', hsame⟩
  · omega
  have heq : i' = i := hb.lined.position_inj hi' hi hoi' hoi (hsame.position.symm.trans hposition)
  subst heq
  exact hsame.form hkey

/-- `next_packet` hands a packet out. -/
def Emits (b : SendBuffer) (packet : OutboundPacket) : Prop :=
  ∃ defer allow now, (b.nextPacket defer allow now).1 = some packet

/-- The same packet up to the flag of a retransmission. -/
def SameForm (p q : OutboundPacket) : Prop :=
  p.payload = q.payload ∧ p.sequencePosition = q.sequencePosition
    ∧ { p.header with retransmitted := q.header.retransmitted } = q.header

variable {packet : OutboundPacket}

theorem nextRetransmission_some (defer : Bool) (fuel : Nat) (b : SendBuffer)
    (hcap : b.sequenceSpan ≤ b.capacity) (h : (nextRetransmission defer fuel b).1 = some packet) :
    ∃ j < b.capacity, (b.slot j).occupied = true ∧ packet = b.outboundAgain j := by
  induction fuel generalizing b with
  | zero => cases h
  | succ fuel ih =>
    unfold nextRetransmission at h
    split at h
    · cases h
    simp only at h
    split at h
    · exact ih { b with retransmissions := b.retransmissions.tail } hcap h
    next i hfind =>
    split at h
    · exact ih { b with retransmissions := b.retransmissions.tail } hcap h
    obtain ⟨ho, hi, -⟩ := find_eq_some hfind
    exact ⟨i, hi.trans_le hcap, ho, (Option.some.inj h).symm⟩

theorem nextOriginal_some (defer : Bool) (now fuel : Nat) (b : SendBuffer)
    (hcap : b.sequenceSpan ≤ b.capacity) (h : (nextOriginal defer now fuel b).1 = some packet) :
    ∃ j < b.capacity, (b.slot j).occupied = true ∧ packet = b.outbound j := by
  induction fuel generalizing b with
  | zero => cases h
  | succ fuel ih =>
    unfold nextOriginal at h
    split at h
    · cases h
    next hu =>
    simp only at h
    split at h
    · next hlive =>
      rw [Bool.and_eq_true] at hlive
      exact ⟨b.nextUnsentOffset, by omega, hlive.1, (Option.some.inj h).symm⟩
    · exact ih { b with nextUnsentOffset := b.nextUnsentOffset + 1 } hcap h

/-- What is emitted is a live packet. -/
theorem Emits.live (hb : b.Sound) (h : b.Emits packet) :
    ∃ j < b.capacity, (b.slot j).occupied = true ∧ SameForm packet (b.outbound j) := by
  obtain ⟨defer, allow, now, h⟩ := h
  obtain ⟨c, hfirst, ⟨p, hrun, heq⟩ | heq⟩ := nextPacket_cases b defer allow now <;>
    rw [heq] at h
  · obtain ⟨j, hj, ho, rfl⟩ := nextRetransmission_some defer b.retransmissions.size b
      hb.lined.span_le (congrArg Prod.fst hrun)
    obtain rfl := Option.some.inj h
    exact ⟨j, hj, ho, rfl, rfl, rfl⟩
  obtain ⟨j, hj, ho, heq⟩ := nextOriginal_some defer now _ c (hfirst.sound hb).lined.span_le h
  have hs := hfirst.slot j
  have hpayloads : c.payloads = b.payloads := congrArg Standing.payloads hfirst.standing
  refine ⟨j, hj.trans_eq hfirst.slots.capacity, hs.occupied ▸ ho, ?_⟩
  have hform : packet = b.outbound j := by
    rw [heq]
    unfold outbound
    rw [hs.header, hs.payloadIndex, hs.sequencePosition, hpayloads]
  rw [hform]
  exact ⟨rfl, rfl, rfl⟩

/-- The form `preserve_protected_payload` stores for the packet at `i`. -/
def protectedForm (b : SendBuffer) (i : Nat) (key : EncryptionKey) (payload : Bytes) :
    OutboundPacket :=
  ⟨{ (b.slot i).header with encryptionKey := key }, payload, (b.slot i).sequencePosition⟩

/-- A success, the first or a repeated one, leaves the packet in its
protected form. -/
theorem preserveProtectedPayload_ok (h : b.Sound)
    (hsized : ∀ j < b.capacity, (b.slot j).occupied = true → b.Sized j)
    {sequence : SequenceNumber} {key : EncryptionKey} {mode : CryptoMode} {payload : Bytes}
    (hok : (b.preserveProtectedPayload sequence key mode payload).1 = .ok ()) :
    ∃ i, b.find sequence = some i ∧ key ≠ .none
      ∧ (b.preserveProtectedPayload sequence key mode payload).2.capacity = b.capacity
      ∧ ((b.preserveProtectedPayload sequence key mode payload).2.slot i).occupied = true
      ∧ (b.preserveProtectedPayload sequence key mode payload).2.outbound i
        = b.protectedForm i key payload := by
  unfold preserveProtectedPayload at hok ⊢
  split at hok
  · next i suite hfind hsuite =>
    obtain ⟨hoi, hi, -⟩ := find_eq_some hfind
    replace hi : i < b.capacity := hi.trans_le h.lined.span_le
    simp only at hok ⊢
    split at hok
    · cases hok
    split at hok
    · cases hok
    split at hok
    · cases hok
    next hsent hsmall hlength =>
    have hkey : key ≠ .none := by
      rintro rfl
      exact hsent (.inr (by decide))
    rw [if_neg hsent, if_neg hsmall, if_neg hlength]
    split at hok
    · next hprotected =>
      split at hok
      · next hsame =>
        rw [if_pos hprotected, if_pos hsame]
        refine ⟨i, hfind, hkey, rfl, hoi, ?_⟩
        have hcell : (b.payloads.get (b.slot i).payloadIndex).length = payload.length :=
          (hsized i hi hoi).trans hsame.2.2.1
        have hpayload : b.payloads.get (b.slot i).payloadIndex = payload := by
          rw [hsame.2.2.2, ← hcell, List.take_length]
        unfold outbound protectedForm
        rw [hpayload, ← hsame.1]
      · cases hok
    next hprotected =>
    rw [if_neg hprotected]
    refine ⟨i, hfind, hkey, rfl, ?_, ?_⟩
    · show ((b.slots.set i _).get i).occupied = true
      rw [SlotRing.get_set_self]
      exact hoi
    show (⟨((b.slots.set i _).get i).header, (b.payloads.store (b.slot i).payloadIndex payload).get
        ((b.slots.set i _).get i).payloadIndex,
      ((b.slots.set i _).get i).sequencePosition⟩ : OutboundPacket) = b.protectedForm i key _
    rw [SlotRing.get_set_self]
    exact congrArg (OutboundPacket.mk _ · _) (if_pos rfl)
  · cases hok

/-- Once the protected form of a packet is stored, every later emission of
the packet carries it: by its position at any time, and by its sequence number
as long as the packet is live. -/
theorem protected_form_is_fixed (h : Lts.Reachable system b) {sequence : SequenceNumber}
    {key : EncryptionKey} {mode : CryptoMode} {payload : Bytes} {b' : SendBuffer}
    (hok : b.preserveProtectedPayload sequence key mode payload = (.ok (), b')) {ops : List Op}
    (hc : ops.foldl apply b' = c) {packet : OutboundPacket} (hemits : c.Emits packet) :
    ∃ i, b.find sequence = some i
      ∧ (packet.sequencePosition = (b.slot i).sequencePosition →
        SameForm packet (b.protectedForm i key payload))
      ∧ ∀ j < c.capacity, (c.slot j).occupied = true →
        (c.slot j).sequencePosition = (b.slot i).sequencePosition →
          packet.header.sequence = sequence → SameForm packet (b.protectedForm i key payload) := by
  have hb := sound_of_reaches h
  obtain ⟨i, hfind, hkey, hcap, hoi, hform⟩ :=
    preserveProtectedPayload_ok hb (sized_of_reaches h) (congrArg Prod.fst hok)
  obtain ⟨-, hlt, hsequence⟩ := find_eq_some hfind
  have hi : i < b.capacity := hlt.trans_le hb.lined.span_le
  have hb' := hb.preserveProtectedPayload sequence key mode payload
  rw [hok] at hcap hoi hform hb'
  have hkeeps := hc ▸ keeps_foldl hb' ops
  have hsound := hc ▸ sound_foldl hb' ops
  have hheader : (b'.slot i).header.encryptionKey ≠ .none := by
    rw [show (b'.slot i).header = _ from congrArg OutboundPacket.header hform]
    exact hkey
  have hposition : (b'.slot i).sequencePosition = (b.slot i).sequencePosition :=
    congrArg OutboundPacket.sequencePosition hform
  have hfixed : ∀ k < c.capacity, (c.slot k).occupied = true →
      (c.slot k).sequencePosition = (b.slot i).sequencePosition →
        c.outbound k = b.protectedForm i key payload := fun k hk hok hpos =>
    (hkeeps.outbound_eq hb' (hi.trans_eq hcap.symm) hoi hheader hk hok
      (hpos.trans hposition.symm)).trans hform
  obtain ⟨k, hk, hok, hsame⟩ := hemits.live hsound
  refine ⟨i, hfind, fun hpos => ?_, fun j hj hoj hpos hseq => ?_⟩
  · exact hfixed k hk hok (hsame.2.1.symm.trans hpos) ▸ hsame
  -- both slots have the sequence number of the packet, so they are one
  have hj' := hfixed j hj hoj hpos
  have hsj : (c.slot j).header.sequence = sequence := by
    rw [show (c.slot j).header = _ from congrArg OutboundPacket.header hj', hsequence]
    exact (hb.lined.numbered i hlt).1
  have hsk : (c.slot k).header.sequence = sequence := by
    rw [show (c.slot k).header = _ from hsame.2.2.symm]
    exact hseq
  have hkj : k = j := hsound.lined.sequence_inj hk hj hok hoj (hsk.trans hsj.symm)
  rw [hkj, hj'] at hsame
  exact hsame

/-- A packet of two bytes, sent once. -/
def sentRun : SendBuffer :=
  [.enqueueMessage [1, 2] { messageNumber := 1 }, .nextPacket true true 0].foldl apply exampleSender

/-- A second packet is sent, and a NAK asks for the first one again. -/
def requestedAgain : List Op :=
  [.notePacketSubmitted (.ofNat (2 ^ 31 - 1)), .enqueueMessage [3] { messageNumber := 2 },
    .nextPacket false true 1,
    .requestRetransmission ⟨.ofNat (2 ^ 31 - 1), .ofNat (2 ^ 31 - 1)⟩ 2 0]

theorem protected_form_is_fixed_requestedAgain :
    ∃ b' packet, sentRun.preserveProtectedPayload (.ofNat (2 ^ 31 - 1)) .even .aesCtr [7, 8]
        = (.ok (), b')
      ∧ (requestedAgain.foldl apply b').Emits packet ∧ packet.header.retransmitted = true
      ∧ SameForm packet (sentRun.protectedForm 0 .even [7, 8]) := by
  have hok : (sentRun.preserveProtectedPayload (.ofNat (2 ^ 31 - 1)) .even .aesCtr [7, 8]).1
      = .ok () := by decide +kernel
  have hemits : ((requestedAgain.foldl apply (sentRun.preserveProtectedPayload
      (.ofNat (2 ^ 31 - 1)) .even .aesCtr [7, 8]).2).nextPacket false true 3).1
        = some (sentRun.protectedForm 0 .even [7, 8]
          |> fun p => { p with header := { p.header with retransmitted := true } }) := by
    decide +kernel
  refine ⟨_, _, Prod.ext hok rfl, ⟨false, true, 3, hemits⟩, rfl, ?_⟩
  obtain ⟨i, hfind, hposition, -⟩ := protected_form_is_fixed
    (exampleSender_reached.foldl (by decide +kernel)) (Prod.ext hok rfl) rfl
    ⟨false, true, 3, hemits⟩
  have hzero : sentRun.find (.ofNat (2 ^ 31 - 1)) = some 0 := by decide +kernel
  have hi : i = 0 := Option.some.inj (hfind.symm.trans hzero)
  subst hi
  exact hposition rfl

end SendBuffer

end Srt
