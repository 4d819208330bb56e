/-
# `PacketFormat` — the decoder accepts what the encoder writes and nothing else

A datagram has one reading and a packet one form: `decode_packet` undoes
`encode_packet`, and what it accepts is encoded to the bytes it came from.
-/
import Srt.Authentication.Domains

namespace Srt

/-- Fields in their widths, and a control payload of whole words. -/
def PacketView.WellFormed : PacketView → Prop
  | .data p => p.header.Sized
  | .control _ payload => hasValidControlPayloadShape payload = true

/-- What the encoder writes when there is room. -/
def PacketView.bytes : PacketView → Bytes
  | .data p => p.header.bytes ++ p.payload
  | .control h payload =>
    h.bytes ++ if payload.isEmpty && h.type.usesZeroWordPayload then [0, 0, 0, 0] else payload

variable {a b c d : UInt8} {bytes : Bytes} {packet : PacketView} {p : DataPacket} {capacity : Nat}

theorem encodePacket_eq_ok_iff :
    encodePacket packet capacity = .ok bytes
      ↔ packet.bytes.length ≤ capacity ∧ packet.bytes = bytes := by
  have heq : encodePacket packet capacity = if capacity < packet.bytes.length
      then .error .bufferTooSmall else .ok packet.bytes := by
    cases packet <;> rw [PacketView.bytes, List.length_append] <;> rfl
  grind

theorem writeU32_readU32 :
    readU32 a b c d < 2 ^ 32 ∧ writeU32 (readU32 a b c d) = [a, b, c, d] := by
  simp only [writeU32, writeU16, readU32, readU16, List.cons_append, List.nil_append,
    List.cons.injEq, and_true, ← UInt8.toNat_inj, UInt8.toNat_ofNat']
  have := a.toNat_lt
  have := b.toNat_lt
  have := c.toNat_lt
  have := d.toNat_lt
  omega

theorem bytes_control {h : ControlHeader} {payload : Bytes}
    (hshape : hasValidControlPayloadShape payload = true) :
    (PacketView.control h payload).bytes = h.bytes ++ payload := by
  cases payload with
  | nil => cases hshape
  | cons => rfl

/-- The fields of the second word of a DATA header make it up. -/
theorem flags_of_word {n : Nat} (h : n < 2 ^ 32) :
    (MessageBoundary.ofBits (n / 2 ^ 30 % 4)).value * 2 ^ 30 + (n / 2 ^ 29 % 2 != 0).toNat * 2 ^ 29
      + (EncryptionKey.ofBits (.ofNat (n / 2 ^ 27 % 4))).value.toNat * 2 ^ 27
      + (n / 2 ^ 26 % 2 != 0).toNat * 2 ^ 26 + n % 2 ^ 26 % 2 ^ 26 = n := by
  have hboundary : ∀ m < 4, (MessageBoundary.ofBits m).value = m := by decide
  have hkey : ∀ m < 4, (EncryptionKey.ofBits (.ofNat m)).value.toNat = m := by decide
  have hflag (m : Nat) : (m % 2 != 0).toNat = m % 2 := by
    rcases Nat.mod_two_eq_zero_or_one m with hm | hm <;> rw [hm] <;> rfl
  rw [hboundary _ (by omega), hkey _ (by omega), hflag, hflag]
  omega

theorem ControlType.value_of_ofValue {n : Nat} {t : ControlType} (h : ofValue n = some t) :
    t.value = n := by
  unfold ofValue at h
  split at h
  · cases h
    exact Eq.symm ‹_›
  split at h <;> cases h <;> rfl

theorem decodePacket_sound (hdecode : decodePacket bytes = .ok packet) :
    packet.WellFormed ∧ packet.bytes = bytes := by
  unfold decodePacket at hdecode
  split at hdecode
  case h_2 => cases hdecode
  dsimp only at hdecode
  split at hdecode
  · next hdata =>
    cases hdecode
    refine ⟨⟨Nat.mod_lt _ (by decide), writeU32_readU32.1⟩, ?_⟩
    simp only [PacketView.bytes, DataHeader.bytes, SequenceNumber.ofNat, Nat.mod_eq_of_lt hdata,
      flags_of_word, UInt32.toNat_ofNat', Nat.mod_eq_of_lt, writeU32_readU32, List.cons_append,
      List.nil_append]
  next hcontrol =>
  split at hdecode
  · cases hdecode
  next type htype =>
  split at hdecode
  · cases hdecode
  next hshape =>
  cases hdecode
  rw [Bool.not_eq_false] at hshape
  have hword : ∀ n < 2 ^ 32, ¬ n < 2 ^ 31 →
      2 ^ 31 + n / 2 ^ 16 % 2 ^ 15 * 2 ^ 16 + n % 2 ^ 16 = n := by omega
  refine ⟨hshape, ?_⟩
  rw [bytes_control hshape]
  simp only [ControlHeader.bytes, ControlType.value_of_ofValue htype, UInt16.toNat_ofNat',
    hword _ writeU32_readU32.1 hcontrol, UInt32.toNat_ofNat', Nat.mod_eq_of_lt, writeU32_readU32,
    List.cons_append, List.nil_append]

theorem decodePacket_data : ∃ q, decodePacket (p.header.bytes ++ p.payload) = .ok (.data q) := by
  have hsequence := p.header.sequence.value_lt
  unfold DataHeader.bytes writeU32 writeU16
  simp only [List.cons_append, List.nil_append]
  rw [decodePacket, readU32_writeU32 (by omega), if_pos hsequence]
  exact ⟨_, rfl⟩

theorem decodePacket_bytes (hwell : packet.WellFormed) :
    decodePacket packet.bytes = .ok packet := by
  cases packet with
  | data p =>
    -- what it decodes to has the same bytes, and these determine a header
    obtain ⟨⟨header, payload⟩, hq⟩ := decodePacket_data (p := p)
    obtain ⟨hsized, hsame⟩ := decodePacket_sound hq
    obtain ⟨rfl, rfl⟩ := DataHeader.bytes_append_inj hsized hwell hsame
    exact hq
  | control h payload =>
    rw [bytes_control hwell]
    exact decodePacket_control hwell

theorem decoder_inverts_encoder (bytes : Bytes) :
    (∀ packet, decodePacket bytes = .ok packet
      ↔ packet.WellFormed ∧ ∃ capacity, encodePacket packet capacity = .ok bytes)
    ∧ ∀ h capacity, encodePacket (.control h []) capacity = .ok bytes →
      h.type.usesZeroWordPayload = true → decodePacket bytes = .ok (.control h [0, 0, 0, 0]) := by
  simp only [encodePacket_eq_ok_iff]
  refine ⟨fun packet => ⟨fun hdecode => ?_, ?_⟩, ?_⟩
  · obtain ⟨hwell, hbytes⟩ := decodePacket_sound hdecode
    exact ⟨hwell, _, le_rfl, hbytes⟩
  · rintro ⟨hwell, capacity, -, rfl⟩
    exact decodePacket_bytes hwell
  · rintro h capacity ⟨-, rfl⟩ huses
    rw [PacketView.bytes, huses]
    exact decodePacket_control rfl

end Srt
