/-
# `Codec` — packets as bytes

`encode_packet` and `decode_packet` of `src/codec.cpp`: a header of four
words in network order, the first of which tells DATA from control, and the
payload behind it.  The destination buffer of the encoder is its size.

A control packet without payload may carry one zero word instead
(`usesZeroWordPayload`), and no other empty control payload is decoded.
-/
import Srt.Crypto.KeyMaterial

namespace Srt

variable {payload : Bytes} {h : ControlHeader}

inductive ControlType
  | handshake
  | keepalive
  | acknowledgement
  | negativeAcknowledgement
  | congestionWarning
  | shutdown
  | acknowledgementOfAck
  | dropRequest
  | peerError
  | userDefined
  deriving DecidableEq, Repr

namespace ControlType

def value : ControlType → Nat
  | .handshake => 0
  | .keepalive => 1
  | .acknowledgement => 2
  | .negativeAcknowledgement => 3
  | .congestionWarning => 4
  | .shutdown => 5
  | .acknowledgementOfAck => 6
  | .dropRequest => 7
  | .peerError => 8
  | .userDefined => 0x7fff

/-- The cast of a type word, `none` where `is_known_control_type` fails. -/
def ofValue (type : Nat) : Option ControlType :=
  if type = 0x7fff then some .userDefined
  else
    match type with
    | 0 => some .handshake
    | 1 => some .keepalive
    | 2 => some .acknowledgement
    | 3 => some .negativeAcknowledgement
    | 4 => some .congestionWarning
    | 5 => some .shutdown
    | 6 => some .acknowledgementOfAck
    | 7 => some .dropRequest
    | 8 => some .peerError
    | _ => none

/-- `control_uses_zero_word_payload`. -/
def usesZeroWordPayload : ControlType → Bool
  | .keepalive => true
  | .congestionWarning => true
  | .shutdown => true
  | .acknowledgementOfAck => true
  | .peerError => true
  | _ => false

theorem ofValue_value (t : ControlType) : ofValue t.value = some t := by
  cases t <;> rfl

theorem value_lt (t : ControlType) : t.value < 2 ^ 15 := by
  cases t <;> decide

end ControlType

structure ControlHeader where
  type : ControlType := .handshake
  subtype : UInt16 := 0
  typeSpecific : UInt32 := 0
  timestamp : PacketTimestamp := {}
  destinationSocketId : UInt32 := 0
  deriving DecidableEq, Repr

/-- `PacketView`; the source keeps both headers and a kind. -/
inductive PacketView
  | data (packet : DataPacket)
  | control (header : ControlHeader) (payload : Bytes)
  deriving DecidableEq, Repr

/-- `has_valid_control_payload_shape`. -/
def hasValidControlPayloadShape (payload : Bytes) : Bool :=
  !payload.isEmpty && payload.length % 4 == 0

def MessageBoundary.value : MessageBoundary → Nat
  | .subsequent => 0
  | .last => 1
  | .first => 2
  | .solo => 3

def MessageBoundary.ofBits (bits : Nat) : MessageBoundary :=
  match bits with
  | 1 => .last
  | 2 => .first
  | 3 => .solo
  | _ => .subsequent

/-- The sixteen bytes of a DATA header. -/
def DataHeader.bytes (h : DataHeader) : Bytes :=
  writeU32 h.sequence.value
    ++ writeU32 (h.boundary.value * 2 ^ 30 + h.inOrder.toNat * 2 ^ 29
      + h.encryptionKey.value.toNat * 2 ^ 27 + h.retransmitted.toNat * 2 ^ 26
      + h.messageNumber % 2 ^ 26)
    ++ writeU32 h.timestamp.value.toNat ++ writeU32 h.destinationSocketId

/-- The sixteen bytes of a control header. -/
def ControlHeader.bytes (h : ControlHeader) : Bytes :=
  writeU32 (2 ^ 31 + h.type.value * 2 ^ 16 + h.subtype.toNat) ++ writeU32 h.typeSpecific.toNat
    ++ writeU32 h.timestamp.value.toNat ++ writeU32 h.destinationSocketId.toNat

def encodePacket (packet : PacketView) (capacity : Nat) : Except Error Bytes :=
  match packet with
  | .data p =>
    if capacity < packetHeaderSize + p.payload.length then .error .bufferTooSmall
    else .ok (p.header.bytes ++ p.payload)
  | .control h payload =>
    let payload := if payload.isEmpty && h.type.usesZeroWordPayload then [0, 0, 0, 0] else payload
    if capacity < packetHeaderSize + payload.length then .error .bufferTooSmall
    else .ok (h.bytes ++ payload)

def decodePacket (bytes : Bytes) : Except Error PacketView :=
  match bytes with
  | a₀ :: a₁ :: a₂ :: a₃ :: b₀ :: b₁ :: b₂ :: b₃ :: c₀ :: c₁ :: c₂ :: c₃
      :: d₀ :: d₁ :: d₂ :: d₃ :: payload =>
      let word0 := readU32 a₀ a₁ a₂ a₃
      let word1 := readU32 b₀ b₁ b₂ b₃
      let timestamp : PacketTimestamp := ⟨UInt32.ofNat (readU32 c₀ c₁ c₂ c₃)⟩
      let socketId := readU32 d₀ d₁ d₂ d₃
      if word0 < 2 ^ 31 then
        .ok (.data { payload, header := {
          sequence := SequenceNumber.ofNat word0
          boundary := .ofBits (word1 / 2 ^ 30 % 4)
          inOrder := word1 / 2 ^ 29 % 2 != 0
          encryptionKey := .ofBits (UInt8.ofNat (word1 / 2 ^ 27 % 4))
          retransmitted := word1 / 2 ^ 26 % 2 != 0
          messageNumber := word1 % 2 ^ 26
          timestamp
          destinationSocketId := socketId } })
      else
        match ControlType.ofValue (word0 / 2 ^ 16 % 2 ^ 15) with
        | none => .error .invalidControlType
        | some type =>
          if hasValidControlPayloadShape payload = false then .error .invalidControlPayload
          else .ok (.control {
            type
            subtype := UInt16.ofNat word0
            typeSpecific := UInt32.ofNat word1
            timestamp
            destinationSocketId := UInt32.ofNat socketId } payload)
  | _ => .error .packetTooShort

/-! ## Round trip -/

@[simp] theorem writeU32_length (n : Nat) : (writeU32 n).length = 4 := by
  simp [writeU32, writeU16]

theorem ControlHeader.bytes_length (h : ControlHeader) : h.bytes.length = packetHeaderSize := rfl

/-- A word is read as it was written. -/
theorem readU32_writeU32 {n : Nat} (h : n < 2 ^ 32) :
    readU32 (UInt8.ofNat (n / 65536 / 256)) (UInt8.ofNat (n / 65536)) (UInt8.ofNat (n / 256))
      (UInt8.ofNat n) = n := by
  simp only [readU32, readU16, UInt8.toNat_ofNat']
  omega

theorem decodePacket_control (hshape : hasValidControlPayloadShape payload = true) :
    decodePacket (h.bytes ++ payload) = .ok (.control h payload) := by
  have htype := h.type.value_lt
  have hsub := h.subtype.toNat_lt
  have hword : 2 ^ 31 + h.type.value * 2 ^ 16 + h.subtype.toNat < 2 ^ 32 := by omega
  have hbranch : ¬ 2 ^ 31 + h.type.value * 2 ^ 16 + h.subtype.toNat < 2 ^ 31 := by omega
  have hvalue : (2 ^ 31 + h.type.value * 2 ^ 16 + h.subtype.toNat) / 2 ^ 16 % 2 ^ 15
      = h.type.value := by omega
  unfold ControlHeader.bytes writeU32 writeU16
  simp only [List.cons_append, List.nil_append]
  rw [decodePacket, readU32_writeU32 hword, readU32_writeU32 h.typeSpecific.toNat_lt,
    readU32_writeU32 h.timestamp.value.toNat_lt, readU32_writeU32 h.destinationSocketId.toNat_lt,
    if_neg hbranch, hvalue, ControlType.ofValue_value]
  simp [hshape]

/-- A decoded control stands behind sixteen bytes and has whole words. -/
theorem length_of_decodePacket {bytes : Bytes}
    (hdecode : decodePacket bytes = .ok (.control h payload)) :
    bytes.length = packetHeaderSize + payload.length
      ∧ hasValidControlPayloadShape payload = true := by
  unfold decodePacket at hdecode
  split at hdecode
  · dsimp only at hdecode
    split at hdecode
    · cases hdecode
    split at hdecode
    · cases hdecode
    split at hdecode
    · cases hdecode
    next hshape =>
    cases hdecode
    refine ⟨?_, by simpa using hshape⟩
    simp only [List.length_cons, packetHeaderSize]
    omega
  · cases hdecode

/-- A payload that is not empty is encoded as it is. -/
theorem encodePacket_control {capacity : Nat} (hne : payload ≠ []) :
    encodePacket (.control h payload) capacity
      = if capacity < packetHeaderSize + payload.length then .error .bufferTooSmall
        else .ok (h.bytes ++ payload) := by
  have hempty : payload.isEmpty = false := by simpa using hne
  simp only [encodePacket, hempty, Bool.false_and, Bool.false_eq_true, if_false]

end Srt
