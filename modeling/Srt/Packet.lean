/-
# `Packet` — errors, packet headers and bytes

The record types shared by every component
(`include/robotweax/srt/error.hpp`, `packet.hpp`).  Spans become lists:
nothing modelled depends on where the bytes live.
-/
import Srt.Sequence

namespace Srt

abbrev Bytes := List UInt8

instance Bytes.lawfulBEq : LawfulBEq Bytes := inferInstance

/-- `Error` without `none`, which is the success branch of `Except Error`. -/
inductive Error
  | bufferTooSmall
  | packetTooShort
  | invalidPacketType
  | invalidControlType
  | invalidControlPayload
  | invalidHandshakeSize
  | invalidHandshakeValue
  | invalidExtension
  | invalidState
  | ioError
  | wouldBlock
  | unsupported
  | invalidKeyMaterial
  | cryptographicFailure
  | authenticationFailure
  | invalidPayloadSize
  deriving DecidableEq, Repr

/-- Connection-relative microseconds modulo `2^32`. -/
structure PacketTimestamp where
  value : UInt32 := 0
  deriving DecidableEq, Repr, Inhabited

inductive MessageBoundary
  | subsequent
  | last
  | first
  | solo
  deriving DecidableEq, Repr, Inhabited

inductive EncryptionKey
  | none
  | even
  | odd
  | reserved
  deriving DecidableEq, Repr, Inhabited

structure DataHeader where
  sequence : SequenceNumber
  messageNumber : Nat := 0
  boundary : MessageBoundary := .subsequent
  inOrder : Bool := false
  encryptionKey : EncryptionKey := .none
  retransmitted : Bool := false
  timestamp : PacketTimestamp := {}
  destinationSocketId : Nat := 0
  deriving DecidableEq, Repr, Inhabited

def packetHeaderSize : Nat := 16

def maximumDataPayloadSize : Nat := 1456

/-- A decoded DATA packet: the `data` half of `PacketView`. -/
structure DataPacket where
  header : DataHeader
  payload : Bytes
  deriving DecidableEq, Repr, Inhabited

end Srt
