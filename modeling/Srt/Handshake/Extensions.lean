/-
# `Extensions` — HSREQ/HSRSP parameters and the live options they settle

`negotiate_live_options` reads the two parameter blocks of a connection
(`src/handshake_extensions.cpp`).  An HSRSP does not carry the responder's
configured delays but their composition with the requester's
(`responseExtensionParameters`); `negotiateLiveOptions_mirror` is the fact
that both ends still settle on mirrored options.
-/
import Srt.Packet

namespace Srt

inductive HandshakeExtensionType
  | handshakeRequest
  | handshakeResponse
  | keyMaterialRequest
  | keyMaterialResponse
  | streamId
  | congestion
  | packetFilter
  | group
  | sessionAuthentication
  | pathIdentifier
  | standbyRtt
  | implementationIdentity
  | multicastDispatch
  deriving DecidableEq, Repr

/-- The controllers of a build without experimental ones. -/
inductive CongestionController
  | live
  | file
  | control
  deriving DecidableEq, Repr

namespace CongestionController

def value : CongestionController → Nat
  | live => 0
  | file => 1
  | control => 2

/-- `is_experimental_congestion_controller`. -/
def isExperimental (c : CongestionController) : Bool :=
  c.value ≥ 128

/-- `congestion_controller_name`. -/
def name : CongestionController → List Char
  | live => "live".toList
  | file => "file".toList
  | control => "control-v1".toList

/-- `parse_congestion_controller`. -/
def parse (text : List Char) : Option CongestionController :=
  if text = "live".toList then some live
  else if text = "file".toList then some file
  else if text = "control-v1".toList then some control
  else none

@[simp] theorem parse_name (c : CongestionController) : parse c.name = some c := by
  cases c <;> decide

end CongestionController

namespace HandshakeExtensionFlag

def tsbpdSend : UInt32 := 0x1
def tsbpdReceive : UInt32 := 0x2
def crypt : UInt32 := 0x4
def tooLatePacketDrop : UInt32 := 0x8
def periodicNak : UInt32 := 0x10
def retransmitFlag : UInt32 := 0x20
def stream : UInt32 := 0x40
def packetFilter : UInt32 := 0x80

end HandshakeExtensionFlag

open HandshakeExtensionFlag

def hasFlag (flags flag : UInt32) : Bool :=
  flags &&& flag ≠ 0

structure HandshakeExtensionParameters where
  srtVersion : Nat := 0x00010507
  flags : UInt32 := tsbpdSend ||| tsbpdReceive ||| crypt ||| tooLatePacketDrop
    ||| periodicNak ||| retransmitFlag ||| packetFilter
  receiverTsbpdDelayMilliseconds : Nat := 120
  senderTsbpdDelayMilliseconds : Nat := 120
  deriving DecidableEq, Repr

def bufferMode (p : HandshakeExtensionParameters) : Bool :=
  hasFlag p.flags stream

def compatibleTransmissionMode
    (localParameters peer : HandshakeExtensionParameters) : Bool :=
  bufferMode localParameters = bufferMode peer

structure NegotiatedLiveOptions where
  sendTsbpd : Bool := false
  receiveTsbpd : Bool := false
  tooLatePacketDrop : Bool := false
  senderTooLatePacketDrop : Bool := false
  periodicNak : Bool := false
  retransmitFlag : Bool := false
  receiveDelayMilliseconds : Nat := 0
  peerReceiveDelayMilliseconds : Nat := 0
  peerPeriodicNak : Bool := false
  deriving DecidableEq, Repr

def negotiateLiveOptions
    (localParameters peer : HandshakeExtensionParameters) :
    NegotiatedLiveOptions :=
  let sendTsbpd := hasFlag localParameters.flags tsbpdSend
    && hasFlag peer.flags tsbpdReceive
  let receiveTsbpd := hasFlag localParameters.flags tsbpdReceive
    && hasFlag peer.flags tsbpdSend
  { sendTsbpd
    receiveTsbpd
    tooLatePacketDrop :=
      receiveTsbpd && hasFlag localParameters.flags tooLatePacketDrop
    senderTooLatePacketDrop :=
      sendTsbpd && hasFlag peer.flags tooLatePacketDrop
    periodicNak := hasFlag localParameters.flags periodicNak
      && hasFlag peer.flags periodicNak
    retransmitFlag := hasFlag localParameters.flags retransmitFlag
      && hasFlag peer.flags retransmitFlag
    receiveDelayMilliseconds :=
      bif receiveTsbpd then
        max localParameters.receiverTsbpdDelayMilliseconds
          peer.senderTsbpdDelayMilliseconds
      else 0
    peerReceiveDelayMilliseconds :=
      bif sendTsbpd then
        max localParameters.senderTsbpdDelayMilliseconds
          peer.receiverTsbpdDelayMilliseconds
      else 0
    peerPeriodicNak := hasFlag peer.flags periodicNak }

/-- `response_extension_parameters`, which both handshake machines build
the same way: the configured block with its delays raised to the peer's. -/
def composeResponse (own : HandshakeExtensionParameters)
    (peer : Option HandshakeExtensionParameters) :
    HandshakeExtensionParameters :=
  match peer with
  | none => own
  | some p =>
    { own with
      receiverTsbpdDelayMilliseconds :=
        max own.receiverTsbpdDelayMilliseconds p.senderTsbpdDelayMilliseconds
      senderTsbpdDelayMilliseconds :=
        max own.senderTsbpdDelayMilliseconds p.receiverTsbpdDelayMilliseconds }

/-! ## Mirrored options -/

/-- `a` and `b` are the two ends of one settlement: what one sends the
other receives, and the symmetric options are equal. -/
structure NegotiatedLiveOptions.Mirror (a b : NegotiatedLiveOptions) :
    Prop where
  send : a.sendTsbpd = b.receiveTsbpd
  receive : a.receiveTsbpd = b.sendTsbpd
  drop : a.tooLatePacketDrop = b.senderTooLatePacketDrop
  senderDrop : a.senderTooLatePacketDrop = b.tooLatePacketDrop
  delay : a.receiveDelayMilliseconds = b.peerReceiveDelayMilliseconds
  peerDelay : a.peerReceiveDelayMilliseconds = b.receiveDelayMilliseconds
  nak : a.periodicNak = b.periodicNak
  retransmit : a.retransmitFlag = b.retransmitFlag

theorem NegotiatedLiveOptions.Mirror.symm {a b : NegotiatedLiveOptions}
    (h : a.Mirror b) : b.Mirror a :=
  ⟨h.receive.symm, h.send.symm, h.senderDrop.symm, h.drop.symm,
    h.peerDelay.symm, h.delay.symm, h.nak.symm, h.retransmit.symm⟩

/-- The requester reads the composed response, the responder the plain
request; the composed delays do not change either maximum. -/
theorem negotiateLiveOptions_mirror (req res : HandshakeExtensionParameters) :
    (negotiateLiveOptions req (composeResponse res (some req))).Mirror
      (negotiateLiveOptions res req) where
  send := by simp only [negotiateLiveOptions, composeResponse, Bool.and_comm]
  receive := by simp only [negotiateLiveOptions, composeResponse, Bool.and_comm]
  drop := by simp only [negotiateLiveOptions, composeResponse, Bool.and_comm]
  senderDrop := by
    simp only [negotiateLiveOptions, composeResponse, Bool.and_comm]
  delay := by
    simp only [negotiateLiveOptions, composeResponse, Bool.and_comm]
    congr 1
    omega
  peerDelay := by
    simp only [negotiateLiveOptions, composeResponse, Bool.and_comm]
    congr 1
    omega
  nak := by simp only [negotiateLiveOptions, composeResponse, Bool.and_comm]
  retransmit := by
    simp only [negotiateLiveOptions, composeResponse, Bool.and_comm]

end Srt
