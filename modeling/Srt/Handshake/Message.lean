/-
# `Message` — handshake messages and the datagrams that carry them

The records exchanged by the handshake machines
(`include/robotweax/srt/handshake.hpp`, `connection_group.hpp`,
`session_authentication.hpp`, `standby_rtt.hpp`,
`implementation_identity.hpp`) and the datagram codec of
`src/handshake_datagram.cpp`.

A datagram is modelled as the fixed handshake followed by its typed
extension records: every check of the two codec functions is here, the byte
layout inside one record is not.  A pair of source fields `has_x`, `x` is an
`Option`; a machine's `send` action and the message the peer decodes share
one record type.
-/
import Srt.Crypto.KeyMaterial
import Srt.Handshake.Extensions
import Srt.Handshake.PacketFilter
import Mathlib.Data.List.TakeWhile

namespace Srt

/-- `HandshakeRequest`; values from 1000 on are rejections and carry their
reason. -/
inductive HandshakeRequest
  | conclusion
  | agreement
  | done
  | waveAHand
  | induction
  | rejection (reason : Nat)
  deriving DecidableEq, Repr

/-- `valid_request`: everything the decoder knows except `done`. -/
def HandshakeRequest.valid : HandshakeRequest → Bool
  | .done => false
  | _ => true

def handshakeVersion4 : Nat := 4

def handshakeVersion5 : Nat := 5

def handshakeSrtMagic : UInt16 := 0x4a17

def handshakeExtensionFlagHandshake : UInt16 := 1

def handshakeExtensionFlagKeyMaterial : UInt16 := 2

def handshakeExtensionFlagConfig : UInt16 := 4

structure Handshake where
  version : Nat := handshakeVersion5
  encryptionField : Nat := 0
  extensionField : UInt16 := 0
  initialSequence : SequenceNumber := default
  maximumTransmissionUnit : Nat := 1500
  flowWindow : Nat := 25600
  request : HandshakeRequest := .induction
  socketId : Nat := 0
  synCookie : UInt32 := 0
  peerAddress : List UInt32 := [0, 0, 0, 0]
  deriving DecidableEq, Repr

/-- The value checks shared by `encode_handshake` and
`decode_handshake_payload`; the sequence is in range by its type. -/
def Handshake.valid (p : Handshake) : Bool :=
  (p.version == handshakeVersion4 || p.version == handshakeVersion5)
    && decide (76 ≤ p.maximumTransmissionUnit)
    && decide (2 ≤ p.flowWindow ∧ p.flowWindow ≤ 2 ^ 31 - 1)
    && p.request.valid

/-! ## Group membership -/

/-- `GroupType`; the decoder keeps values without a name. -/
inductive GroupType
  | undefined
  | broadcast
  | backup
  | balancing
  | multicast
  | unnamed (value : UInt8)
  deriving DecidableEq, Repr

structure GroupMembership where
  groupId : UInt32 := 0
  type : GroupType := .undefined
  flags : UInt8 := 0
  weight : Nat := 0
  deriving DecidableEq, Repr

inductive GroupMembershipValidation
  | compatible
  | invalidGroupId
  | unsupportedType
  deriving DecidableEq, Repr

structure GroupMembershipPolicy where
  admitMulticastDispatch : Bool := false
  deriving DecidableEq, Repr

def groupHandleMask : UInt32 := 0x40000000

def validateGroupMembership (m : GroupMembership) (policy : GroupMembershipPolicy) :
    GroupMembershipValidation :=
  if m.groupId &&& groupHandleMask = 0 then .invalidGroupId
  else
    match m.type with
    | .broadcast => .compatible
    | .backup => .compatible
    | .multicast =>
      if policy.admitMulticastDispatch ∧ m.flags = 0 ∧ m.weight = 0 then .compatible
      else .unsupportedType
    | _ => .unsupportedType

inductive IpAddressFamily
  | ipv4
  | ipv6
  deriving DecidableEq, Repr

structure IpEndpoint where
  address : List UInt8 := List.replicate 16 0
  port : Nat := 0
  scopeId : Nat := 0
  family : IpAddressFamily := .ipv4
  deriving DecidableEq, Repr

def IpEndpoint.isMulticast (e : IpEndpoint) : Bool :=
  match e.family with
  | .ipv4 => e.address.headD 0 &&& 0xf0 == 0xe0
  | .ipv6 => e.address.headD 0 == 0xff

structure MulticastDispatch where
  groupId : UInt32 := 0
  multicastGroup : IpEndpoint := {}
  hasInterfaceHint : Bool := false
  interfaceHint : IpEndpoint := {}
  initialSequence : Nat := 0
  timestampOriginDeltaMicroseconds : Int := 0
  timeToLive : Nat := 1
  deriving DecidableEq, Repr

def validMulticastDispatch (d : MulticastDispatch) : Bool :=
  if d.groupId &&& groupHandleMask = 0 then false
  else if d.multicastGroup.isMulticast = false ∨ d.multicastGroup.port = 0
      ∨ d.initialSequence > 2 ^ 31 - 1 then
    false
  else if d.hasInterfaceHint
      ∧ (d.interfaceHint.family ≠ d.multicastGroup.family ∨ d.interfaceHint.isMulticast) then
    false
  else true

/-- What the wire keeps of an announcement: the address bytes of its family
and the selector of a present interface hint. -/
def MulticastDispatch.onWire (d : MulticastDispatch) : MulticastDispatch :=
  let family := d.multicastGroup.family
  { d with
    multicastGroup :=
      { address := match family with
          | .ipv4 => d.multicastGroup.address.take 4 ++ List.replicate 12 0
          | .ipv6 => d.multicastGroup.address
        port := d.multicastGroup.port
        family }
    interfaceHint :=
      if d.hasInterfaceHint then
        match family with
        | .ipv4 =>
          { address := d.interfaceHint.address.take 4 ++ List.replicate 12 0, family }
        | .ipv6 => { scopeId := d.interfaceHint.scopeId, family }
      else { family } }

/-! ## The other extension contents -/

def sessionAuthenticationVersion : Nat := 2

structure SessionAuthenticationParameters where
  callerNonce : Bytes := List.replicate 32 0
  listenerNonce : Bytes := List.replicate 32 0
  proof : Bytes := List.replicate 32 0
  version : Nat := sessionAuthenticationVersion
  deriving DecidableEq, Repr

/-- `zero`: no byte of the field is set. -/
def allZero (bytes : Bytes) : Bool := bytes.all (· == 0)

namespace SessionAuthenticationParameters

def isOffer (p : SessionAuthenticationParameters) : Bool :=
  !allZero p.callerNonce && allZero p.listenerNonce && allZero p.proof

def isProof (p : SessionAuthenticationParameters) : Bool :=
  !allZero p.callerNonce && !allZero p.listenerNonce && !allZero p.proof

/-- `matches`; the comparison is of all four fields. -/
def agreesWith (p peer : SessionAuthenticationParameters) : Bool :=
  p.version == peer.version && p.callerNonce == peer.callerNonce
    && p.listenerNonce == peer.listenerNonce && p.proof == peer.proof

end SessionAuthenticationParameters

/-- `PathIdentifier`: the first `size` bytes of its array. -/
structure PathIdentifier where
  bytes : Bytes := []
  deriving DecidableEq, Repr

def PathIdentifier.valid (p : PathIdentifier) : Bool :=
  decide (0 < p.bytes.length ∧ p.bytes.length ≤ 32)

abbrev StandbyRttNonce := Bytes

def validStandbyRttNonce (nonce : StandbyRttNonce) : Bool := !allZero nonce

structure StandbyRttIdentity where
  caller : StandbyRttNonce := List.replicate 16 0
  listener : StandbyRttNonce := List.replicate 16 0
  deriving DecidableEq, Repr

namespace StandbyRttIdentity

def isOffer (i : StandbyRttIdentity) : Bool :=
  validStandbyRttNonce i.caller && !validStandbyRttNonce i.listener

def isPair (i : StandbyRttIdentity) : Bool :=
  validStandbyRttNonce i.caller && validStandbyRttNonce i.listener
    && i.caller != i.listener

end StandbyRttIdentity

structure ImplementationIdentity where
  name : List Char := []
  release : List Char := []
  deriving DecidableEq, Repr

/-- `valid_text`: a leading alphanumeric, then those and a few marks; a name
may hold blanks but not end in one, and only a release may be empty. -/
def validIdentityText (isName : Bool) (text : List Char) : Bool :=
  match text with
  | [] => !isName
  | c :: _ =>
    c.isAlphanum
      && text.all (fun c => c.isAlphanum || c == '.' || c == '_' || c == '+'
        || c == '-' || (isName && c == ' '))
      && (!isName || text.getLast? != some ' ')

def ImplementationIdentity.valid (i : ImplementationIdentity) : Bool :=
  decide (0 < i.name.length ∧ i.name.length ≤ 32 ∧ i.release.length ≤ 64)
    && validIdentityText true i.name && validIdentityText false i.release

/-- `implementation_identity_record_size`, zero for a record not sent. -/
def implementationIdentityRecordSize (i : ImplementationIdentity) : Nat :=
  if i.valid then 4 + (12 + i.name.length + i.release.length + 3) / 4 * 4 else 0

/-! ## Messages and actions -/

structure HandshakeMessage where
  packet : Handshake := {}
  handshakeExtension : Option (HandshakeExtensionType × HandshakeExtensionParameters) := none
  keyMaterial : Option (HandshakeExtensionType × Bytes) := none
  streamId : Option (List Char) := none
  congestion : Option CongestionController := none
  packetFilter : Option PacketFilterConfiguration := none
  groupMembership : Option GroupMembership := none
  sessionAuthentication : Option SessionAuthenticationParameters := none
  pathIdentifier : Option PathIdentifier := none
  standbyRtt : Option StandbyRttIdentity := none
  multicastDispatch : Option MulticastDispatch := none
  implementationIdentity : ImplementationIdentity := {}
  hasUnknownExtension : Bool := false
  deriving DecidableEq, Repr

/-- `HandshakeAction`, one constructor per kind with the fields it sets. -/
inductive HandshakeAction
  | send (message : HandshakeMessage)
  | connected
  | rejected (reason : Nat)
  | armTimer (timeoutMilliseconds : Nat)
  | failed
  deriving DecidableEq, Repr

/-- The messages among a machine's actions. -/
def sentMessages (actions : List HandshakeAction) : List HandshakeMessage :=
  actions.filterMap fun
    | .send m => some m
    | _ => none

@[simp] theorem sentMessages_nil : sentMessages [] = [] := rfl

@[simp] theorem sentMessages_send (out : HandshakeMessage) (rest : List HandshakeAction) :
    sentMessages (.send out :: rest) = out :: sentMessages rest := rfl

@[simp] theorem sentMessages_connected (rest : List HandshakeAction) :
    sentMessages (.connected :: rest) = sentMessages rest := rfl

@[simp] theorem sentMessages_failed (rest : List HandshakeAction) :
    sentMessages (.failed :: rest) = sentMessages rest := rfl

@[simp] theorem sentMessages_armTimer (t : Nat) (rest : List HandshakeAction) :
    sentMessages (.armTimer t :: rest) = sentMessages rest := rfl

@[simp] theorem sentMessages_rejected (reason : Nat) (rest : List HandshakeAction) :
    sentMessages (.rejected reason :: rest) = sentMessages rest := rfl

/-! ## The datagram codec -/

inductive HandshakeExtension
  | handshake (type : HandshakeExtensionType) (parameters : HandshakeExtensionParameters)
  | keyMaterial (type : HandshakeExtensionType) (content : Bytes)
  | streamId (text : List Char)
  | congestion (text : List Char)
  | packetFilter (text : List Char)
  | group (membership : GroupMembership)
  | sessionAuthentication (parameters : SessionAuthenticationParameters)
  | pathIdentifier (identifier : PathIdentifier)
  | standbyRtt (identity : StandbyRttIdentity)
  | multicastDispatch (dispatch : MulticastDispatch)
  | implementationIdentity (identity : ImplementationIdentity)
  | unknown (type : Nat)
  deriving DecidableEq, Repr

structure HandshakeDatagram where
  handshake : Handshake
  extensions : List HandshakeExtension
  deriving DecidableEq, Repr

def maximumStreamIdSize : Nat := 512

/-- The size of a text record: header and text padded to whole words. -/
def textRecordSize (text : List Char) : Nat := 4 + (text.length + 3) / 4 * 4

/-- `total_required` of the encoder: everything except the identity. -/
def HandshakeMessage.requiredSize (m : HandshakeMessage) : Nat :=
  16 + 48 + (if m.handshakeExtension.isSome then 16 else 0)
    + (m.keyMaterial.elim 0 fun k => 4 + k.2.length)
    + m.streamId.elim 0 textRecordSize
    + m.congestion.elim 0 (fun c => textRecordSize c.name)
    + m.packetFilter.elim 0 (fun f => textRecordSize f.text)
    + (if m.groupMembership.isSome then 12 else 0)
    + (if m.sessionAuthentication.isSome then 104 else 0)
    + (if m.pathIdentifier.isSome then 44 else 0)
    + (if m.standbyRtt.isSome then 44 else 0)
    + (if m.multicastDispatch.isSome then 64 else 0)

/-- `identity_size`: the identity is sent when it fits behind the rest. -/
def HandshakeMessage.identitySize (m : HandshakeMessage) (capacity : Nat) : Nat :=
  let wanted := implementationIdentityRecordSize m.implementationIdentity
  let mss := m.packet.maximumTransmissionUnit
  if m.packet.version = handshakeVersion5 ∧ m.packet.request = .conclusion
      ∧ m.handshakeExtension.isSome ∧ 48 ≤ mss ∧ m.requiredSize ≤ mss - 48
      ∧ wanted ≤ mss - 48 - m.requiredSize ∧ wanted ≤ capacity - m.requiredSize then
    wanted
  else 0

/-- One optional record of the encoder: absent, or refused with the error
its check gives, or appended. -/
def encodeRecord {α : Type} (value : Option α) (refusal : α → Option Error)
    (record : α → HandshakeExtension) : Except Error (List HandshakeExtension) :=
  match value with
  | none => .ok []
  | some a =>
    match refusal a with
    | some e => .error e
    | none => .ok [record a]

def isHandshakeExtensionType (t : HandshakeExtensionType) : Bool :=
  t == .handshakeRequest || t == .handshakeResponse

def isKeyMaterialExtensionType (t : HandshakeExtensionType) : Bool :=
  t == .keyMaterialRequest || t == .keyMaterialResponse

def keyMaterialAccepted (bytes : Bytes) : Bool :=
  match decodeKeyMaterial bytes with
  | .ok _ => true
  | .error _ => false

/-- The key-material checks of the encoder.  Four bytes are a state report
and only a response may carry them; a size that is no multiple of four is
refused by `encode_extension`. -/
def keyMaterialRefusal (k : HandshakeExtensionType × Bytes) : Option Error :=
  if isKeyMaterialExtensionType k.1 = false ∨ k.2.length = 0
      ∨ (k.2.length ≠ 4 ∧ keyMaterialAccepted k.2 = false)
      ∨ (k.2.length = 4 ∧ k.1 ≠ .keyMaterialResponse) then
    some .invalidKeyMaterial
  else if k.2.length % 4 ≠ 0 then some .invalidExtension
  else none

def textRefusal (text : List Char) : Option Error :=
  if text.length > maximumStreamIdSize then some .invalidExtension else none

def filterRefusal (f : PacketFilterConfiguration) : Option Error :=
  if f.enabled = false ∨ f.text = [] then some .invalidExtension else textRefusal f.text

/-- Records that need the CONFIG bit of the caller's extension field. -/
def configRefusal (field : UInt16) (valid : Bool) : Option Error :=
  if field &&& handshakeExtensionFlagConfig = 0 then some .invalidExtension
  else if valid then none
  else some .invalidExtension

/-- The records of a message in the order the encoder writes them, the
identity excepted. -/
def encodeRecords (m : HandshakeMessage) : Except Error (List HandshakeExtension) := do
  let field := m.packet.extensionField
  let parameters ← encodeRecord m.handshakeExtension
    (fun e => if isHandshakeExtensionType e.1 then none else some .invalidExtension)
    fun e => .handshake e.1 e.2
  let keyMaterial ← encodeRecord m.keyMaterial keyMaterialRefusal
    fun k => .keyMaterial k.1 k.2
  let streamId ← encodeRecord m.streamId textRefusal .streamId
  let congestion ← encodeRecord m.congestion (fun _ => none) fun c => .congestion c.name
  let packetFilter ← encodeRecord m.packetFilter filterRefusal
    fun f => .packetFilter f.text
  let group ← encodeRecord m.groupMembership
    (fun g => if validateGroupMembership g ⟨true⟩ = .compatible then none
      else some .invalidExtension)
    .group
  let session ← encodeRecord m.sessionAuthentication
    (fun _ => configRefusal field true) .sessionAuthentication
  let path ← encodeRecord m.pathIdentifier (fun p => configRefusal field p.valid)
    .pathIdentifier
  let standby ← encodeRecord m.standbyRtt
    (fun i => configRefusal field (i.isOffer || i.isPair)) .standbyRtt
  let dispatch ← encodeRecord m.multicastDispatch
    (fun d => configRefusal field (validMulticastDispatch d))
    fun d => .multicastDispatch d.onWire
  return parameters ++ (keyMaterial ++ (streamId ++ (congestion ++ (packetFilter
    ++ (group ++ (session ++ (path ++ (standby ++ dispatch))))))))

/-- The fixed part as written: an identity behind it turns the CONFIG bit
on. -/
def HandshakeMessage.wirePacket (m : HandshakeMessage) (capacity : Nat) : Handshake :=
  if m.identitySize capacity = 0 then m.packet
  else { m.packet with
    extensionField := m.packet.extensionField ||| handshakeExtensionFlagConfig }

def HandshakeMessage.identityRecords (m : HandshakeMessage) (capacity : Nat) :
    List HandshakeExtension :=
  if m.identitySize capacity = 0 then []
  else [.implementationIdentity m.implementationIdentity]

def encodeHandshakeDatagram (m : HandshakeMessage) (capacity : Nat) :
    Except Error HandshakeDatagram :=
  let mss := m.packet.maximumTransmissionUnit
  if (m.pathIdentifier.isSome ∨ m.standbyRtt.isSome ∨ m.multicastDispatch.isSome)
      ∧ (mss < 48 ∨ m.requiredSize > mss - 48) then
    .error .bufferTooSmall
  else if capacity < m.requiredSize then .error .bufferTooSmall
  else if (m.wirePacket capacity).valid = false then .error .invalidHandshakeValue
  else
    match encodeRecords m with
    | .error e => .error e
    | .ok records => .ok ⟨m.wirePacket capacity, records ++ m.identityRecords capacity⟩

/-- `extension_is_advertised`: the category bit a record needs in the
extension field; the identity and unknown records need none. -/
def extensionIsAdvertised (e : HandshakeExtension) (flags : UInt16) : Bool :=
  match e with
  | .implementationIdentity _ => true
  | .unknown _ => true
  | .handshake _ _ => flags &&& handshakeExtensionFlagHandshake != 0
  | .keyMaterial _ _ => flags &&& handshakeExtensionFlagKeyMaterial != 0
  | _ => flags &&& handshakeExtensionFlagConfig != 0

/-- The decoder's message under construction and its two identity flags. -/
structure DecodeState where
  message : HandshakeMessage
  seenIdentity : Bool := false
  duplicateIdentity : Bool := false

/-- `decode_extension_text`: the text of a padded record ends at the first
NUL. -/
def cutAtNul (text : List Char) : List Char := text.takeWhile (· ≠ Char.ofNat 0)

/-- A record that may occur once: `present` is what was decoded before,
`checked` the value this one holds, or the error of its own decoder. -/
def decodeOnce {α : Type} (st : DecodeState) (present : Bool) (checked : Except Error α)
    (set : HandshakeMessage → α → HandshakeMessage) : Except Error DecodeState :=
  if present then .error .invalidExtension
  else
    match checked with
    | .error e => .error e
    | .ok a => .ok { st with message := set st.message a }

def checkedKeyMaterial (type : HandshakeExtensionType) (content : Bytes) :
    Except Error Bytes :=
  if content.length > maximumKeyMaterialSize then .error .invalidExtension
  else if type = .keyMaterialResponse ∧ content.length = 4 then .ok content
  else
    match decodeKeyMaterial content with
    | .error e => .error e
    | .ok _ => .ok content

def checkedText (text : List Char) : Except Error (List Char) :=
  if text.length > maximumStreamIdSize then .error .invalidExtension
  else .ok (cutAtNul text)

def checkedController (text : List Char) : Except Error CongestionController :=
  match checkedText text with
  | .error e => .error e
  | .ok t =>
    match CongestionController.parse t with
    | none => .error .invalidExtension
    | some c => .ok c

def checkedFilter (text : List Char) : Except Error PacketFilterConfiguration :=
  match checkedText text with
  | .error e => .error e
  | .ok t =>
    match parsePacketFilterConfiguration t with
    | .error _ => .error .invalidExtension
    | .ok f => if t ≠ [] ∧ f.enabled then .ok f else .error .invalidExtension

def checkedValue {α : Type} (valid : Bool) (a : α) : Except Error α :=
  if valid then .ok a else .error .invalidExtension

/-- An advertised record, by its type. -/
def decodeRecord (st : DecodeState) (e : HandshakeExtension) : Except Error DecodeState :=
  let m := st.message
  match e with
  | .implementationIdentity i =>
    let duplicate := st.duplicateIdentity || st.seenIdentity
    -- Diagnostic only: an identity out of place is dropped, not refused.
    let kept := !duplicate && m.packet.version == handshakeVersion5
      && m.packet.request == .conclusion
      && m.packet.extensionField &&& handshakeExtensionFlagConfig != 0
    .ok { message := { m with
            implementationIdentity := if kept && i.valid then i else {} }
          seenIdentity := true, duplicateIdentity := duplicate }
  | .handshake t p =>
    decodeOnce st m.handshakeExtension.isSome (.ok (t, p))
      fun m e => { m with handshakeExtension := some e }
  | .keyMaterial t content =>
    decodeOnce st m.keyMaterial.isSome (checkedKeyMaterial t content)
      fun m content => { m with keyMaterial := some (t, content) }
  | .streamId text =>
    decodeOnce st m.streamId.isSome (checkedText text)
      fun m text => { m with streamId := some text }
  | .congestion text =>
    decodeOnce st m.congestion.isSome (checkedController text)
      fun m c => { m with congestion := some c }
  | .packetFilter text =>
    decodeOnce st m.packetFilter.isSome (checkedFilter text)
      fun m f => { m with packetFilter := some f }
  | .group g =>
    decodeOnce st m.groupMembership.isSome (.ok g)
      fun m g => { m with groupMembership := some g }
  | .sessionAuthentication p =>
    decodeOnce st m.sessionAuthentication.isSome
      (checkedValue (p.version == sessionAuthenticationVersion) p)
      fun m p => { m with sessionAuthentication := some p }
  | .pathIdentifier p =>
    decodeOnce st m.pathIdentifier.isSome (checkedValue p.valid p)
      fun m p => { m with pathIdentifier := some p }
  | .standbyRtt i =>
    decodeOnce st m.standbyRtt.isSome (checkedValue (i.isOffer || i.isPair) i)
      fun m i => { m with standbyRtt := some i }
  | .multicastDispatch d =>
    decodeOnce st m.multicastDispatch.isSome
      (checkedValue (validMulticastDispatch d) d)
      fun m d => { m with multicastDispatch := some d }
  | .unknown _ => .ok { st with message := { m with hasUnknownExtension := true } }

/-- One turn of the record loop of `decode_handshake_datagram`. -/
def decodeExtension (st : DecodeState) (e : HandshakeExtension) :
    Except Error DecodeState :=
  if extensionIsAdvertised e st.message.packet.extensionField = false then
    .error .invalidExtension
  else decodeRecord st e

def decodeHandshakeDatagram (d : HandshakeDatagram) : Except Error HandshakeMessage :=
  if d.handshake.valid = false then .error .invalidHandshakeValue
  else
    match d.extensions.foldlM decodeExtension { message := { packet := d.handshake } } with
    | .error e => .error e
    | .ok st =>
      .ok (if st.message.handshakeExtension.isSome then st.message
        else { st.message with implementationIdentity := {} })

/-- The network's part: `m'` is what the peer decodes from the datagram of
`m`, written into a buffer of any size.  A message that does not encode or
decode is never delivered. -/
def Carries (m m' : HandshakeMessage) : Prop :=
  ∃ capacity d, encodeHandshakeDatagram m capacity = .ok d ∧ decodeHandshakeDatagram d = .ok m'

/-- The delivery through a buffer of one Ethernet frame's payload. -/
def transmit (m : HandshakeMessage) : Option HandshakeMessage :=
  match encodeHandshakeDatagram m 1472 with
  | .error _ => none
  | .ok d =>
    match decodeHandshakeDatagram d with
    | .error _ => none
    | .ok m' => some m'

theorem carries_of_transmit (m m' : HandshakeMessage) (h : transmit m = some m') :
    Carries m m' := by
  simp only [transmit] at h
  split at h
  · cases h
  next d hd =>
  split at h
  · cases h
  next m'' hm =>
  cases h
  exact ⟨1472, d, hd, hm⟩

/-! ## What a delivered message holds -/

/-- The message the peer decodes: `m` with texts cut at a NUL, the filter
parsed again from its text, and the packet and identity the wire gave. -/
def HandshakeMessage.received (m : HandshakeMessage) (packet : Handshake)
    (identity : ImplementationIdentity) : HandshakeMessage :=
  { m with
    packet
    streamId := m.streamId.map cutAtNul
    packetFilter := m.packetFilter.bind fun f => (checkedFilter f.text).toOption
    multicastDispatch := m.multicastDispatch.map MulticastDispatch.onWire
    implementationIdentity := identity
    hasUnknownExtension := false }

theorem decodeRecord_of_decodeExtension {st st' : DecodeState} {e : HandshakeExtension}
    (h : decodeExtension st e = .ok st') : decodeRecord st e = .ok st' := by
  simp only [decodeExtension] at h
  split at h
  · cases h
  · exact h

/-- One optional record: decoding it sets the field it was encoded from. -/
theorem foldlM_encodeRecord {α : Type} {value : Option α} {refusal : α → Option Error}
    {record : α → HandshakeExtension} {es rest : List HandshakeExtension}
    {st out : DecodeState} (set : HandshakeMessage → Option α → HandshakeMessage)
    (hnone : set st.message none = st.message) (henc : encodeRecord value refusal record = .ok es)
    (hd : (es ++ rest).foldlM decodeExtension st = .ok out)
    (hstep : ∀ a st', decodeRecord st (record a) = .ok st' →
      st' = { st with message := set st.message (some a) }) :
    rest.foldlM decodeExtension { st with message := set st.message value } = .ok out := by
  cases value with
  | none =>
    obtain rfl : [] = es := Except.ok.inj henc
    rw [hnone]
    exact hd
  | some a =>
    simp only [encodeRecord] at henc
    split at henc
    · cases henc
    obtain rfl := Except.ok.inj henc
    rw [List.singleton_append, List.foldlM_cons] at hd
    cases hs : decodeExtension st (record a) with
    | error e => rw [hs] at hd; cases hd
    | ok st' =>
      rw [hs, hstep a st' (decodeRecord_of_decodeExtension hs)] at hd
      exact hd

/-- What `decodeOnce` has done when it succeeded. -/
theorem decodeOnce_ok {α : Type} {st st' : DecodeState} {present : Bool}
    {checked : Except Error α} {set : HandshakeMessage → α → HandshakeMessage}
    (h : decodeOnce st present checked set = .ok st') {m : HandshakeMessage}
    (hset : ∀ x, checked = .ok x → set st.message x = m) : st' = { st with message := m } := by
  simp only [decodeOnce] at h
  split at h
  · cases h
  split at h
  · cases h
  next a =>
  rw [← hset a rfl]
  exact (Except.ok.inj h).symm

theorem cutAtNul_name (c : CongestionController) : cutAtNul c.name = c.name := by
  cases c <;> decide

theorem checkedController_name {c c' : CongestionController}
    (h : checkedController c.name = .ok c') : c' = c := by
  simp only [checkedController] at h
  split at h
  · cases h
  next t ht =>
  simp only [checkedText] at ht
  split at ht
  · cases ht
  obtain rfl := Except.ok.inj ht
  simp only [cutAtNul_name, CongestionController.parse_name, Except.ok.injEq] at h
  exact h.symm

theorem checkedKeyMaterial_eq {t : HandshakeExtensionType} {content content' : Bytes}
    (h : checkedKeyMaterial t content = .ok content') : content' = content := by
  simp only [checkedKeyMaterial] at h
  repeat' split at h
  all_goals cases h
  all_goals rfl

theorem checkedValue_eq {α : Type} {valid : Bool} {a b : α}
    (h : checkedValue valid a = .ok b) : b = a := by
  simp only [checkedValue] at h
  split at h
  · exact (Except.ok.inj h).symm
  · cases h

theorem checkedText_eq {text text' : List Char} (h : checkedText text = .ok text') :
    text' = cutAtNul text := by
  simp only [checkedText] at h
  split at h
  · cases h
  · exact (Except.ok.inj h).symm

/-- Behind the ten records the decoder holds the received message. -/
theorem foldlM_encodeRecords {m : HandshakeMessage} {packet : Handshake}
    {es rest : List HandshakeExtension} {out : DecodeState} (henc : encodeRecords m = .ok es)
    (hd : (es ++ rest).foldlM decodeExtension { message := { packet } } = .ok out) :
    rest.foldlM decodeExtension { message := m.received packet {} } = .ok out := by
  simp only [encodeRecords, bind, Except.bind, pure, Except.pure] at henc
  repeat' split at henc
  all_goals cases henc
  next v1 h1 _ v2 h2 _ v3 h3 _ v4 h4 _ v5 h5 _ v6 h6 _ v7 h7 _ v8 h8 _ v9 h9 _ v10 h10 =>
  simp only [List.append_assoc] at hd
  have d1 := foldlM_encodeRecord (fun m v => { m with handshakeExtension := v }) rfl h1 hd
    fun _ _ h => by
      simp only [decodeRecord] at h
      exact decodeOnce_ok h fun _ hx => by rw [← Except.ok.inj hx]
  have d2 := foldlM_encodeRecord (fun m v => { m with keyMaterial := v }) rfl h2 d1
    fun _ _ h => by
      simp only [decodeRecord] at h
      exact decodeOnce_ok h fun _ hx => by rw [checkedKeyMaterial_eq hx]
  have d3 := foldlM_encodeRecord (fun m v => { m with streamId := v.map cutAtNul }) rfl h3 d2
    fun _ _ h => by
      simp only [decodeRecord] at h
      exact decodeOnce_ok h fun _ hx => by rw [checkedText_eq hx]; rfl
  have d4 := foldlM_encodeRecord (fun m v => { m with congestion := v }) rfl h4 d3
    fun _ _ h => by
      simp only [decodeRecord] at h
      exact decodeOnce_ok h fun _ hx => by rw [checkedController_name hx]
  have d5 := foldlM_encodeRecord (fun m v => { m with
      packetFilter := v.bind fun f : PacketFilterConfiguration =>
        (checkedFilter f.text).toOption }) rfl h5 d4
    fun _ _ h => by
      simp only [decodeRecord] at h
      exact decodeOnce_ok h fun _ hx => by simp only [Option.bind_some, hx, Except.toOption]
  have d6 := foldlM_encodeRecord (fun m v => { m with groupMembership := v }) rfl h6 d5
    fun _ _ h => by
      simp only [decodeRecord] at h
      exact decodeOnce_ok h fun _ hx => by rw [← Except.ok.inj hx]
  have d7 := foldlM_encodeRecord (fun m v => { m with sessionAuthentication := v }) rfl h7 d6
    fun _ _ h => by
      simp only [decodeRecord] at h
      exact decodeOnce_ok h fun _ hx => by rw [checkedValue_eq hx]
  have d8 := foldlM_encodeRecord (fun m v => { m with pathIdentifier := v }) rfl h8 d7
    fun _ _ h => by
      simp only [decodeRecord] at h
      exact decodeOnce_ok h fun _ hx => by rw [checkedValue_eq hx]
  have d9 := foldlM_encodeRecord (fun m v => { m with standbyRtt := v }) rfl h9 d8
    fun _ _ h => by
      simp only [decodeRecord] at h
      exact decodeOnce_ok h fun _ hx => by rw [checkedValue_eq hx]
  exact foldlM_encodeRecord (fun m v => { m with
      multicastDispatch := v.map MulticastDispatch.onWire }) rfl h10 d9
    fun _ _ h => by
      simp only [decodeRecord] at h
      exact decodeOnce_ok h fun _ hx => by rw [checkedValue_eq hx]; rfl

/-- The packet of a delivered message is the sent one, except that a
CONCLUSION may have gained the CONFIG bit for the identity behind it. -/
def PacketCarried (sent received : Handshake) : Prop :=
  received = sent ∨ (sent.request = .conclusion ∧ received = { sent with
    extensionField := sent.extensionField ||| handshakeExtensionFlagConfig })

theorem packetCarried_wirePacket (m : HandshakeMessage) (capacity : Nat) :
    PacketCarried m.packet (m.wirePacket capacity) := by
  unfold HandshakeMessage.wirePacket
  split
  · exact .inl rfl
  next hid =>
  refine .inr ⟨?_, rfl⟩
  by_contra hne
  simp [HandshakeMessage.identitySize, hne] at hid

/-- The identity record, present or not, touches the identity only. -/
theorem foldlM_identityRecords {m r : HandshakeMessage} {capacity : Nat} {out : DecodeState}
    (hd : (m.identityRecords capacity).foldlM decodeExtension { message := r } = .ok out) :
    ∃ identity, out.message = { r with implementationIdentity := identity } := by
  unfold HandshakeMessage.identityRecords at hd
  split at hd
  · obtain rfl := Except.ok.inj hd
    exact ⟨r.implementationIdentity, rfl⟩
  simp only [List.foldlM_cons, List.foldlM_nil] at hd
  obtain rfl := Except.ok.inj hd
  exact ⟨_, rfl⟩

/-- A delivered message is the sent one: nothing is invented, and only the
identity, which no machine decides on, may be lost. -/
theorem Carries.received {m m' : HandshakeMessage} (h : Carries m m') :
    ∃ packet identity, PacketCarried m.packet packet ∧ m' = m.received packet identity := by
  obtain ⟨capacity, d, henc, hdec⟩ := h
  simp only [encodeHandshakeDatagram] at henc
  repeat' split at henc
  all_goals cases henc
  next records hrec =>
  simp only [decodeHandshakeDatagram] at hdec
  split at hdec
  · cases hdec
  split at hdec
  · cases hdec
  next st hst =>
  obtain ⟨identity, hid⟩ := foldlM_identityRecords (foldlM_encodeRecords hrec hst)
  obtain rfl := Except.ok.inj hdec
  rw [hid]
  split
  · exact ⟨_, identity, packetCarried_wirePacket m capacity, rfl⟩
  · exact ⟨_, {}, packetCarried_wirePacket m capacity, rfl⟩

/-- An accepted filter text fits a record and holds no NUL. -/
theorem cutAtNul_of_parse {text : List Char} {c : PacketFilterConfiguration}
    (h : parsePacketFilterConfiguration text = .ok c) :
    text.length ≤ maximumStreamIdSize ∧ cutAtNul text = text := by
  simp only [parsePacketFilterConfiguration] at h
  split at h
  · next h0 => rw [h0]; exact ⟨Nat.zero_le _, rfl⟩
  split at h
  · cases h
  next c' hs =>
  simp only [storeText, Option.ite_none_left_eq_some, not_or, Nat.not_lt] at hs
  obtain ⟨⟨hlen, hnul⟩, _⟩ := hs
  refine ⟨hlen, ?_⟩
  rw [cutAtNul, List.takeWhile_eq_self_iff]
  intro c hc
  simp only [ne_eq, decide_not, Bool.not_eq_true', decide_eq_false_iff_not]
  rintro rfl
  exact hnul hc

/-- A parsed filter survives the wire. -/
theorem checkedFilter_text {f : PacketFilterConfiguration}
    (h : parsePacketFilterConfiguration f.text = .ok f) (he : f.enabled = true) :
    checkedFilter f.text = .ok f := by
  obtain ⟨hlen, hcut⟩ := cutAtNul_of_parse h
  have hne : f.text ≠ [] := by
    intro h0
    rw [h0] at h
    rw [← Except.ok.inj h] at he
    cases he
  simp only [checkedFilter, checkedText, if_neg (Nat.not_lt.2 hlen), hcut, h]
  rw [if_pos ⟨hne, he⟩]

/-- A filter decoded from an admissible text is the parsed one. -/
theorem parse_of_checkedFilter {text : List Char} {f f' : PacketFilterConfiguration}
    (hp : parsePacketFilterConfiguration text = .ok f) (h : checkedFilter text = .ok f') :
    f' = f := by
  obtain ⟨hlen, hcut⟩ := cutAtNul_of_parse hp
  simp only [checkedFilter, checkedText, if_neg (Nat.not_lt.2 hlen), hcut, hp] at h
  split at h
  · exact (Except.ok.inj h).symm
  · cases h

/-! ## Shared by the two machines -/

inductive Hsv5PeerVersionStatus
  | compatible
  | preHsv5
  | belowConfiguredMinimum
  deriving DecidableEq, Repr

def minimumHsv5SrtVersion : Nat := 0x00010300

def classifyHsv5PeerVersion (advertised configuredMinimum : Nat) :
    Hsv5PeerVersionStatus :=
  if advertised < minimumHsv5SrtVersion then .preHsv5
  else if advertised < configuredMinimum then .belowConfiguredMinimum
  else .compatible

def keyLengthForEncryptionField (field : Nat) : Nat :=
  if field = 2 then 16 else if field = 3 then 24 else if field = 4 then 32 else 0

/-- An optional field whose presence is a flag of the configuration. -/
def presentIf {α : Type} (flag : Bool) (a : α) : Option α := if flag then some a else none

/-- `has_handshake_request`. -/
def HandshakeMessage.handshakeRequest (m : HandshakeMessage) :
    Option HandshakeExtensionParameters :=
  match m.handshakeExtension with
  | some (.handshakeRequest, p) => some p
  | _ => none

/-- `has_handshake_response`. -/
def HandshakeMessage.handshakeResponse (m : HandshakeMessage) :
    Option HandshakeExtensionParameters :=
  match m.handshakeExtension with
  | some (.handshakeResponse, p) => some p
  | _ => none

/-- The extension-field bits of a CONCLUSION with extensions. -/
def conclusionField (keyMaterial config : Bool) : UInt16 :=
  1 ||| (if keyMaterial then 2 else 0) ||| (if config then 4 else 0)

/-- The controller extension is sent unless it names the default. -/
def controllerExtension (c : CongestionController) : Option CongestionController :=
  if c = .live then none else some c

theorem controllerExtension_getD (cc : CongestionController) :
    (controllerExtension cc).getD .live = cc := by
  unfold controllerExtension
  split
  · next h => rw [h]; rfl
  · rfl

theorem bind_checkedFilter (f : ParsedPacketFilter) :
    ((presentIf f.val.enabled f.val).bind fun g => (checkedFilter g.text).toOption)
      = presentIf f.val.enabled f.val := by
  unfold presentIf
  split
  · next he =>
    simp only [Option.bind_some, checkedFilter_text f.property he]
    rfl
  · rfl

end Srt
