/-
# `Machine` — the caller and listener handshake machine

`HandshakeMachine` of `src/handshake.cpp`, in the build without experimental
congestion controllers and packet filters.  One class plays both roles; the
role is part of the configuration and every operation branches on it.

The listener's three callbacks are parameters of the configuration.  None of
them is called twice by one machine, so a function is as general as a
callback with a context.

Where the source writes members between two checks, the model does too: a
listener that refuses the group has already stored the filter and the stream
id, a caller that refuses the session authentication has already recorded
its peer.
-/
import Srt.Handshake.Message

namespace Srt

inductive ConnectionRole
  | caller
  | listener
  deriving DecidableEq, Repr

inductive HandshakeState
  | idle
  | awaitingInductionResponse
  | awaitingConclusionResponse
  | awaitingAuthenticationConfirmation
  | connected
  | rejected
  | failed
  deriving DecidableEq, Repr

def packetFilterRejectionReason : Nat := 14

def messageApiRejectionReason : Nat := 12

def congestionRejectionReason : Nat := 13

def groupRejectionReason : Nat := 15

def versionRejectionReason : Nat := 8

def rogueRejectionReason : Nat := 4

def inductionDatagramSocketType : UInt16 := 2

/-- `HandshakeMachine::Configuration`.  An absent key-material request is the
empty buffer; the filter is one the option parser has produced. -/
structure HandshakeConfiguration where
  role : ConnectionRole := .caller
  localSocketId : Nat := 0
  initialSequence : SequenceNumber := default
  maximumTransmissionUnit : Nat := 1500
  flowWindow : Nat := 25600
  timeoutMilliseconds : Nat := 3000
  maximumRetries : Nat := 8
  encryptionField : Nat := 0
  extensionParameters : HandshakeExtensionParameters := {}
  minimumPeerSrtVersion : Nat := 0
  keyMaterialRequest : Bytes := []
  streamId : List Char := []
  congestionController : CongestionController := .live
  packetFilterConfiguration : ParsedPacketFilter := default
  receiveCapacityPackets : Nat := 0
  groupMembership : Option GroupMembership := none
  groupMembershipNegotiator : Option (GroupMembership → Option GroupMembership) := none
  groupMembershipPolicy : GroupMembershipPolicy := {}
  multicastDispatchProvider : Option (Option MulticastDispatch) := none
  cookieGenerator : Option (Handshake → UInt32) := none
  requireSessionAuthentication : Bool := false
  sessionAuthentication : SessionAuthenticationParameters := {}
  sessionAuthenticationConfirmation : SessionAuthenticationParameters := {}
  requirePathIdentifier : Bool := false
  pathIdentifier : PathIdentifier := {}
  requireStandbyRtt : Bool := false
  standbyRttNonce : StandbyRttNonce := List.replicate 16 0
  implementationIdentity : ImplementationIdentity := {}

structure HandshakeMachine where
  configuration : HandshakeConfiguration
  standbyRttIdentity : StandbyRttIdentity := {}
  sessionChallenge : Option HandshakeMessage := none
  sessionConfirmation : Option HandshakeMessage := none
  state : HandshakeState := .idle
  peerSocketId : Nat := 0
  peerFlowWindow : Nat := 0
  cookie : UInt32 := 0
  retryCount : Nat := 0
  negotiatedInitialSequence : SequenceNumber
  peerInitialSequence : SequenceNumber
  peerExtensionParameters : Option HandshakeExtensionParameters := none
  peerIdentity : ImplementationIdentity := {}
  peerStreamId : Option (List Char) := none
  negotiatedPacketFilter : PacketFilterConfiguration := {}
  peerGroupMembership : Option GroupMembership := none
  peerPathIdentifier : PathIdentifier := {}
  localGroupResponse : Option GroupMembership := none
  localMulticastDispatch : Option MulticastDispatch := none
  peerMulticastDispatch : Option MulticastDispatch := none
  rejectionReason : Nat := 0

namespace HandshakeMachine

/-- The constructor: both sequences start as the configured one. -/
def ofConfiguration (c : HandshakeConfiguration) : HandshakeMachine :=
  { configuration := c
    negotiatedInitialSequence := c.initialSequence
    peerInitialSequence := c.initialSequence }

variable (m : HandshakeMachine)

def basePacket (request : HandshakeRequest) : Handshake :=
  { version := if request = .induction then handshakeVersion4 else handshakeVersion5
    initialSequence := m.configuration.initialSequence
    maximumTransmissionUnit := m.configuration.maximumTransmissionUnit
    flowWindow := m.configuration.flowWindow
    request
    socketId := m.configuration.localSocketId
    extensionField := if request = .induction then inductionDatagramSocketType else 0
    encryptionField := if request = .induction then 0 else m.configuration.encryptionField }

def responseExtensionParameters : HandshakeExtensionParameters :=
  composeResponse m.configuration.extensionParameters m.peerExtensionParameters

def armTimer : HandshakeAction := .armTimer m.configuration.timeoutMilliseconds

def fail : HandshakeMachine × List HandshakeAction :=
  ({ m with state := .failed }, [.failed])

def rejectLocally (reason : Nat) : HandshakeMachine × List HandshakeAction :=
  ({ m with state := .rejected, rejectionReason := reason }, [.rejected reason])

def tsbpd : UInt32 := HandshakeExtensionFlag.tsbpdSend ||| HandshakeExtensionFlag.tsbpdReceive

/-- Both TSBPD directions are requested. -/
def bothTsbpd (p : HandshakeExtensionParameters) : Bool := p.flags &&& tsbpd == tsbpd

def validStandbyRttConfiguration : Bool :=
  let c := m.configuration
  if c.requireStandbyRtt = false then !validStandbyRttNonce c.standbyRttNonce
  else validStandbyRttNonce c.standbyRttNonce && c.congestionController == .live
    && !bufferMode c.extensionParameters && bothTsbpd c.extensionParameters
    && (match c.role with
      | .listener => c.groupMembershipNegotiator.isSome
      | .caller => c.groupMembership.any fun g => g.type == .backup)

/-! ### Owner operations -/

def setSessionAuthentication (parameters : SessionAuthenticationParameters) :
    Except Error HandshakeMachine :=
  let c := m.configuration
  if c.requireSessionAuthentication = false ∨ c.role ≠ .caller
      ∨ (m.state ≠ .awaitingInductionResponse ∧ m.state ≠ .awaitingConclusionResponse) then
    .error .invalidState
  else if (if m.state = .awaitingInductionResponse then parameters.isOffer
      else parameters.isProof) = false then
    .error .invalidKeyMaterial
  else .ok { m with configuration := { c with sessionAuthentication := parameters } }

def setKeyMaterialRequest (request : Bytes) (encryptionField : Nat) :
    Except Error HandshakeMachine :=
  let c := m.configuration
  if c.role ≠ .caller ∨ m.state ≠ .awaitingInductionResponse
      ∨ (request.length ≠ 0 ∧ keyLengthForEncryptionField encryptionField = 0) then
    .error .invalidState
  else .ok { m with configuration :=
    { c with keyMaterialRequest := request, encryptionField } }

/-- Both setters work before the caller is connected only, and on the
configuration only. -/
theorem setSessionAuthentication_ok {m m' : HandshakeMachine}
    {p : SessionAuthenticationParameters} (h : m.setSessionAuthentication p = .ok m') :
    m.configuration.role = .caller
    ∧ (m.state = .awaitingInductionResponse ∨ m.state = .awaitingConclusionResponse)
    ∧ m' = { m with configuration := { m.configuration with sessionAuthentication := p } } := by
  simp only [setSessionAuthentication] at h
  split at h
  · cases h
  next hguard =>
  simp only [not_or, not_and_or, not_not] at hguard
  obtain ⟨_, hrole, hstate⟩ := hguard
  generalize (if m.state = .awaitingInductionResponse then p.isOffer else p.isProof) = valid at h
  cases valid with
  | false => cases h
  | true => exact ⟨hrole, hstate, (Except.ok.inj h).symm⟩

theorem setKeyMaterialRequest_ok {m m' : HandshakeMachine} {request : Bytes} {field : Nat}
    (h : m.setKeyMaterialRequest request field = .ok m') :
    m.configuration.role = .caller ∧ m.state = .awaitingInductionResponse
    ∧ m' = { m with configuration := { m.configuration with
      keyMaterialRequest := request, encryptionField := field } } := by
  simp only [setKeyMaterialRequest] at h
  split at h
  · cases h
  next hguard =>
  simp only [not_or, not_not] at hguard
  exact ⟨hguard.1, hguard.2.1, (Except.ok.inj h).symm⟩

/-- The configuration checks of `start`. -/
def startable : Bool :=
  let c := m.configuration
  m.validStandbyRttConfiguration && m.state == .idle && c.role == .caller
    && (if c.requirePathIdentifier then
        c.groupMembership.isSome && c.pathIdentifier.valid && c.congestionController == .live
      else c.pathIdentifier.bytes.isEmpty)

def start : HandshakeMachine × List HandshakeAction :=
  if m.startable then
    ({ m with state := .awaitingInductionResponse },
      [.send { packet := m.basePacket .induction }, m.armTimer])
  else m.fail

/-- `reject`: the answered rejection of a listener that holds a cookie. -/
def reject (reason : Int) : HandshakeMachine × List HandshakeAction :=
  if m.configuration.role ≠ .listener ∨ m.state ≠ .awaitingConclusionResponse
      ∨ reason < 0 ∨ 1000 + reason > 2 ^ 31 - 1 then
    m.fail
  else
    ({ m with state := .rejected, rejectionReason := reason.toNat },
      [.send { packet := { m.basePacket (.rejection reason.toNat) with
          version := handshakeVersion5
          initialSequence := m.negotiatedInitialSequence
          synCookie := m.cookie } },
        .rejected reason.toNat])

/-! ### Listener -/

/-- `expected` of the confirmation stage: a repeated CONCLUSION still offers
the caller's nonce only. -/
def expectedStandbyRtt (request : HandshakeRequest) : StandbyRttIdentity :=
  if request = .conclusion then { caller := m.standbyRttIdentity.caller }
  else m.standbyRttIdentity

variable (msg : HandshakeMessage)

/-- The identifiers of a repeated message are the recorded ones. -/
def sameIdentifiers (standby : StandbyRttIdentity) : Bool :=
  let c := m.configuration
  msg.standbyRtt == presentIf c.requireStandbyRtt standby
    && msg.pathIdentifier == presentIf c.requirePathIdentifier m.peerPathIdentifier

/-- `awaiting_authentication_confirmation`: the AGREEMENT with the expected
proof connects, a repeated offer is answered with the challenge again. -/
def receiveConfirmation :
    HandshakeMachine × List HandshakeAction :=
  let c := m.configuration
  let incoming := msg.packet
  let challenge := (m.sessionChallenge.map HandshakeAction.send).toList
  if m.sameIdentifiers msg (m.expectedStandbyRtt incoming.request) = false then (m, [])
  else if incoming.request = .agreement ∧ incoming.version = handshakeVersion5
      ∧ incoming.socketId = m.peerSocketId ∧ incoming.synCookie = m.cookie
      ∧ msg.sessionAuthentication.isSome
      ∧ c.sessionAuthenticationConfirmation.isProof
      ∧ msg.sessionAuthentication.all c.sessionAuthenticationConfirmation.agreesWith then
    ({ m with state := .connected }, challenge ++ [.connected])
  else if incoming.request = .conclusion ∧ incoming.socketId = m.peerSocketId
      ∧ incoming.synCookie = m.cookie
      ∧ msg.sessionAuthentication.any (fun a => a.isOffer
        && a.callerNonce == c.sessionAuthentication.callerNonce) then
    (m, challenge)
  else (m, [])

/-- The INDUCTION response; the retry of `timeout` leaves the peer's
encryption field out. -/
def inductionResponse (encryptionField : Nat) : HandshakeMessage :=
  { packet := { m.basePacket .induction with
      version := handshakeVersion5
      encryptionField
      extensionField := handshakeSrtMagic
      initialSequence := m.negotiatedInitialSequence
      synCookie := m.cookie } }

/-- The configured encryption field, or the peer's where none is. -/
def answeredEncryptionField (incoming : Handshake) : Nat :=
  if m.configuration.encryptionField ≠ 0 then m.configuration.encryptionField
  else incoming.encryptionField

def receiveInduction (incoming : Handshake) : HandshakeMachine × List HandshakeAction :=
  if incoming.version ≠ handshakeVersion4 then m.fail
  else
    match m.configuration.cookieGenerator with
    | none => m.fail
    | some cookieGenerator =>
      let m : HandshakeMachine := { m with
        peerSocketId := incoming.socketId
        retryCount := 0
        negotiatedInitialSequence := incoming.initialSequence
        peerInitialSequence := incoming.initialSequence
        cookie := cookieGenerator incoming }
      if m.cookie = 0 then m.fail
      else
        ({ m with state := .awaitingConclusionResponse },
          [.send (m.inductionResponse (m.answeredEncryptionField incoming)), m.armTimer])

def refuseUnless (condition : Bool) (reason : Nat) : Except Nat Unit :=
  if condition then .ok () else .error reason

/-- An HSv5 peer of at least the configured version. -/
def checkPeerVersion (p : HandshakeExtensionParameters) : Except Nat Unit :=
  match classifyHsv5PeerVersion p.srtVersion m.configuration.minimumPeerSrtVersion with
  | .preHsv5 => .error rogueRejectionReason
  | .belowConfiguredMinimum => .error versionRejectionReason
  | .compatible => .ok ()

/-- The session-authentication, path and standby offers of a CONCLUSION. -/
def checkOffers (parameters : HandshakeExtensionParameters) :
    Except Nat Unit := do
  let c := m.configuration
  refuseUnless (match msg.sessionAuthentication with
    | none => !c.requireSessionAuthentication
    | some a => c.requireSessionAuthentication && a.version == c.sessionAuthentication.version
        && a.isOffer && a.callerNonce == c.sessionAuthentication.callerNonce)
    rogueRejectionReason
  refuseUnless (match msg.pathIdentifier with
    | none => !c.requirePathIdentifier
    | some p => c.requirePathIdentifier && p.valid && msg.groupMembership.isSome
        && c.congestionController == .live)
    groupRejectionReason
  refuseUnless (match msg.standbyRtt with
    | none => !c.requireStandbyRtt
    | some i => c.requireStandbyRtt && i.isOffer
        && (msg.groupMembership.any fun g => g.type == .backup)
        && !bufferMode parameters && bothTsbpd parameters && i.caller != c.standbyRttNonce)
    groupRejectionReason

/-- The profiles whose framing excludes a packet filter and whose response
must be explicit. -/
def versionedController (c : CongestionController) : Bool :=
  c == .control || c.isExperimental

/-- A filter the local receive capacity can hold; capacity zero leaves the
policy to the transport. -/
def fitsCapacity (f : PacketFilterConfiguration) : Bool :=
  m.configuration.receiveCapacityPackets == 0
    || fecGeometryFitsReceiveCapacity f m.configuration.receiveCapacityPackets

/-- The filter behind the CONCLUSION: negotiated out of the caller's offer,
or the unchanged one when there is none. -/
def negotiateFilter : Except Nat PacketFilterConfiguration :=
  let own := m.configuration.packetFilterConfiguration.val
  match msg.packetFilter with
  | none =>
    -- Sensor delivery is bilateral: it needs an explicit offer.
    if own.sensorProfile then .error packetFilterRejectionReason
    else .ok m.negotiatedPacketFilter
  | some offer =>
    if versionedController m.configuration.congestionController then
      .error packetFilterRejectionReason
    else
      match negotiatePacketFilterConfiguration own offer false with
      | .error _ => .error packetFilterRejectionReason
      | .ok f => if m.fitsCapacity f then .ok f else .error packetFilterRejectionReason

/-- Every check of a CONCLUSION up to the first write; what is returned is
the filter to store. -/
def checkConclusion : Except Nat PacketFilterConfiguration := do
  let c := m.configuration
  refuseUnless (msg.packet.version == handshakeVersion5) versionRejectionReason
  match msg.handshakeRequest with
  | none => .error rogueRejectionReason
  | some parameters =>
    m.checkOffers msg parameters
    m.checkPeerVersion parameters
    refuseUnless (compatibleTransmissionMode c.extensionParameters parameters)
      messageApiRejectionReason
    refuseUnless (msg.congestion.getD .live == c.congestionController)
      congestionRejectionReason
    m.negotiateFilter msg

/-- The dispatch announcement an admitted multicast membership needs. -/
def provideDispatch (answer : GroupMembership) : Except Nat (Option MulticastDispatch) :=
  if answer.type = .multicast then
    match m.configuration.multicastDispatchProvider with
    | some (some d) =>
      if d.groupId = answer.groupId ∧ validMulticastDispatch d then .ok (some d)
      else .error groupRejectionReason
    | _ => .error groupRejectionReason
  else .ok none

/-- The listener's own membership for the one the caller names. -/
def negotiateGroup (peer : GroupMembership) :
    Except Nat (GroupMembership × Option MulticastDispatch) :=
  let c := m.configuration
  if validateGroupMembership peer c.groupMembershipPolicy ≠ .compatible then
    .error groupRejectionReason
  else
    match c.groupMembershipNegotiator.bind (· peer) with
    | none => .error groupRejectionReason
    | some answer =>
      if validateGroupMembership answer c.groupMembershipPolicy ≠ .compatible
          ∨ answer.type ≠ peer.type then
        .error groupRejectionReason
      else
        match m.provideDispatch answer with
        | .error reason => .error reason
        | .ok d => .ok (answer, d)

/-- `negotiateGroup` for a CONCLUSION with or without membership. -/
def answerGroup :
    Except Nat (Option (GroupMembership × Option MulticastDispatch)) :=
  match msg.groupMembership with
  | none => .ok none
  | some peer =>
    match m.negotiateGroup peer with
    | .error reason => .error reason
    | .ok answer => .ok (some answer)

/-- The CONCLUSION response a listener sends once it has recorded the
caller; `packet` carries the fields in which first answer and repetition
differ. -/
def conclusionResponse (packet : Handshake) : HandshakeMessage :=
  let c := m.configuration
  { packet := { packet with
      initialSequence := m.negotiatedInitialSequence
      synCookie := m.cookie }
    handshakeExtension := msg.handshakeExtension.map fun _ =>
      (.handshakeResponse, m.responseExtensionParameters)
    keyMaterial := msg.keyMaterial.map fun k => (.keyMaterialResponse, k.2)
    congestion := controllerExtension c.congestionController
    packetFilter := presentIf m.negotiatedPacketFilter.enabled m.negotiatedPacketFilter
    groupMembership := m.localGroupResponse
    pathIdentifier := presentIf c.requirePathIdentifier m.peerPathIdentifier
    multicastDispatch := m.localMulticastDispatch
    standbyRtt := presentIf c.requireStandbyRtt m.standbyRttIdentity
    implementationIdentity := c.implementationIdentity }

/-- The CONFIG bit of a response. -/
def hasConfigExtension : Bool :=
  let c := m.configuration
  c.congestionController != .live || m.negotiatedPacketFilter.enabled
    || m.localGroupResponse.isSome || c.requireStandbyRtt

/-- What the listener records of an accepted CONCLUSION. -/
def recordCaller
    (answer : Option (GroupMembership × Option MulticastDispatch)) : HandshakeMachine :=
  { m with
    peerGroupMembership := msg.groupMembership
    localGroupResponse := answer.map Prod.fst
    localMulticastDispatch := answer.bind Prod.snd
    peerExtensionParameters := msg.handshakeExtension.map Prod.snd
    peerIdentity := msg.implementationIdentity
    peerSocketId := msg.packet.socketId
    peerFlowWindow := msg.packet.flowWindow
    retryCount := 0
    standbyRttIdentity :=
      if m.configuration.requireStandbyRtt then
        { caller := (msg.standbyRtt.getD {}).caller
          listener := m.configuration.standbyRttNonce }
      else m.standbyRttIdentity }

/-- The first answer to an accepted CONCLUSION. -/
def firstResponse : HandshakeMessage :=
  let requestsKeys := msg.keyMaterial.any fun k => k.1 == .keyMaterialRequest
  m.conclusionResponse msg { m.basePacket .conclusion with
    encryptionField := m.answeredEncryptionField msg.packet
    extensionField := conclusionField requestsKeys m.hasConfigExtension }

/-- The end of an accepted CONCLUSION: connected, or waiting for the caller's
proof behind the challenge. -/
def answerConclusion : HandshakeMachine × List HandshakeAction :=
  let c := m.configuration
  let response := m.firstResponse msg
  if c.requireSessionAuthentication then
    let challenge := { response with
      packet := { response.packet with
        extensionField := response.packet.extensionField ||| handshakeExtensionFlagConfig }
      sessionAuthentication := some c.sessionAuthentication }
    ({ m with
      state := .awaitingAuthenticationConfirmation
      sessionChallenge := some challenge }, [.send challenge, m.armTimer])
  else ({ m with state := .connected }, [.send response, .connected])

def receiveConclusion : HandshakeMachine × List HandshakeAction :=
  match m.checkConclusion msg with
  | .error reason => m.reject reason
  | .ok filter =>
    let m := { m with
      negotiatedPacketFilter := filter
      peerStreamId := msg.streamId
      peerPathIdentifier := msg.pathIdentifier.getD {} }
    match m.answerGroup msg with
    | .error reason => m.reject reason
    | .ok answer => (m.recordCaller msg answer).answerConclusion msg

/-- A repeated CONCLUSION of a connected caller is answered again. -/
def repeatConclusion : HandshakeMachine × List HandshakeAction :=
  if msg.packet.version ≠ handshakeVersion5 ∨ msg.packet.socketId ≠ m.peerSocketId
      ∨ m.sameIdentifiers msg { caller := m.standbyRttIdentity.caller } = false then
    (m, [])
  else
    let field : UInt16 := (if msg.handshakeExtension.isSome then 1 else 0)
      ||| (if msg.keyMaterial.isSome then 2 else 0)
      ||| (if m.hasConfigExtension then 4 else 0)
    (m, [.send (m.conclusionResponse msg
      { m.basePacket .conclusion with extensionField := field })])

def receiveListener : HandshakeMachine × List HandshakeAction :=
  match m.state, msg.packet.request with
  | .awaitingAuthenticationConfirmation, _ => m.receiveConfirmation msg
  | .idle, .induction => m.receiveInduction msg.packet
  | .awaitingConclusionResponse, .conclusion =>
    if m.cookie ≠ 0 ∧ msg.packet.synCookie = m.cookie then m.receiveConclusion msg
    else m.fail
  | .connected, .conclusion =>
    if msg.packet.synCookie = m.cookie then m.repeatConclusion msg else m.fail
  | _, _ => m.fail

/-! ### Caller -/

/-- The CONCLUSION of a caller, first or repeated. -/
def conclusionRequest : HandshakeMessage :=
  let c := m.configuration
  let field := conclusionField (!c.keyMaterialRequest.isEmpty)
    (c.congestionController != .live || !c.streamId.isEmpty
      || c.packetFilterConfiguration.val.enabled || c.groupMembership.isSome)
  { packet := { m.basePacket .conclusion with
      synCookie := m.cookie
      extensionField := if c.requireSessionAuthentication then
        field ||| handshakeExtensionFlagConfig else field }
    handshakeExtension := some (.handshakeRequest, c.extensionParameters)
    keyMaterial := presentIf (!c.keyMaterialRequest.isEmpty)
      (.keyMaterialRequest, c.keyMaterialRequest)
    streamId := presentIf (!c.streamId.isEmpty) c.streamId
    congestion := controllerExtension c.congestionController
    packetFilter := presentIf c.packetFilterConfiguration.val.enabled
      c.packetFilterConfiguration.val
    groupMembership := c.groupMembership
    sessionAuthentication := presentIf c.requireSessionAuthentication c.sessionAuthentication
    pathIdentifier := presentIf c.requirePathIdentifier c.pathIdentifier
    standbyRtt := presentIf c.requireStandbyRtt { caller := c.standbyRttNonce }
    implementationIdentity := c.implementationIdentity }

def receiveInductionResponse (incoming : Handshake) :
    HandshakeMachine × List HandshakeAction :=
  if incoming.version ≠ handshakeVersion5 then m.rejectLocally versionRejectionReason
  else if incoming.extensionField ≠ handshakeSrtMagic then m.rejectLocally rogueRejectionReason
  else
    let m := { m with
      peerSocketId := incoming.socketId
      cookie := incoming.synCookie
      retryCount := 0 }
    ({ m with state := .awaitingConclusionResponse }, [.send m.conclusionRequest, m.armTimer])

/-- The filter of a response: an offer must be answered, and the answer must
be one the caller can apply. -/
def applyFilter : Except Nat PacketFilterConfiguration :=
  let own := m.configuration.packetFilterConfiguration.val
  match msg.packetFilter with
  | none =>
    if own.enabled then .error packetFilterRejectionReason
    else .ok m.negotiatedPacketFilter
  | some answer =>
    match applyPacketFilterResponse own answer with
    | .error _ => .error packetFilterRejectionReason
    | .ok f => if m.fitsCapacity f then .ok f else .error packetFilterRejectionReason

/-- Version, controller and filter of a response; a controller need not be
echoed, but an echo must match. -/
def checkResponse (parameters : HandshakeExtensionParameters) :
    Except Nat PacketFilterConfiguration := do
  let c := m.configuration
  m.checkPeerVersion parameters
  refuseUnless (!(versionedController c.congestionController && msg.congestion.isNone))
    congestionRejectionReason
  refuseUnless (msg.congestion.all (· == c.congestionController)) congestionRejectionReason
  refuseUnless (!(versionedController c.congestionController && msg.packetFilter.isSome))
    packetFilterRejectionReason
  m.applyFilter msg

/-- Path, standby and group parts of a response. -/
def checkGroupResponse (parameters : HandshakeExtensionParameters) :
    Except Nat Unit := do
  let c := m.configuration
  refuseUnless (msg.pathIdentifier == presentIf c.requirePathIdentifier c.pathIdentifier)
    groupRejectionReason
  refuseUnless (match msg.standbyRtt with
    | none => !c.requireStandbyRtt
    | some i => c.requireStandbyRtt && i.isPair && i.caller == c.standbyRttNonce
        && bothTsbpd parameters)
    groupRejectionReason
  match c.groupMembership with
  | none =>
    refuseUnless (msg.groupMembership.isNone && msg.multicastDispatch.isNone)
      groupRejectionReason
  | some own =>
    let dispatchExpected := own.type == .multicast
    match msg.groupMembership with
    | none => .error groupRejectionReason
    | some peer =>
      refuseUnless (validateGroupMembership peer c.groupMembershipPolicy == .compatible
        && peer.type == own.type && peer.flags == own.flags
        && msg.multicastDispatch.isSome == dispatchExpected
        && (!dispatchExpected || (msg.multicastDispatch.getD {}).groupId == peer.groupId))
        groupRejectionReason

/-- What the caller records of an accepted response. -/
def recordListener (parameters : HandshakeExtensionParameters) :
    HandshakeMachine :=
  let grouped := m.configuration.groupMembership.isSome
  { m with
    peerGroupMembership := if grouped then msg.groupMembership else m.peerGroupMembership
    peerMulticastDispatch := if grouped then msg.multicastDispatch else m.peerMulticastDispatch
    peerExtensionParameters := some parameters
    peerIdentity := msg.implementationIdentity
    peerSocketId := msg.packet.socketId
    peerFlowWindow := msg.packet.flowWindow
    peerInitialSequence := msg.packet.initialSequence
    retryCount := 0 }

/-- The AGREEMENT that carries the caller's proof. -/
def agreementAction : HandshakeMessage :=
  let c := m.configuration
  { packet := { m.basePacket .agreement with
      synCookie := m.cookie
      extensionField := handshakeExtensionFlagConfig }
    sessionAuthentication := some c.sessionAuthentication
    pathIdentifier := presentIf c.requirePathIdentifier c.pathIdentifier
    standbyRtt := presentIf c.requireStandbyRtt m.standbyRttIdentity }

/-- The end of an accepted response: with session authentication the caller's
proof goes out first. -/
def confirmSession : HandshakeMachine × List HandshakeAction :=
  let c := m.configuration
  if msg.sessionAuthentication.isSome ≠ c.requireSessionAuthentication then
    m.rejectLocally rogueRejectionReason
  else
    let m := if c.requireStandbyRtt then
      { m with standbyRttIdentity := msg.standbyRtt.getD {} } else m
    if c.requireSessionAuthentication then
      if c.sessionAuthentication.isProof = false then m.rejectLocally rogueRejectionReason
      else ({ m with
        state := .connected
        sessionConfirmation := some m.agreementAction }, [.send m.agreementAction, .connected])
    else ({ m with state := .connected }, [.connected])

def receiveConclusionResponse :
    HandshakeMachine × List HandshakeAction :=
  if msg.packet.version ≠ handshakeVersion5 then m.rejectLocally versionRejectionReason
  else
    match msg.handshakeExtension with
    | none => m.rejectLocally rogueRejectionReason
    | some (type, parameters) =>
      if type ≠ .handshakeResponse then (m, [])
      else
        match m.checkResponse msg parameters with
        | .error reason => m.rejectLocally reason
        | .ok filter =>
          let m := { m with negotiatedPacketFilter := filter }
          match m.checkGroupResponse msg parameters with
          | .error reason => m.rejectLocally reason
          | .ok () => (m.recordListener msg parameters).confirmSession msg

def receiveCaller : HandshakeMachine × List HandshakeAction :=
  match m.state, msg.packet.request with
  | .connected, _ => (m, [])
  | .awaitingInductionResponse, .induction =>
    if msg.packet.synCookie ≠ 0 then m.receiveInductionResponse msg.packet else m.fail
  | .awaitingConclusionResponse, .conclusion =>
    if msg.packet.synCookie = m.cookie then m.receiveConclusionResponse msg else m.fail
  | _, _ => m.fail

/-! ### Both roles -/

def isStaleInduction : Bool :=
  m.configuration.role == .caller && m.state == .awaitingConclusionResponse
    && msg.packet.request == .induction

def receive : HandshakeMachine × List HandshakeAction :=
  if m.validStandbyRttConfiguration = false then m.fail
  else if m.isStaleInduction msg then (m, [])
  else
    match msg.packet.request with
    | .rejection reason => m.rejectLocally reason
    | _ =>
      match m.configuration.role with
      | .listener => m.receiveListener msg
      | .caller => m.receiveCaller msg

/-- What a retry repeats, `none` where there is nothing to repeat. -/
def retryActions : Option (List HandshakeAction) :=
  match m.configuration.role, m.state with
  | .caller, .awaitingInductionResponse => some [.send { packet := m.basePacket .induction }]
  | .caller, .awaitingConclusionResponse => some [.send m.conclusionRequest]
  | .listener, .awaitingAuthenticationConfirmation =>
    some (m.sessionChallenge.map HandshakeAction.send).toList
  | .listener, .awaitingConclusionResponse =>
    some [.send (m.inductionResponse m.configuration.encryptionField)]
  | _, _ => none

def timeout : HandshakeMachine × List HandshakeAction :=
  if m.state = .connected ∨ m.state = .rejected then (m, [])
  else if m.retryCount ≥ m.configuration.maximumRetries then m.fail
  else
    let m := { m with retryCount := m.retryCount + 1 }
    match m.retryActions with
    | none => m.fail
    | some actions => (m, actions ++ [m.armTimer])

end HandshakeMachine

end Srt
