/-
# `Rendezvous` — the symmetric handshake machine

`RendezvousHandshakeMachine` of `src/rendezvous.cpp`, in the build without
the experimental authenticated control plane, where `start` refuses session
authentication and group membership.

`receive` is split at the point where the source has finished refusing:
`examine` runs every check and records the peer, `advance` is the switch over
the state.  Nothing is written before `examine` succeeds except the verdict,
so a refusal is a value (`Refusal`) that `refuse` turns into a state and its
actions.
-/
import Srt.Handshake.Message

namespace Srt

inductive RendezvousRole
  | unresolved
  | initiator
  | responder
  deriving DecidableEq, Repr

inductive RendezvousState
  | idle
  | waving
  | attention
  | fine
  | initiated
  | connected
  | rejected
  | failed
  deriving DecidableEq, Repr

def cookieHalfRange : UInt32 := 0x80000000

/-- `resolve_rendezvous_role`: wrapping comparison, with the signed order
deciding at exactly half the range. -/
def resolveRendezvousRole (localCookie peerCookie : UInt32) : RendezvousRole :=
  let difference := localCookie - peerCookie
  if difference = 0 then .unresolved
  else if difference < cookieHalfRange then .initiator
  else if difference > cookieHalfRange then .responder
  else if peerCookie.toBitVec.slt localCookie.toBitVec then .initiator
  else .responder

theorem resolveRendezvousRole_opposite {a b : UInt32} (h : a ≠ b) :
    (resolveRendezvousRole a b = .initiator ∧ resolveRendezvousRole b a = .responder)
    ∨ (resolveRendezvousRole a b = .responder ∧ resolveRendezvousRole b a = .initiator) := by
  have ha := a.toNat_lt
  have hb := b.toNat_lt
  have hne : a.toNat ≠ b.toNat := fun he => h (UInt32.toNat_inj.1 he)
  have hhalf : cookieHalfRange.toNat = 2 ^ 31 := rfl
  have hzero : (0 : UInt32).toNat = 0 := rfl
  simp only [resolveRendezvousRole, UInt32.lt_iff_toNat_lt, ← UInt32.toNat_inj, gt_iff_lt,
    UInt32.toNat_sub, hhalf, hzero, BitVec.slt, BitVec.toInt_eq_toNat_bmod,
    UInt32.toNat_toBitVec, Int.bmod_def, decide_eq_true_eq]
  split_ifs
  all_goals first
    | exact .inl ⟨rfl, rfl⟩
    | exact .inr ⟨rfl, rfl⟩
    | omega

/-! ## Machine -/

/-- `Configuration`.  An absent key-material request is the empty buffer; the
filter is one the option parser has produced. -/
structure RendezvousConfiguration where
  localSocketId : Nat := 0
  localCookie : UInt32 := 0
  initialSequence : SequenceNumber := default
  maximumTransmissionUnit : Nat := 1500
  flowWindow : Nat := 25600
  timeoutMilliseconds : Nat := 250
  maximumRetries : Nat := 12
  encryptionField : Nat := 0
  extensionParameters : HandshakeExtensionParameters := {}
  minimumPeerSrtVersion : Nat := 0
  keyMaterialRequest : Bytes := []
  streamId : List Char := []
  congestionController : CongestionController := .live
  packetFilterConfiguration : ParsedPacketFilter := default
  receiveCapacityPackets : Nat := 0
  implementationIdentity : ImplementationIdentity := {}
  requireSessionAuthentication : Bool := false
  sessionAuthentication : SessionAuthenticationParameters := {}
  sessionAuthenticationConfirmation : SessionAuthenticationParameters := {}
  groupMembership : Option GroupMembership := none
  requirePathIdentifier : Bool := false
  pathIdentifier : PathIdentifier := {}
  requireStandbyRtt : Bool := false
  standbyRttNonce : StandbyRttNonce := List.replicate 16 0

structure RendezvousHandshakeMachine where
  configuration : RendezvousConfiguration
  state : RendezvousState := .idle
  role : RendezvousRole := .unresolved
  peerSocketId : Nat := 0
  peerCookie : UInt32 := 0
  peerFlowWindow : Nat := 0
  peerEncryptionField : Nat := 0
  peerInitialSequence : SequenceNumber := default
  retryCount : Nat := 0
  peerExtensionParameters : Option HandshakeExtensionParameters := none
  peerIdentity : ImplementationIdentity := {}
  peerStreamId : Option (List Char) := none
  negotiatedPacketFilter : PacketFilterConfiguration := {}
  peerKeyMaterialRequest : Option Bytes := none
  keyMaterialResponse : Option Bytes := none
  peerGroup : Option (GroupMembership × SequenceNumber) := none
  standbyRttIdentity : StandbyRttIdentity := {}
  rejectionReason : Nat := 0

namespace RendezvousHandshakeMachine

variable (m : RendezvousHandshakeMachine)

def basePacket (request : HandshakeRequest) : Handshake :=
  { version := handshakeVersion5
    encryptionField := m.configuration.encryptionField
    initialSequence := m.configuration.initialSequence
    maximumTransmissionUnit := m.configuration.maximumTransmissionUnit
    flowWindow := m.configuration.flowWindow
    request
    socketId := m.configuration.localSocketId
    synCookie := m.configuration.localCookie }

def responseExtensionParameters : HandshakeExtensionParameters :=
  composeResponse m.configuration.extensionParameters m.peerExtensionParameters

def waveAction : HandshakeMessage :=
  { packet := m.basePacket .waveAHand }

def conclusionRequestAction : HandshakeMessage :=
  let c := m.configuration
  let hasKeyMaterial := !c.keyMaterialRequest.isEmpty
  -- Retries remain offers even after our own final proof was prepared.
  let offer := if c.requireSessionAuthentication then
    { c.sessionAuthentication with
      listenerNonce := List.replicate 32 0, proof := List.replicate 32 0 }
    else c.sessionAuthentication
  { packet := { m.basePacket .conclusion with
      extensionField := conclusionField hasKeyMaterial
        (c.congestionController != .live || !c.streamId.isEmpty
          || c.packetFilterConfiguration.val.enabled || c.requireSessionAuthentication) }
    handshakeExtension := some (.handshakeRequest, c.extensionParameters)
    keyMaterial := presentIf hasKeyMaterial (.keyMaterialRequest, c.keyMaterialRequest)
    streamId := presentIf (!c.streamId.isEmpty) c.streamId
    congestion := controllerExtension c.congestionController
    packetFilter := presentIf c.packetFilterConfiguration.val.enabled
      c.packetFilterConfiguration.val
    groupMembership := c.groupMembership
    sessionAuthentication := presentIf c.requireSessionAuthentication offer
    pathIdentifier := presentIf c.requirePathIdentifier c.pathIdentifier
    standbyRtt := presentIf c.requireStandbyRtt { caller := c.standbyRttNonce }
    implementationIdentity := c.implementationIdentity }

def conclusionResponseAction : HandshakeMessage :=
  let c := m.configuration
  let keyMaterial := m.keyMaterialResponse.or m.peerKeyMaterialRequest
  { packet := { m.basePacket .conclusion with
      extensionField := conclusionField keyMaterial.isSome
        (c.congestionController != .live || m.negotiatedPacketFilter.enabled
          || c.requireSessionAuthentication) }
    handshakeExtension := some (.handshakeResponse, m.responseExtensionParameters)
    keyMaterial := keyMaterial.map fun k => (.keyMaterialResponse, k)
    congestion := controllerExtension c.congestionController
    packetFilter := presentIf m.negotiatedPacketFilter.enabled m.negotiatedPacketFilter
    groupMembership := c.groupMembership
    sessionAuthentication := presentIf c.requireSessionAuthentication c.sessionAuthentication
    pathIdentifier := presentIf c.requirePathIdentifier c.pathIdentifier
    standbyRtt := presentIf c.requireStandbyRtt m.standbyRttIdentity
    implementationIdentity := c.implementationIdentity }

def emptyConclusionAction : HandshakeMessage :=
  { packet := m.basePacket .conclusion }

def agreementAction : HandshakeMessage :=
  let c := m.configuration
  { packet := { m.basePacket .agreement with
      extensionField := if c.requireSessionAuthentication then
        handshakeExtensionFlagConfig else 0 }
    groupMembership := c.groupMembership
    sessionAuthentication := presentIf c.requireSessionAuthentication c.sessionAuthentication
    pathIdentifier := presentIf c.requirePathIdentifier c.pathIdentifier
    standbyRtt := presentIf c.requireStandbyRtt m.standbyRttIdentity }

def armTimer : HandshakeAction := .armTimer m.configuration.timeoutMilliseconds

/-! ### Refusals -/

/-- How `receive` can end before it records the peer. -/
inductive Refusal
  /-- `fail()`. -/
  | fail
  /-- No action and no change. -/
  | ignore
  /-- The peer's own rejection, taken over without an answer. -/
  | peerRejected (reason : Nat)
  /-- A rejection answered on the wire. -/
  | reject (reason : Nat)
  deriving DecidableEq, Repr

def rejectCookieCollision : Refusal := .reject 9

def rejectMessageApi : Refusal := .reject 12

def rejectPeerVersion : Refusal := .reject 8

def rejectRogueVersion : Refusal := .reject 4

def rejectCongestionController : Refusal := .reject 13

def rejectPacketFilter : Refusal := .reject 14

def rejectGroup : Refusal := .reject 15

def fail : RendezvousHandshakeMachine × List HandshakeAction :=
  ({ m with state := .failed }, [.failed])

def refuse : Refusal → RendezvousHandshakeMachine × List HandshakeAction
  | .fail => m.fail
  | .ignore => (m, [])
  | .peerRejected reason =>
    ({ m with state := .rejected, rejectionReason := reason }, [.rejected reason])
  | .reject reason =>
    ({ m with state := .rejected, rejectionReason := reason },
      [.send { packet := m.basePacket (.rejection reason) }, .rejected reason])

/-! ### Admission -/

def refuseIf (condition : Prop) [Decidable condition] (r : Refusal) : Except Refusal Unit :=
  if condition then .error r else .ok ()

variable (msg : HandshakeMessage)

/-- The checks on the fixed part of the packet. -/
def checkPacket : Except Refusal Unit :=
  let incoming := msg.packet
  if m.configuration.groupMembership.isNone
      ∧ (msg.pathIdentifier.isSome ∨ msg.groupMembership.isSome ∨ msg.standbyRtt.isSome) then
    .error .fail
  else
    match incoming.request with
    | .rejection reason => .error (.peerRejected reason)
    | _ =>
      if m.state = .idle ∨ m.state = .rejected ∨ m.state = .failed
          ∨ incoming.socketId = 0 ∨ incoming.synCookie = 0 then
        .error .fail
      else if m.peerCookie ≠ 0
          ∧ (incoming.synCookie ≠ m.peerCookie ∨ incoming.socketId ≠ m.peerSocketId
            ∨ incoming.flowWindow ≠ m.peerFlowWindow) then
        .error .fail
      else if incoming.version ≠ handshakeVersion5 then
        .error (if m.state = .connected then .ignore else rejectPeerVersion)
      else .ok ()

/-- The peer version an HSREQ or HSRSP claims. -/
def checkVersion : Except Refusal Unit :=
  match msg.handshakeRequest.or msg.handshakeResponse with
  | none =>
    refuseIf (m.configuration.groupMembership.isSome ∧ msg.packet.request ≠ .agreement
      ∧ (msg.groupMembership.isSome ∨ msg.pathIdentifier.isSome ∨ msg.standbyRtt.isSome))
      rejectGroup
  | some p =>
    match classifyHsv5PeerVersion p.srtVersion m.configuration.minimumPeerSrtVersion with
    | .preHsv5 => .error rejectRogueVersion
    | .belowConfiguredMinimum => .error rejectPeerVersion
    | .compatible => .ok ()

def resolveRole : Except Refusal RendezvousRole :=
  if m.role = .unresolved then
    let resolved := resolveRendezvousRole m.configuration.localCookie msg.packet.synCookie
    if resolved = .unresolved then .error rejectCookieCollision else .ok resolved
  else .ok m.role

def acp1RendezvousSessionVersion : Nat := 4

def acp1GroupRendezvousSessionVersion : Nat := 6

/-- The proofs themselves are the crypto owner's; the machine enforces their
presence, role and exact match. -/
def checkSessionAuthentication (role : RendezvousRole) :
    Except Refusal Unit :=
  let c := m.configuration
  let request := msg.handshakeRequest.isSome
  let response := msg.handshakeResponse.isSome
  let agreement := msg.packet.request = .agreement
  let version := if c.groupMembership.isSome then acp1GroupRendezvousSessionVersion
    else acp1RendezvousSessionVersion
  if c.requireSessionAuthentication then
    let auth := msg.sessionAuthentication.getD {}
    refuseIf (((request ∨ response ∨ agreement)
        ∧ (msg.sessionAuthentication.isNone ∨ auth.version ≠ version))
      ∨ (request ∧ (role ≠ .responder ∨ auth.isOffer = false
        ∨ auth.callerNonce ≠ c.sessionAuthentication.callerNonce))
      ∨ ((response ∨ agreement) ∧ (c.sessionAuthenticationConfirmation.isProof = false
        ∨ c.sessionAuthenticationConfirmation.agreesWith auth = false)))
      rejectRogueVersion
  else refuseIf msg.sessionAuthentication.isSome rejectRogueVersion

def checkStandbyRtt (role : RendezvousRole) :
    Except Refusal Unit :=
  let c := m.configuration
  let standby := msg.standbyRtt.getD {}
  if c.requireStandbyRtt then
    if msg.handshakeRequest.isSome then
      refuseIf (standby.isOffer = false ∨ standby.caller = c.standbyRttNonce) rejectGroup
    else
      refuseIf (standby.isPair = false ∨ (role = .initiator ∧ standby.caller ≠ c.standbyRttNonce)
        ∨ (role = .responder ∧ standby.listener ≠ c.standbyRttNonce)
        ∨ (m.peerGroup.isSome ∧ standby ≠ m.standbyRttIdentity)) rejectGroup
  else .ok ()

def checkGroup (role : RendezvousRole) : Except Refusal Unit :=
  let c := m.configuration
  match c.groupMembership with
  | none => .ok ()
  | some own =>
    if msg.handshakeRequest.isSome ∨ msg.handshakeResponse.isSome
        ∨ msg.packet.request = .agreement then
      match msg.groupMembership with
      | none => .error rejectGroup
      | some peer =>
        if validateGroupMembership peer {} ≠ .compatible ∨ peer.type ≠ own.type
            ∨ peer.flags ≠ 0 ∨ peer.weight > 32767
            ∨ msg.pathIdentifier ≠ presentIf c.requirePathIdentifier c.pathIdentifier
            ∨ msg.standbyRtt.isSome ≠ c.requireStandbyRtt
            ∨ m.peerGroup.any (fun g => g != (peer, msg.packet.initialSequence)) then
          .error rejectGroup
        else m.checkStandbyRtt msg role
    else .ok ()

/-- Transmission mode and controller of an HSREQ, controller of an HSRSP. -/
def checkController : Except Refusal Unit :=
  let c := m.configuration
  match msg.handshakeRequest, msg.handshakeResponse with
  | some p, _ =>
    if compatibleTransmissionMode c.extensionParameters p = false then
      .error rejectMessageApi
    else refuseIf (msg.congestion.getD .live ≠ c.congestionController)
      rejectCongestionController
  | none, some _ =>
    -- Only the control profile must be confirmed explicitly.
    refuseIf ((c.congestionController = .control ∧ msg.congestion = none)
      ∨ (msg.congestion.isSome ∧ msg.congestion ≠ some c.congestionController))
      rejectCongestionController
  | none, none => .ok ()

/-- The filter both kinds of extension settle, bounded by the local receive
capacity. -/
def settleFilter (peer : PacketFilterConfiguration) :
    Except Refusal PacketFilterConfiguration :=
  let c := m.configuration
  match negotiatePacketFilterConfiguration c.packetFilterConfiguration.val peer true with
  | .error _ => .error rejectPacketFilter
  | .ok f =>
    if c.receiveCapacityPackets ≠ 0
        ∧ fecGeometryFitsReceiveCapacity f c.receiveCapacityPackets = false then
      .error rejectPacketFilter
    else .ok f

/-- The negotiated filter after this message. -/
def negotiateFilter :
    Except Refusal PacketFilterConfiguration :=
  let c := m.configuration
  if c.congestionController = .control ∧ msg.packetFilter.isSome then
    .error rejectPacketFilter
  else if msg.handshakeRequest.isSome then
    match msg.packetFilter with
    | some peer => m.settleFilter peer
    | none => .ok {}
  else if msg.handshakeResponse.isSome then
    match msg.packetFilter with
    | some peer => m.settleFilter peer
    | none =>
      if c.packetFilterConfiguration.val.enabled then .error rejectPacketFilter
      else .ok m.negotiatedPacketFilter
  else .ok m.negotiatedPacketFilter

def rememberPeer : RendezvousHandshakeMachine :=
  let c := m.configuration
  { m with
    peerSocketId := msg.packet.socketId
    peerCookie := msg.packet.synCookie
    peerFlowWindow := msg.packet.flowWindow
    peerEncryptionField := msg.packet.encryptionField
    peerInitialSequence := msg.packet.initialSequence
    peerGroup := match msg.groupMembership with
      | some g => some (g, msg.packet.initialSequence)
      | none => m.peerGroup
    standbyRttIdentity :=
      if msg.groupMembership.isSome && c.requireStandbyRtt then
        if msg.handshakeRequest.isSome then
          { caller := (msg.standbyRtt.getD {}).caller, listener := c.standbyRttNonce }
        else msg.standbyRtt.getD {}
      else m.standbyRttIdentity
    peerIdentity :=
      if msg.handshakeExtension.isSome && m.peerExtensionParameters.isNone then
        msg.implementationIdentity
      else m.peerIdentity
    peerExtensionParameters := match msg.handshakeExtension with
      | some e => some e.2
      | none => m.peerExtensionParameters
    peerKeyMaterialRequest := match msg.keyMaterial with
      | some (.keyMaterialRequest, k) => some k
      | _ => m.peerKeyMaterialRequest
    peerStreamId :=
      if msg.handshakeRequest.isSome then msg.streamId.or m.peerStreamId
      else m.peerStreamId }

def examine : Except Refusal RendezvousHandshakeMachine := do
  m.checkPacket msg
  m.checkVersion msg
  let role ← m.resolveRole msg
  m.checkSessionAuthentication msg role
  m.checkGroup msg role
  m.checkController msg
  let filter ← m.negotiateFilter msg
  return { m with role, negotiatedPacketFilter := filter, retryCount := 0 }.rememberPeer msg

/-! ### Transitions -/

/-- Sends that leave the timer armed. -/
def sendArmed :
    RendezvousHandshakeMachine × List HandshakeAction :=
  (m, [.send msg, m.armTimer])

/-- What either role says as long as it has no answer: the initiator repeats
its request, the responder an empty CONCLUSION. -/
def solicitation : HandshakeMessage :=
  if m.role = .initiator then m.conclusionRequestAction else m.emptyConclusionAction

def connect (messages : List HandshakeMessage) :
    RendezvousHandshakeMachine × List HandshakeAction :=
  ({ m with state := .connected }, messages.map .send ++ [.connected])

/-- An initiator's CONCLUSION in `attention`, `fine` or `initiated`: only the
response completes it, anything else is answered with the request again. -/
def initiatorConclusion (waiting : RendezvousState) :
    RendezvousHandshakeMachine × List HandshakeAction :=
  if msg.handshakeResponse.isSome then m.connect [m.agreementAction]
  else { m with state := waiting }.sendArmed m.conclusionRequestAction

/-- The switch over the state behind a successful admission. -/
def advance : RendezvousHandshakeMachine × List HandshakeAction :=
  let request := msg.handshakeRequest.isSome
  match m.state, msg.packet.request with
  | .waving, .waveAHand => { m with state := .attention }.sendArmed m.solicitation
  | .waving, .conclusion =>
    if m.role = .initiator then
      { m with state := .fine }.sendArmed m.conclusionRequestAction
    else if request then { m with state := .fine }.sendArmed m.conclusionResponseAction
    else { m with state := .attention }.sendArmed m.emptyConclusionAction
  | .attention, .waveAHand => m.sendArmed m.solicitation
  | .attention, .conclusion =>
    if m.role = .initiator then m.initiatorConclusion msg .initiated
    else if request then { m with state := .initiated }.sendArmed m.conclusionResponseAction
    else m.sendArmed m.emptyConclusionAction
  | .fine, .conclusion =>
    if m.role = .initiator then m.initiatorConclusion msg .fine
    else if m.role = .responder ∧ request then m.sendArmed m.conclusionResponseAction
    else m.fail
  | .fine, .agreement =>
    if m.role = .responder then m.connect [] else m.fail
  | .initiated, .conclusion =>
    if m.role = .initiator then m.initiatorConclusion msg .initiated
    else if m.role = .responder ∧ request then m.sendArmed m.conclusionResponseAction
    else m.fail
  | .initiated, .agreement =>
    if m.role = .responder then m.connect [m.agreementAction] else m.fail
  | .connected, .conclusion =>
    if m.role = .initiator then (m, [.send m.agreementAction])
    else if request then (m, [.send m.conclusionResponseAction])
    else (m, [])
  | .connected, .agreement => (m, [])
  -- Among the rest is a WAVEAHAND behind `attention`.
  | _, _ => m.fail

def receive : RendezvousHandshakeMachine × List HandshakeAction :=
  match m.examine msg with
  | .error refusal => m.refuse refusal
  | .ok admitted => admitted.advance msg

/-- The configuration checks of `start`. -/
def startable : Bool :=
  let c := m.configuration
  !c.requireSessionAuthentication && c.groupMembership.isNone
    && m.state == .idle && c.localSocketId != 0 && c.localCookie != 0
    && decide (76 ≤ c.maximumTransmissionUnit) && c.flowWindow != 0
    && (c.encryptionField == 0 || keyLengthForEncryptionField c.encryptionField != 0)
    -- Without a group neither identifier may be configured.
    && !c.requirePathIdentifier && c.pathIdentifier.bytes.isEmpty && !c.requireStandbyRtt

def start : RendezvousHandshakeMachine × List HandshakeAction :=
  if m.startable then { m with state := .waving }.sendArmed m.waveAction else m.fail

def noteConnectedPacket : RendezvousHandshakeMachine × List HandshakeAction :=
  if m.configuration.requireSessionAuthentication then (m, [])
  else if (m.state = .initiated ∨ m.state = .fine) ∧ m.role = .responder then
    m.connect [m.agreementAction]
  else if m.state ≠ .connected then m.fail
  else (m, [])

/-- What a retry in an unfinished state repeats. -/
def retryMessage : HandshakeMessage :=
  match m.state with
  | .waving => m.waveAction
  | .attention => m.solicitation
  | _ => if m.role = .initiator then m.conclusionRequestAction
      else m.conclusionResponseAction

def timeout : RendezvousHandshakeMachine × List HandshakeAction :=
  if m.state = .connected ∨ m.state = .rejected then (m, [])
  else if m.state = .idle ∨ m.state = .failed ∨ m.retryCount ≥ m.configuration.maximumRetries then
    m.fail
  else { m with retryCount := m.retryCount + 1 }.sendArmed m.retryMessage

/-! ## What the operations do -/

/-- A message is admitted exactly when every check passes; the machine then
has the resolved role, the negotiated filter and the recorded peer. -/
theorem examine_ok_iff {m a : RendezvousHandshakeMachine} {msg : HandshakeMessage} :
    m.examine msg = .ok a ↔ ∃ role filter,
      m.checkPacket msg = .ok () ∧ m.checkVersion msg = .ok () ∧ m.resolveRole msg = .ok role
      ∧ m.checkSessionAuthentication msg role = .ok () ∧ m.checkGroup msg role = .ok ()
      ∧ m.checkController msg = .ok () ∧ m.negotiateFilter msg = .ok filter
      ∧ a = { m with role, negotiatedPacketFilter := filter, retryCount := 0 }.rememberPeer
        msg := by
  simp only [examine, bind, Except.bind, pure, Except.pure]
  constructor
  · intro h
    repeat' split at h
    all_goals cases h
    next h1 _ _ h2 _ role h3 _ _ h4 _ _ h5 _ _ h6 _ filter h7 =>
    exact ⟨role, filter, h1, h2, h3, h4, h5, h6, h7, rfl⟩
  rintro ⟨role, filter, h1, h2, h3, h4, h5, h6, h7, rfl⟩
  simp only [h1, h2, h3, h4, h5, h6, h7]

/-- The states behind a recorded HSREQ, or on the initiator's side behind a
CONCLUSION of the peer. -/
def settled : RendezvousState → Bool
  | .fine => true
  | .initiated => true
  | .connected => true
  | _ => false

/-- The messages a machine sends on its way to state `s`; `request` tells
whether it is answering an HSREQ. -/
inductive Emits (m : RendezvousHandshakeMachine) (request : Bool) (s : RendezvousState) :
    HandshakeMessage → Prop
  | wave : s = .waving → Emits m request s m.waveAction
  | request : m.role = .initiator → Emits m request s m.conclusionRequestAction
  | empty : m.role ≠ .initiator → s = .attention → Emits m request s m.emptyConclusionAction
  | response : m.role ≠ .initiator → settled s → request ∨ settled m.state →
      Emits m request s m.conclusionResponseAction
  | agreement : s = .connected → Emits m request s m.agreementAction
  | rejection (reason : Nat) : s = .rejected →
      Emits m request s { packet := m.basePacket (.rejection reason) }

/-- What an operation can do once its message, if any, is recorded: of the
recorded fields none changes, and the state moves forward only.  `request`
and `response` tell what the message carried. -/
structure Moves (m : RendezvousHandshakeMachine) (request response : Bool)
    (r : RendezvousHandshakeMachine × List HandshakeAction) : Prop where
  machine : r.1 = { m with
    state := r.1.state
    retryCount := r.1.retryCount
    rejectionReason := r.1.rejectionReason }
  emits : ∀ out ∈ sentMessages r.2, Emits m request r.1.state out
  engaged : r.1.state = .attention ∨ settled r.1.state →
    (m.state = .attention ∨ settled m.state) ∨ m.role ≠ .unresolved
  responder : m.role ≠ .initiator → settled r.1.state → settled m.state ∨ request
  initiator : m.role = .initiator → r.1.state = .connected → m.state = .connected ∨ response

section

variable (m : RendezvousHandshakeMachine)

@[simp] theorem sentMessages_sendArmed (out : HandshakeMessage) :
    sentMessages (m.sendArmed out).2 = [out] := rfl

@[simp] theorem sendArmed_fst (out : HandshakeMessage) : (m.sendArmed out).1 = m := rfl

@[simp] theorem sentMessages_connect (outs : List HandshakeMessage) :
    sentMessages (m.connect outs).2 = outs := by
  induction outs with
  | nil => rfl
  | cons out outs ih => exact congrArg (out :: ·) ih

end

theorem moves_advance {m : RendezvousHandshakeMachine} (hrole : m.role ≠ .unresolved)
    (msg : HandshakeMessage) :
    Moves m msg.handshakeRequest.isSome msg.handshakeResponse.isSome (m.advance msg) := by
  simp only [advance, solicitation, initiatorConclusion]
  split
  all_goals try split_ifs
  all_goals refine ⟨rfl, ?_, fun _ => .inr hrole, ?_, ?_⟩
  all_goals simp_all [settled, fail, connect]
  -- What is left are the emissions, one per sending leaf.
  all_goals first
    | exact .request ‹m.role = .initiator›
    | exact .empty ‹¬m.role = .initiator› rfl
    | exact .agreement rfl
    | exact .response (by simp_all) rfl (by simp_all [settled])

section

variable (m : RendezvousHandshakeMachine)

theorem moves_stay (request response : Bool) : Moves m request response (m, []) where
  machine := rfl
  emits := by intro out h; cases h
  engaged := .inl
  responder := fun _ => .inl
  initiator := fun _ => .inl

theorem moves_fail (request response : Bool) : Moves m request response m.fail where
  machine := rfl
  emits := by intro out h; cases h
  engaged := by rintro (h | h) <;> cases h
  responder := by intro _ h; cases h
  initiator := by intro _ h; cases h

theorem moves_refuse (refusal : Refusal) : Moves m false false (m.refuse refusal) := by
  cases refusal with
  | fail => exact moves_fail m _ _
  | ignore => exact moves_stay m _ _
  | peerRejected reason =>
    refine ⟨rfl, ?_, ?_, ?_, ?_⟩
    all_goals simp [refuse, settled]
  | reject reason =>
    refine ⟨rfl, ?_, ?_, ?_, ?_⟩
    · intro out h
      obtain rfl : out = _ := by simpa [refuse] using h
      exact .rejection reason rfl
    all_goals simp [refuse, settled]

theorem moves_start : Moves m false false m.start := by
  unfold start
  split
  · refine ⟨rfl, ?_, ?_, ?_, ?_⟩
    · intro out h
      obtain rfl : out = _ := by simpa using h
      exact .wave rfl
    all_goals simp [settled]
  · exact moves_fail m _ _

theorem moves_noteConnectedPacket : Moves m false false m.noteConnectedPacket := by
  unfold noteConnectedPacket
  split_ifs with _ hpending
  · exact moves_stay m _ _
  · obtain ⟨hs, hrole⟩ := hpending
    have hsettled : settled m.state = true := by rcases hs with hs | hs <;> rw [hs] <;> rfl
    refine ⟨rfl, ?_, fun _ => .inl (.inr hsettled), fun _ _ => .inl hsettled, ?_⟩
    · intro out h
      obtain rfl : out = _ := by simpa using h
      exact .agreement rfl
    intro h
    rw [hrole] at h
    cases h
  · exact moves_fail m _ _
  · exact moves_stay m _ _

end

theorem emits_retryMessage {m : RendezvousHandshakeMachine}
    (hlive : m.state = .waving ∨ m.state = .attention ∨ settled m.state) :
    Emits m false m.state m.retryMessage := by
  unfold retryMessage solicitation
  split
  · next h => exact .wave h
  · next ha =>
    split
    · next h => exact .request h
    · next h => exact .empty h ha
  next hw ha =>
  have hs : settled m.state = true := (hlive.resolve_left hw).resolve_left ha
  split
  · next h => exact .request h
  · next h => exact .response h hs (.inr hs)

theorem moves_timeout (m : RendezvousHandshakeMachine) : Moves m false false m.timeout := by
  unfold timeout
  split_ifs with hquiet hdead
  · exact moves_stay m _ _
  · exact moves_fail m _ _
  refine ⟨rfl, ?_, .inl, fun _ => .inl, fun _ => .inl⟩
  intro out h
  obtain rfl : out = _ := by simpa using h
  refine emits_retryMessage ?_
  cases hs : m.state <;> simp_all [settled]

end RendezvousHandshakeMachine

end Srt
