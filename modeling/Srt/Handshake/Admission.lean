/-
# `Admission` — what a connected listener must have received

A listener machine on its own, against any sequence of messages and calls of
its owner.  `ListenerStep` says all that one of them can do to it.  The two
messages behind a connected listener are found in the sequence by their
prefixes: an INDUCTION while the machine was idle, later one CONCLUSION that
passed every check, and with session authentication the AGREEMENT behind it.
Everything the machine then knows of its peer was read from these.
-/
import Srt.Handshake.MachineAgreement
import Mathlib.Data.List.Induction

namespace Srt.Admission

open HandshakeMachine CallerListener

variable {answer : Option (GroupMembership × Option MulticastDispatch)}

inductive Event
  | receive (message : HandshakeMessage)
  | perform (operation : Operation)
  deriving DecidableEq, Repr

def after (m : HandshakeMachine) : Event → HandshakeMachine
  | .receive message => (m.receive message).1
  | .perform operation => (perform m operation).1

def run (c : HandshakeConfiguration) (es : List Event) : HandshakeMachine :=
  es.foldl after (ofConfiguration c)

/-! ## The messages -/

/-- An INDUCTION that is answered with the cookie. -/
structure Invites (c : HandshakeConfiguration) (cookie : UInt32) (x : HandshakeMessage) :
    Prop where
  request : x.packet.request = .induction
  version : x.packet.version = handshakeVersion4
  generated : ∃ cookieGenerator, c.cookieGenerator = some cookieGenerator
    ∧ cookieGenerator x.packet = cookie
  nonzero : cookie ≠ 0

/-- The filter behind an offer, or behind none. -/
def AcceptsFilter (c : HandshakeConfiguration) (offer : Option PacketFilterConfiguration)
    (f : PacketFilterConfiguration) : Prop :=
  match offer with
  | none => c.packetFilterConfiguration.val.sensorProfile = false ∧ f = {}
  | some offer => versionedController c.congestionController = false
      ∧ negotiatePacketFilterConfiguration c.packetFilterConfiguration.val offer false = .ok f
      ∧ (c.receiveCapacityPackets = 0
        ∨ fecGeometryFitsReceiveCapacity f c.receiveCapacityPackets = true)

/-- The membership is one the policy and the negotiator admit, and a multicast
one can be announced. -/
def AcceptsGroup (c : HandshakeConfiguration) (peer : GroupMembership) : Prop :=
  validateGroupMembership peer c.groupMembershipPolicy = .compatible
    ∧ ∃ negotiator answer, c.groupMembershipNegotiator = some negotiator
      ∧ negotiator peer = some answer
      ∧ validateGroupMembership answer c.groupMembershipPolicy = .compatible
      ∧ answer.type = peer.type
      ∧ (answer.type = .multicast → ∃ d, c.multicastDispatchProvider = some (some d)
        ∧ d.groupId = answer.groupId ∧ validMulticastDispatch d = true)

/-- A CONCLUSION that a listener with configuration `c` accepts under the
cookie. -/
structure Admits (c : HandshakeConfiguration) (cookie : UInt32) (x : HandshakeMessage) :
    Prop where
  request : x.packet.request = .conclusion
  version : x.packet.version = handshakeVersion5
  cookie : x.packet.synCookie = cookie
  parameters : ∃ p, x.handshakeExtension = some (.handshakeRequest, p)
    ∧ minimumHsv5SrtVersion ≤ p.srtVersion ∧ c.minimumPeerSrtVersion ≤ p.srtVersion
    ∧ bufferMode c.extensionParameters = bufferMode p
  controller : x.congestion.getD .live = c.congestionController
  filter : ∃ f, AcceptsFilter c x.packetFilter f
  path : x.pathIdentifier.isSome = c.requirePathIdentifier
    ∧ ∀ p ∈ x.pathIdentifier, p.valid = true ∧ x.groupMembership.isSome = true
      ∧ c.congestionController = .live
  standby : x.standbyRtt.isSome = c.requireStandbyRtt
    ∧ ∀ i ∈ x.standbyRtt, i.isOffer = true ∧ i.caller ≠ c.standbyRttNonce
      ∧ (∃ g ∈ x.groupMembership, g.type = .backup)
      ∧ ∀ p, x.handshakeExtension = some (.handshakeRequest, p) →
        bufferMode p = false ∧ bothTsbpd p = true
  group : ∀ g ∈ x.groupMembership, AcceptsGroup c g
  offer : x.sessionAuthentication.isSome = c.requireSessionAuthentication
    ∧ ∀ a ∈ x.sessionAuthentication, a.version = c.sessionAuthentication.version
      ∧ a.isOffer = true ∧ a.callerNonce = c.sessionAuthentication.callerNonce

/-- The AGREEMENT that completes the session authentication of `m`. -/
structure Confirms (c : HandshakeConfiguration) (m : HandshakeMachine) (x : HandshakeMessage) :
    Prop where
  request : x.packet.request = .agreement
  version : x.packet.version = handshakeVersion5
  socketId : x.packet.socketId = m.peerSocketId
  cookie : x.packet.synCookie = m.cookie
  proof : c.sessionAuthenticationConfirmation.isProof = true
    ∧ ∃ a, x.sessionAuthentication = some a
      ∧ c.sessionAuthenticationConfirmation.agreesWith a = true

/-- What the machine knows of its peer is what the two messages say. -/
structure Exposes (c : HandshakeConfiguration) (m : HandshakeMachine)
    (induction conclusion : HandshakeMessage) : Prop where
  socketId : m.peerSocketId = conclusion.packet.socketId
  flowWindow : m.peerFlowWindow = conclusion.packet.flowWindow
  parameters : m.peerExtensionParameters = conclusion.handshakeExtension.map Prod.snd
  streamId : m.peerStreamId = conclusion.streamId
  group : m.peerGroupMembership = conclusion.groupMembership
  path : m.peerPathIdentifier = conclusion.pathIdentifier.getD {}
  identity : m.peerIdentity = conclusion.implementationIdentity
  filter : AcceptsFilter c conclusion.packetFilter m.negotiatedPacketFilter
  sequence : m.peerInitialSequence = induction.packet.initialSequence
    ∧ m.negotiatedInitialSequence = induction.packet.initialSequence

/-! ## The checks -/

section Checks

variable {m : HandshakeMachine} {x : HandshakeMessage} {p : HandshakeExtensionParameters}
  {f : PacketFilterConfiguration}

theorem bind_eq_ok {ε α β : Type} {r : Except ε α} {k : α → Except ε β} {b : β} :
    (r >>= k) = .ok b ↔ ∃ a, r = .ok a ∧ k a = .ok b := by
  cases r with
  | error e => exact ⟨nofun, nofun⟩
  | ok a =>
    refine ⟨fun h => ⟨a, rfl, h⟩, ?_⟩
    rintro ⟨_, ⟨⟩, h⟩
    exact h

theorem refuseUnless_eq_ok {condition : Bool} {reason : Nat} {u : Unit} :
    refuseUnless condition reason = .ok u ↔ condition = true := by
  unfold refuseUnless
  cases condition with
  | false => exact ⟨nofun, nofun⟩
  | true => exact ⟨fun _ => rfl, fun _ => rfl⟩

/-- The checks of a CONCLUSION in their order. -/
theorem checkConclusion_eq_ok (h : m.checkConclusion x = .ok f) :
    x.packet.version = handshakeVersion5 ∧ ∃ p, x.handshakeExtension = some (.handshakeRequest, p)
      ∧ m.checkOffers x p = .ok () ∧ m.checkPeerVersion p = .ok ()
      ∧ compatibleTransmissionMode m.configuration.extensionParameters p = true
      ∧ x.congestion.getD .live = m.configuration.congestionController
      ∧ m.negotiateFilter x = .ok f := by
  unfold checkConclusion at h
  simp only [bind_eq_ok, refuseUnless_eq_ok, beq_iff_eq] at h
  obtain ⟨-, hversion, h⟩ := h
  unfold HandshakeMessage.handshakeRequest at h
  split at h
  · cases h
  next p hrequest =>
  simp only [bind_eq_ok, refuseUnless_eq_ok, beq_iff_eq] at h
  obtain ⟨⟨⟩, hoffers, ⟨⟩, hpeer, -, hmode, -, hcontroller, hfilter⟩ := h
  refine ⟨hversion, p, ?_, hoffers, hpeer, hmode, hcontroller, hfilter⟩
  split at hrequest
  · next hextension =>
    cases hrequest
    exact hextension
  · cases hrequest

theorem checkPeerVersion_eq_ok (h : m.checkPeerVersion p = .ok ()) :
    minimumHsv5SrtVersion ≤ p.srtVersion
      ∧ m.configuration.minimumPeerSrtVersion ≤ p.srtVersion := by
  unfold checkPeerVersion classifyHsv5PeerVersion at h
  by_cases hold : p.srtVersion < minimumHsv5SrtVersion
  · rw [if_pos hold] at h
    cases h
  by_cases hbelow : p.srtVersion < m.configuration.minimumPeerSrtVersion
  · rw [if_neg hold, if_pos hbelow] at h
    cases h
  · exact ⟨Nat.le_of_not_lt hold, Nat.le_of_not_lt hbelow⟩

theorem negotiateFilter_eq_ok (hnone : m.negotiatedPacketFilter = {})
    (h : m.negotiateFilter x = .ok f) : AcceptsFilter m.configuration x.packetFilter f := by
  unfold negotiateFilter at h
  cases hoffer : x.packetFilter with
  | none =>
    rw [hoffer] at h
    dsimp only at h
    split at h
    · cases h
    next hsensor =>
    cases h
    exact ⟨Bool.eq_false_iff.2 hsensor, hnone⟩
  | some offer =>
    rw [hoffer] at h
    dsimp only at h
    split at h
    · cases h
    next hversioned =>
    split at h
    · cases h
    next f' hnegotiated =>
    split at h
    · next hfits =>
      cases h
      refine ⟨Bool.eq_false_iff.2 hversioned, hnegotiated, ?_⟩
      simpa [fitsCapacity] using hfits
    · cases h

theorem negotiateGroup_eq_ok {peer : GroupMembership}
    {answer : GroupMembership × Option MulticastDispatch}
    (h : m.negotiateGroup peer = .ok answer) : AcceptsGroup m.configuration peer := by
  unfold negotiateGroup at h
  dsimp only at h
  split at h
  · cases h
  next hpeer =>
  split at h
  · cases h
  next own hnegotiated =>
  obtain ⟨negotiator, hnegotiator, hown⟩ := Option.bind_eq_some_iff.1 hnegotiated
  split at h
  · cases h
  next hvalid =>
  rw [not_or, not_not, not_not] at hvalid
  split at h
  · cases h
  next d hdispatch =>
  refine ⟨not_not.1 hpeer, negotiator, own, hnegotiator, hown, hvalid.1, hvalid.2, ?_⟩
  intro hmulticast
  unfold provideDispatch at hdispatch
  rw [if_pos hmulticast] at hdispatch
  split at hdispatch
  · next d' hprovider =>
    split at hdispatch
    · next hd => exact ⟨d', hprovider, hd⟩
    · cases hdispatch
  · cases hdispatch

theorem answerGroup_eq_ok (h : m.answerGroup x = .ok answer) :
    ∀ g ∈ x.groupMembership, AcceptsGroup m.configuration g := by
  intro g hg
  unfold answerGroup at h
  rw [hg] at h
  dsimp only at h
  split at h
  · cases h
  · next hnegotiated => exact negotiateGroup_eq_ok hnegotiated

theorem admits_of_checks {cookie : UInt32} (hnone : m.negotiatedPacketFilter = {})
    (hrequest : x.packet.request = .conclusion) (hcookie : x.packet.synCookie = cookie)
    (h : m.checkConclusion x = .ok f) (hgroup : m.answerGroup x = .ok answer) :
    Admits m.configuration cookie x := by
  obtain ⟨hversion, p, hextension, hoffers, hpeer, hmode, hcontroller, hfilter⟩ :=
    checkConclusion_eq_ok h
  obtain ⟨hhsv5, hminimum⟩ := checkPeerVersion_eq_ok hpeer
  unfold checkOffers at hoffers
  simp only [bind_eq_ok, refuseUnless_eq_ok] at hoffers
  obtain ⟨-, hoffer, -, hpath, hstandby⟩ := hoffers
  refine ⟨hrequest, hversion, hcookie, ⟨p, hextension, hhsv5, hminimum, ?_⟩, hcontroller,
    ⟨f, negotiateFilter_eq_ok hnone hfilter⟩, ?_, ?_, answerGroup_eq_ok hgroup, ?_⟩
  · simpa [compatibleTransmissionMode] using hmode
  · cases hidentifier : x.pathIdentifier with
    | none =>
      rw [hidentifier] at hpath
      exact ⟨by simpa using hpath, nofun⟩
    | some identifier =>
      rw [hidentifier] at hpath
      simp only [Bool.and_eq_true, beq_iff_eq] at hpath
      obtain ⟨⟨⟨hrequired, hvalid⟩, hmember⟩, hlive⟩ := hpath
      refine ⟨by simpa using hrequired.symm, ?_⟩
      rintro _ ⟨⟩
      exact ⟨hvalid, hmember, hlive⟩
  · cases hidentity : x.standbyRtt with
    | none =>
      rw [hidentity] at hstandby
      exact ⟨by simpa using hstandby, nofun⟩
    | some identity =>
      rw [hidentity] at hstandby
      simp only [Bool.and_eq_true, bne_iff_ne, Bool.not_eq_true'] at hstandby
      obtain ⟨⟨⟨⟨⟨hrequired, hisOffer⟩, hbackup⟩, hbuffer⟩, htsbpd⟩, hne⟩ := hstandby
      refine ⟨by simpa using hrequired.symm, ?_⟩
      rintro _ ⟨⟩
      refine ⟨hisOffer, hne, ?_, ?_⟩
      · cases hg : x.groupMembership with
        | none => rw [hg] at hbackup; cases hbackup
        | some g => exact ⟨g, rfl, by rw [hg] at hbackup; simpa using hbackup⟩
      intro p' hp'
      rw [hextension] at hp'
      cases hp'
      exact ⟨hbuffer, htsbpd⟩
  cases hsession : x.sessionAuthentication with
  | none =>
    rw [hsession] at hoffer
    exact ⟨by simpa using hoffer, nofun⟩
  | some a =>
    rw [hsession] at hoffer
    simp only [Bool.and_eq_true, beq_iff_eq] at hoffer
    obtain ⟨⟨⟨hrequired, hversion⟩, hisOffer⟩, hnonce⟩ := hoffer
    refine ⟨by simpa using hrequired.symm, ?_⟩
    rintro _ ⟨⟩
    exact ⟨hversion, hisOffer, hnonce⟩

end Checks

/-! ## One step -/

/-- The record of an accepted CONCLUSION. -/
def recorded (m : HandshakeMachine) (x : HandshakeMessage) (f : PacketFilterConfiguration)
    (answer : Option (GroupMembership × Option MulticastDispatch)) : HandshakeMachine :=
  { m with
    negotiatedPacketFilter := f
    peerStreamId := x.streamId
    peerPathIdentifier := x.pathIdentifier.getD {} }.recordCaller x answer

/-- All that an event can make of a listener. -/
inductive ListenerStep (m : HandshakeMachine) : Event → HandshakeMachine → Prop
  | stay (e : Event) : ListenerStep m e m
  | retry (e : Event) (n : Nat) : ListenerStep m e { m with retryCount := n }
  | close (e : Event) {m' : HandshakeMachine} (configuration : m'.configuration = m.configuration)
      (closed : m'.state = .rejected ∨ m'.state = .failed) : ListenerStep m e m'
  | invite (x : HandshakeMessage) (cookie : UInt32) (idle : m.state = .idle)
      (invites : Invites m.configuration cookie x) :
      ListenerStep m (.receive x) { m with
        state := .awaitingConclusionResponse
        peerSocketId := x.packet.socketId
        retryCount := 0
        negotiatedInitialSequence := x.packet.initialSequence
        peerInitialSequence := x.packet.initialSequence
        cookie }
  | accept (x : HandshakeMessage) (f : PacketFilterConfiguration)
      (answer : Option (GroupMembership × Option MulticastDispatch)) (state : HandshakeState)
      (challenge : Option HandshakeMessage)
      (waiting : m.state = .awaitingConclusionResponse)
      (request : x.packet.request = .conclusion) (cookie : x.packet.synCookie = m.cookie)
      (check : m.checkConclusion x = .ok f) (group : m.answerGroup x = .ok answer)
      (next : state = if m.configuration.requireSessionAuthentication then
        .awaitingAuthenticationConfirmation else .connected) :
      ListenerStep m (.receive x)
        { recorded m x f answer with state, sessionChallenge := challenge }
  | confirm (x : HandshakeMessage) (waiting : m.state = .awaitingAuthenticationConfirmation)
      (confirms : Confirms m.configuration m x) :
      ListenerStep m (.receive x) { m with state := .connected }

section Step

variable {m : HandshakeMachine} {x : HandshakeMessage}

theorem step_fail (e : Event) : ListenerStep m e m.fail.1 := .close e rfl (.inr rfl)

theorem step_reject (e : Event) (reason : Int) : ListenerStep m e (m.reject reason).1 := by
  unfold HandshakeMachine.reject
  split
  · exact step_fail e
  · exact .close e rfl (.inl rfl)

theorem step_receiveInduction (hidle : m.state = .idle) (hrequest : x.packet.request = .induction) :
    ListenerStep m (.receive x) (m.receiveInduction x.packet).1 := by
  unfold receiveInduction
  split
  · exact step_fail _
  next hversion =>
  split
  · exact step_fail _
  next cookieGenerator hgenerator =>
  dsimp only
  split
  · exact .close _ rfl (.inr rfl)
  next hnonzero =>
  exact .invite x (cookieGenerator x.packet) hidle
    ⟨hrequest, not_not.1 hversion, ⟨_, hgenerator, rfl⟩, hnonzero⟩

theorem step_receiveConclusion (hwaiting : m.state = .awaitingConclusionResponse)
    (hrequest : x.packet.request = .conclusion) (hcookie : x.packet.synCookie = m.cookie) :
    ListenerStep m (.receive x) (m.receiveConclusion x).1 := by
  unfold receiveConclusion
  split
  · exact step_reject _ _
  next f hcheck =>
  dsimp only
  split
  · -- The refusal of the group keeps what was written before it.
    unfold HandshakeMachine.reject
    split
    · exact .close _ rfl (.inr rfl)
    · exact .close _ rfl (.inl rfl)
  next answer hgroup =>
  have haccept := fun state challenge =>
    ListenerStep.accept x f answer state challenge hwaiting hrequest hcookie hcheck hgroup
  unfold answerConclusion
  dsimp only
  split
  · next hrequire => exact haccept _ _ (if_pos hrequire).symm
  · next hrequire => exact haccept _ m.sessionChallenge (if_neg hrequire).symm

theorem step_receiveConfirmation (hwaiting : m.state = .awaitingAuthenticationConfirmation) :
    ListenerStep m (.receive x) (m.receiveConfirmation x).1 := by
  unfold receiveConfirmation
  dsimp only
  split
  · exact .stay _
  split
  · next h =>
    obtain ⟨hrequest, hversion, hsocket, hcookie, hpresent, hproof, hagrees⟩ := h
    obtain ⟨a, ha⟩ := Option.isSome_iff_exists.1 hpresent
    rw [ha] at hagrees
    exact .confirm x hwaiting ⟨hrequest, hversion, hsocket, hcookie, hproof, a, ha, hagrees⟩
  split
  · exact .stay _
  · exact .stay _

theorem step_receive (hrole : m.configuration.role = .listener) :
    ListenerStep m (.receive x) (m.receive x).1 := by
  unfold receive
  split
  · exact step_fail _
  split
  · exact .stay _
  split
  · exact .close _ rfl (.inl rfl)
  rw [hrole]
  dsimp only
  unfold receiveListener
  split
  · exact step_receiveConfirmation ‹_›
  · next hidle hrequest => exact step_receiveInduction hidle hrequest
  · next hwaiting hrequest =>
    split
    · next hcookie => exact step_receiveConclusion hwaiting hrequest hcookie.2
    · exact step_fail _
  · split
    · unfold repeatConclusion
      split
      · exact .stay _
      · exact .stay _
    · exact step_fail _
  · exact step_fail _

theorem step_timeout (e : Event) : ListenerStep m e m.timeout.1 := by
  unfold timeout
  split
  · exact .stay _
  split
  · exact step_fail _
  dsimp only
  split
  · exact .close _ rfl (.inr rfl)
  · exact .retry e _

/-- The setters are for callers. -/
theorem step_perform (hrole : m.configuration.role = .listener) (o : Operation) :
    ListenerStep m (.perform o) (perform m o).1 := by
  cases o with
  | start =>
    show ListenerStep m _ m.start.1
    unfold start
    rw [if_neg (by simp [startable, hrole])]
    exact step_fail _
  | timeout => exact step_timeout _
  | reject reason => exact step_reject _ reason
  | setSessionAuthentication p =>
    show ListenerStep m _ (orUnchanged m (m.setSessionAuthentication p)).1
    cases hset : m.setSessionAuthentication p with
    | error _ => exact .stay _
    | ok _ => exact absurd (hrole.symm.trans (setSessionAuthentication_ok hset).1) (by simp)
  | setKeyMaterialRequest request field =>
    show ListenerStep m _ (orUnchanged m (m.setKeyMaterialRequest request field)).1
    cases hset : m.setKeyMaterialRequest request field with
    | error _ => exact .stay _
    | ok _ => exact absurd (hrole.symm.trans (setKeyMaterialRequest_ok hset).1) (by simp)

theorem after_listenerStep (hrole : m.configuration.role = .listener) (e : Event) :
    ListenerStep m e (after m e) := by
  cases e with
  | receive x => exact step_receive hrole
  | perform o => exact step_perform hrole o

end Step

/-! ## Runs -/

/-- The INDUCTION `x` came behind `es₁`, to the idle machine. -/
structure Invited (c : HandshakeConfiguration) (es : List Event) (m : HandshakeMachine)
    (es₁ : List Event) (x : HandshakeMessage) : Prop where
  idle : (run c es₁).state = .idle
  received : es₁ ++ [.receive x] <+: es
  invites : Invites c m.cookie x
  sequence : m.peerInitialSequence = x.packet.initialSequence
    ∧ m.negotiatedInitialSequence = x.packet.initialSequence

/-- Behind it, and behind `es₂`, came the CONCLUSION `y`. -/
structure Admitted (c : HandshakeConfiguration) (es : List Event) (m : HandshakeMachine)
    (es₁ : List Event) (x : HandshakeMessage) (es₂ : List Event) (y : HandshakeMessage) :
    Prop where
  idle : (run c es₁).state = .idle
  order : es₁ ++ [.receive x] <+: es₂
  received : es₂ ++ [.receive y] <+: es
  invites : Invites c m.cookie x
  admits : Admits c m.cookie y
  exposes : Exposes c m x y

/-- The AGREEMENT `z` came behind `es₃`, which has the CONCLUSION in it. -/
structure Confirmed (c : HandshakeConfiguration) (es : List Event) (m : HandshakeMachine)
    (es₂ : List Event) (y : HandshakeMessage) (es₃ : List Event) (z : HandshakeMessage) :
    Prop where
  order : es₂ ++ [.receive y] <+: es₃
  received : es₃ ++ [.receive z] <+: es
  confirms : Confirms c m z

/-- What the events say about the machine they lead to. -/
structure Course (c : HandshakeConfiguration) (es : List Event) (m : HandshakeMachine) :
    Prop where
  configuration : m.configuration = c
  noFilter : m.state = .idle ∨ m.state = .awaitingConclusionResponse → m.negotiatedPacketFilter = {}
  invited : m.state = .awaitingConclusionResponse → ∃ es₁ x, Invited c es m es₁ x
  admitted : m.state = .awaitingAuthenticationConfirmation →
    ∃ es₁ x es₂ y, Admitted c es m es₁ x es₂ y
  connected : m.state = .connected → ∃ es₁ x es₂ y, Admitted c es m es₁ x es₂ y
    ∧ (c.requireSessionAuthentication = true → ∃ es₃ z, Confirmed c es m es₂ y es₃ z)

section Runs

variable {c : HandshakeConfiguration} {es es' es₁ es₂ es₃ : List Event}
  {m m' : HandshakeMachine} {x y z : HandshakeMessage}

theorem Invited.later (h : Invited c es m es₁ x) (hlater : es <+: es') (hf : Frozen m m') :
    Invited c es' m' es₁ x := by
  obtain ⟨_, _, _, rfl⟩ := hf
  exact ⟨h.idle, h.received.trans hlater, h.invites, h.sequence⟩

theorem Admitted.later (h : Admitted c es m es₁ x es₂ y) (hlater : es <+: es')
    (hf : Frozen m m') : Admitted c es' m' es₁ x es₂ y := by
  obtain ⟨_, _, _, rfl⟩ := hf
  obtain ⟨hid, hflow, hparameters, hstream, hgroup, hpath, hidentity, hfilter, hseq⟩ := h.exposes
  exact ⟨h.idle, h.order, h.received.trans hlater, h.invites, h.admits,
    hid, hflow, hparameters, hstream, hgroup, hpath, hidentity, hfilter, hseq⟩

theorem Confirmed.later (h : Confirmed c es m es₂ y es₃ z) (hlater : es <+: es')
    (hf : Frozen m m') : Confirmed c es' m' es₂ y es₃ z := by
  obtain ⟨_, _, _, rfl⟩ := hf
  obtain ⟨hrequest, hversion, hid, hcookie, hproof⟩ := h.confirms
  exact ⟨h.order, h.received.trans hlater, hrequest, hversion, hid, hcookie, hproof⟩

theorem Course.later (h : Course c es m) (hlater : es <+: es') (hf : Frozen m m')
    (hs : m'.state = m.state) : Course c es' m' := by
  have hfields : m'.configuration = m.configuration
      ∧ m'.negotiatedPacketFilter = m.negotiatedPacketFilter := by
    obtain ⟨_, _, _, rfl⟩ := hf
    exact ⟨rfl, rfl⟩
  refine ⟨hfields.1.trans h.configuration, fun hwait => ?_, fun hwait => ?_, fun hwait => ?_,
    fun hconn => ?_⟩
  · exact hfields.2.trans (h.noFilter (hs ▸ hwait))
  · obtain ⟨es₁, x, hinvited⟩ := h.invited (hs ▸ hwait)
    exact ⟨es₁, x, hinvited.later hlater hf⟩
  · obtain ⟨es₁, x, es₂, y, hadmitted⟩ := h.admitted (hs ▸ hwait)
    exact ⟨es₁, x, es₂, y, hadmitted.later hlater hf⟩
  obtain ⟨es₁, x, es₂, y, hadmitted, hconfirmed⟩ := h.connected (hs ▸ hconn)
  refine ⟨es₁, x, es₂, y, hadmitted.later hlater hf, fun hrequire => ?_⟩
  obtain ⟨es₃, z, hz⟩ := hconfirmed hrequire
  exact ⟨es₃, z, hz.later hlater hf⟩

theorem Course.closed (hconf : m.configuration = c)
    (hs : m.state = .rejected ∨ m.state = .failed) : Course c es m := by
  refine ⟨hconf, ?_, ?_, ?_, ?_⟩
  all_goals rcases hs with hs | hs <;> rw [hs] <;> simp

/-- The CONCLUSION that is accepted, behind the INDUCTION of the same
cookie. -/
theorem Course.accept (h : Course c es m) (hwaiting : m.state = .awaitingConclusionResponse)
    (hrequest : y.packet.request = .conclusion) (hcookie : y.packet.synCookie = m.cookie)
    {f : PacketFilterConfiguration} (hcheck : m.checkConclusion y = .ok f)
    (hgroup : m.answerGroup y = .ok answer) (state : HandshakeState)
    (challenge : Option HandshakeMessage) : ∃ es₁ x, Admitted c (es ++ [.receive y])
      { recorded m y f answer with state, sessionChallenge := challenge } es₁ x es y := by
  obtain ⟨es₁, x, hinvited⟩ := h.invited hwaiting
  have hnone := h.noFilter (.inr hwaiting)
  have hfilter : AcceptsFilter m.configuration y.packetFilter f := by
    obtain ⟨-, -, -, -, -, -, -, hfilter⟩ := checkConclusion_eq_ok hcheck
    exact negotiateFilter_eq_ok hnone hfilter
  have hadmits := admits_of_checks hnone hrequest hcookie hcheck hgroup
  rw [h.configuration] at hfilter hadmits
  exact ⟨es₁, x, hinvited.idle, hinvited.received, List.prefix_rfl, hinvited.invites, hadmits,
    rfl, rfl, rfl, rfl, rfl, rfl, rfl, hfilter, hinvited.sequence⟩

theorem Course.step (h : Course c es m) (hrun : run c es = m) {e : Event}
    (hstep : ListenerStep m e m') : Course c (es ++ [e]) m' := by
  have hlater : es <+: es ++ [e] := List.prefix_append es [e]
  cases hstep with
  | stay => exact h.later hlater ⟨_, _, _, rfl⟩ rfl
  | retry => exact h.later hlater ⟨_, _, _, rfl⟩ rfl
  | close _ hconf hclosed => exact .closed (hconf.trans h.configuration) hclosed
  | invite x cookie hidle hinvites =>
    rw [h.configuration] at hinvites
    refine ⟨h.configuration, fun _ => h.noFilter (.inl hidle), fun _ => ⟨es, x, ?_⟩, nofun, nofun⟩
    exact ⟨hrun ▸ hidle, List.prefix_rfl, hinvites, rfl, rfl⟩
  | accept y f answer state challenge hwaiting hrequest hcookie hcheck hgroup hnext =>
    obtain ⟨es₁, x, hadmitted⟩ := h.accept hwaiting hrequest hcookie hcheck hgroup state challenge
    rw [h.configuration] at hnext
    cases hrequire : c.requireSessionAuthentication with
    | true =>
      rw [hrequire, if_pos rfl] at hnext
      subst hnext
      exact ⟨h.configuration, by simp, nofun, fun _ => ⟨es₁, x, es, y, hadmitted⟩, nofun⟩
    | false =>
      rw [hrequire, if_neg Bool.false_ne_true] at hnext
      subst hnext
      refine ⟨h.configuration, by simp, nofun, nofun, fun _ => ⟨es₁, x, es, y, hadmitted, ?_⟩⟩
      rw [hrequire]
      nofun
  | confirm z hwaiting hconfirms =>
    rw [h.configuration] at hconfirms
    obtain ⟨es₁, x, es₂, y, hadmitted⟩ := h.admitted hwaiting
    have hf : Frozen m { m with state := .connected } := ⟨_, _, _, rfl⟩
    refine ⟨h.configuration, by simp, nofun, nofun,
      fun _ => ⟨es₁, x, es₂, y, hadmitted.later hlater hf, fun _ => ⟨es, z, ?_⟩⟩⟩
    have hconfirmed : Confirmed c (es ++ [.receive z]) m es₂ y es z :=
      ⟨hadmitted.received, List.prefix_rfl, hconfirms⟩
    exact hconfirmed.later List.prefix_rfl hf

theorem course_run (hrole : c.role = .listener) (es : List Event) : Course c es (run c es) := by
  -- The run grows at its end.
  induction es using List.reverseRecOn with
  | nil => exact ⟨rfl, fun _ => rfl, nofun, nofun, nofun⟩
  | append_singleton es e ih =>
    have hrun : run c (es ++ [e]) = after (run c es) e := by
      unfold run
      rw [List.foldl_append, List.foldl_cons, List.foldl_nil]
    rw [hrun]
    exact ih.step rfl (after_listenerStep (by rw [ih.configuration]; exact hrole) e)

end Runs

/-- Whatever messages a listener receives and whatever its owner does: when it
is connected, it received an INDUCTION of version 4 while it was idle and later
a CONCLUSION under the cookie it made of that INDUCTION, which passed every
check of its configuration, and what it says of its peer comes from these two.
Where session authentication is required, an AGREEMENT with the configured
proof came behind the CONCLUSION. -/
theorem connected_listener_admitted {c : HandshakeConfiguration} (hrole : c.role = .listener)
    {es : List Event} (hconnected : (run c es).state = .connected) :
    ∃ es₁ x es₂ y, Admitted c es (run c es) es₁ x es₂ y
      ∧ (c.requireSessionAuthentication = true → ∃ es₃ z, Confirmed c es (run c es) es₂ y es₃ z) :=
  (course_run hrole es).connected hconnected

/-! A listener that asks for the caller's proof, with a timeout and a message
of another proof before the right one. -/

def exampleProof : SessionAuthenticationParameters :=
  { callerNonce := List.replicate 32 1
    listenerNonce := List.replicate 32 2
    proof := List.replicate 32 3 }

def provingListener : HandshakeConfiguration :=
  { exampleListener with
    requireSessionAuthentication := true
    sessionAuthentication := { callerNonce := List.replicate 32 1 }
    sessionAuthenticationConfirmation := exampleProof }

/-- The caller with the parameters it sends now. -/
def provingCaller (parameters : SessionAuthenticationParameters) : HandshakeMachine :=
  { ofConfiguration { exampleCaller with
      requireSessionAuthentication := true
      sessionAuthentication := parameters } with
    cookie := 4711 }

def provingEvents : List Event :=
  [.receive { packet := (provingCaller {}).basePacket .induction }, .perform .timeout,
    .receive (provingCaller { callerNonce := List.replicate 32 1 }).conclusionRequest,
    .receive (provingCaller { exampleProof with proof := List.replicate 32 4 }).agreementAction,
    .receive (provingCaller exampleProof).agreementAction]

theorem connected_listener_admitted_provingEvents :
    (run provingListener provingEvents).state = .connected
      ∧ ∃ es₁ x es₂ y,
        Admitted provingListener provingEvents (run provingListener provingEvents) es₁ x es₂ y
        ∧ (provingListener.requireSessionAuthentication = true → ∃ es₃ z,
          Confirmed provingListener provingEvents (run provingListener provingEvents)
            es₂ y es₃ z) := by
  have hconnected : (run provingListener provingEvents).state = .connected := by decide +kernel
  exact ⟨hconnected, connected_listener_admitted rfl hconnected⟩

end Srt.Admission
