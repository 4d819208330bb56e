/-
# `MachineAgreement` — caller and listener agree

A caller and a listener machine over a network that loses, repeats and
reorders their datagrams.

The listener decides once.  What it records of the caller and the answer it
gives are written when it accepts a CONCLUSION and never again, whatever
happens to the connection afterwards (`Frozen`), and every CONCLUSION
response it ever sends is computed from those members (`Responds`).  The
caller's side of the agreement is then read off the one response it
accepts.
-/
import Srt.Lib.Duplex
import Srt.Handshake.Machine

namespace Srt.CallerListener

open HandshakeMachine

variable {r : HandshakeMachine × List HandshakeAction} {f : PacketFilterConfiguration}

inductive Operation
  | start
  | timeout
  | reject (reason : Int)
  | setSessionAuthentication (parameters : SessionAuthenticationParameters)
  | setKeyMaterialRequest (request : Bytes) (encryptionField : Nat)
  deriving DecidableEq, Repr

/-- A setter that refuses leaves the machine as it is. -/
def orUnchanged (m : HandshakeMachine) (r : Except Error HandshakeMachine) :
    HandshakeMachine × List HandshakeAction :=
  match r with
  | .ok m' => (m', [])
  | .error _ => (m, [])

def perform (m : HandshakeMachine) : Operation → HandshakeMachine × List HandshakeAction
  | .start => m.start
  | .timeout => m.timeout
  | .reject reason => m.reject reason
  | .setSessionAuthentication p => orUnchanged m (m.setSessionAuthentication p)
  | .setKeyMaterialRequest r f => orUnchanged m (m.setKeyMaterialRequest r f)

def endpoint : Lts.Endpoint HandshakeMachine HandshakeMessage Operation where
  act m e := ((perform m e).1, sentMessages (perform m e).2)
  receive m msg := ((m.receive msg).1, sentMessages (m.receive msg).2)
  carries := Carries

/-- Two new machines: end `false` has configuration `c`, end `true` has `l`. -/
def pair (c l : HandshakeConfiguration) :
    Lts.System (Lts.Duplex HandshakeMachine HandshakeMessage)
      (Lts.DuplexEvent HandshakeMessage Operation) :=
  endpoint.duplex fun i => ofConfiguration (bif i then l else c)

/-! ## What is said and what is recorded -/

/-- A CONCLUSION of a caller with configuration `c`. -/
structure Offers (c : HandshakeConfiguration) (x : HandshakeMessage) : Prop where
  socketId : x.packet.socketId = c.localSocketId
  flowWindow : x.packet.flowWindow = c.flowWindow
  parameters : x.handshakeExtension = some (.handshakeRequest, c.extensionParameters)
  congestion : x.congestion = controllerExtension c.congestionController
  packetFilter : x.packetFilter = presentIf c.packetFilterConfiguration.val.enabled
    c.packetFilterConfiguration.val
  group : x.groupMembership = c.groupMembership

/-- What a message of the caller commits it to. -/
structure CallerCommits (c : HandshakeConfiguration) (x : HandshakeMessage) : Prop where
  induction : x.packet.request = .induction → x.packet.initialSequence = c.initialSequence
  conclusion : x.packet.request = .conclusion → Offers c x

/-- The listener `l` has accepted a CONCLUSION of the caller `c`. -/
structure Recorded (c : HandshakeConfiguration) (l : HandshakeMachine) : Prop where
  socketId : l.peerSocketId = c.localSocketId
  flowWindow : l.peerFlowWindow = c.flowWindow
  negotiatedSequence : l.negotiatedInitialSequence = c.initialSequence
  peerSequence : l.peerInitialSequence = c.initialSequence
  parameters : l.peerExtensionParameters = some c.extensionParameters
  controller : l.configuration.congestionController = c.congestionController
  filter : c.packetFilterConfiguration.val.enabled = true →
    negotiatePacketFilterConfiguration l.configuration.packetFilterConfiguration.val
      c.packetFilterConfiguration.val false = .ok l.negotiatedPacketFilter
  noFilter : c.packetFilterConfiguration.val.enabled = false → l.negotiatedPacketFilter = {}
  group : l.peerGroupMembership = c.groupMembership
  answer : l.localGroupResponse.map GroupMembership.type
    = c.groupMembership.map GroupMembership.type

/-- A CONCLUSION response computed from the members of the listener `l`. -/
structure Responds (l : HandshakeMachine) (x : HandshakeMessage) : Prop where
  socketId : x.packet.socketId = l.configuration.localSocketId
  flowWindow : x.packet.flowWindow = l.configuration.flowWindow
  initialSequence : x.packet.initialSequence = l.negotiatedInitialSequence
  parameters : x.handshakeExtension = some (.handshakeResponse, l.responseExtensionParameters)
  packetFilter : x.packetFilter
    = presentIf l.negotiatedPacketFilter.enabled l.negotiatedPacketFilter
  group : x.groupMembership = l.localGroupResponse

/-- The caller `m` has accepted a response of the listener `l`. -/
structure Accepted (c : HandshakeConfiguration) (m l : HandshakeMachine) : Prop where
  socketId : m.peerSocketId = l.configuration.localSocketId
  flowWindow : m.peerFlowWindow = l.configuration.flowWindow
  initialSequence : m.peerInitialSequence = l.negotiatedInitialSequence
  parameters : m.peerExtensionParameters = some l.responseExtensionParameters
  filter : m.negotiatedPacketFilter = l.negotiatedPacketFilter
  group : m.peerGroupMembership = l.localGroupResponse
  recorded : Recorded c l

/-- The states before a machine has heard a CONCLUSION. -/
def early : HandshakeState → Bool
  | .idle => true
  | .awaitingInductionResponse => true
  | .awaitingConclusionResponse => true
  | _ => false

/-- Only the course of the connection has changed, nothing recorded. -/
def Frozen (m m' : HandshakeMachine) : Prop :=
  ∃ state retryCount rejectionReason, m' = { m with state, retryCount, rejectionReason }

section Frozen

variable {c : HandshakeConfiguration} {m l l' : HandshakeMachine} {x : HandshakeMessage}

theorem Recorded.frozen (h : Recorded c l) (hf : Frozen l l') : Recorded c l' := by
  obtain ⟨_, _, _, rfl⟩ := hf
  exact ⟨h.socketId, h.flowWindow, h.negotiatedSequence, h.peerSequence, h.parameters,
    h.controller, h.filter, h.noFilter, h.group, h.answer⟩

theorem Responds.frozen (h : Responds l x) (hf : Frozen l l') : Responds l' x := by
  obtain ⟨_, _, _, rfl⟩ := hf
  exact ⟨h.socketId, h.flowWindow, h.initialSequence, h.parameters, h.packetFilter, h.group⟩

theorem Accepted.frozen (h : Accepted c m l) (hf : Frozen l l') : Accepted c m l' := by
  have hr := h.recorded.frozen hf
  obtain ⟨_, _, _, rfl⟩ := hf
  exact ⟨h.socketId, h.flowWindow, h.initialSequence, h.parameters, h.filter, h.group, hr⟩

end Frozen

/-! ## The invariant -/

/-- `d` is `c` up to what the owner of a caller may set later. -/
def Configured (c d : HandshakeConfiguration) : Prop :=
  ∃ sessionAuthentication keyMaterialRequest encryptionField,
    d = { c with sessionAuthentication, keyMaterialRequest, encryptionField }

/-- The caller `m`, started with configuration `c`, against the listener
`l`. -/
structure Caller (c : HandshakeConfiguration) (m l : HandshakeMachine) : Prop where
  configuration : Configured c m.configuration
  ownSequence : m.negotiatedInitialSequence = c.initialSequence
  untouched : early m.state = true → m.negotiatedPacketFilter = {} ∧ m.peerGroupMembership = none
  connected : m.state = .connected → early l.state = false ∧ Accepted c m l

/-- The listener `m` with its own messages, against a caller with
configuration `c`. -/
structure Listener (c l : HandshakeConfiguration) (m : HandshakeMachine)
    (sent : List HandshakeMessage) : Prop where
  configuration : m.configuration = l
  noFilter : early m.state = true → m.negotiatedPacketFilter = {}
  waiting : m.state = .awaitingConclusionResponse → m.negotiatedInitialSequence = c.initialSequence
    ∧ m.peerInitialSequence = c.initialSequence
  answered : m.state = .awaitingAuthenticationConfirmation ∨ m.state = .connected → Recorded c m
  challenge : ∀ x ∈ m.sessionChallenge,
    early m.state = false ∧ Recorded c m ∧ Responds m x
  commits : ∀ x ∈ sent, x.packet.request = .conclusion →
    early m.state = false ∧ Recorded c m ∧ Responds m x

/-! ## Delivery -/

section Delivery

variable {c : HandshakeConfiguration} {l : HandshakeMachine} {x msg : HandshakeMessage}

/-- The fields of the fixed part that the machines read. -/
theorem packet_fields {sent received : Handshake} (h : PacketCarried sent received) :
    received.request = sent.request ∧ received.socketId = sent.socketId
    ∧ received.flowWindow = sent.flowWindow
    ∧ received.initialSequence = sent.initialSequence := by
  rcases h with rfl | ⟨_, rfl⟩
  all_goals exact ⟨rfl, rfl, rfl, rfl⟩

/-- The caller's commitments survive the wire: its filter is a parsed one. -/
theorem CallerCommits.delivered (h : CallerCommits c x) (hcar : Carries x msg) :
    CallerCommits c msg := by
  obtain ⟨packet, identity, hpacket, rfl⟩ := hcar.received
  obtain ⟨hreq, hid, hflow, hseq⟩ := packet_fields hpacket
  refine ⟨fun hi => hseq.trans (h.induction (hreq ▸ hi)), fun hc => ?_⟩
  have ho := h.conclusion (hreq ▸ hc)
  refine ⟨hid.trans ho.socketId, hflow.trans ho.flowWindow, ho.parameters, ho.congestion, ?_,
    ho.group⟩
  show x.packetFilter.bind _ = _
  rw [ho.packetFilter]
  exact bind_checkedFilter c.packetFilterConfiguration

/-- A response as it arrives: of the filter its text is left. -/
structure Heard (l : HandshakeMachine) (msg : HandshakeMessage) : Prop where
  socketId : msg.packet.socketId = l.configuration.localSocketId
  flowWindow : msg.packet.flowWindow = l.configuration.flowWindow
  initialSequence : msg.packet.initialSequence = l.negotiatedInitialSequence
  parameters : ∀ e ∈ msg.handshakeExtension, e.2 = l.responseExtensionParameters
  packetFilter : msg.packetFilter
    = (presentIf l.negotiatedPacketFilter.enabled l.negotiatedPacketFilter).bind
      fun f => (checkedFilter f.text).toOption
  group : msg.groupMembership = l.localGroupResponse

theorem Responds.delivered (h : Responds l x) (hcar : Carries x msg) : Heard l msg := by
  obtain ⟨packet, identity, hpacket, rfl⟩ := hcar.received
  obtain ⟨_, hid, hflow, hseq⟩ := packet_fields hpacket
  refine ⟨hid.trans h.socketId, hflow.trans h.flowWindow, hseq.trans h.initialSequence, ?_, ?_,
    h.group⟩
  · intro e he
    have he' : e ∈ x.handshakeExtension := he
    rw [h.parameters] at he'
    rw [← Option.mem_some_iff.1 he']
  show x.packetFilter.bind _ = _
  rw [h.packetFilter]

theorem request_delivered (hcar : Carries x msg) : msg.packet.request = x.packet.request := by
  obtain ⟨packet, identity, hpacket, rfl⟩ := hcar.received
  exact (packet_fields hpacket).1

end Delivery

/-! ## The caller -/

section Caller

variable {c : HandshakeConfiguration} {m m' l : HandshakeMachine} {msg : HandshakeMessage}

/-- The caller's step `r` keeps the invariant and sends only what its
configuration says. -/
structure CallerKeeps (c : HandshakeConfiguration) (l : HandshakeMachine)
    (r : HandshakeMachine × List HandshakeAction) : Prop where
  caller : Caller c r.1 l
  commits : ∀ x ∈ sentMessages r.2, CallerCommits c x

theorem commits_induction (h : Configured c m.configuration) :
    CallerCommits c { packet := m.basePacket .induction } := by
  obtain ⟨a, k, e, hconf⟩ := h
  refine ⟨fun _ => ?_, nofun⟩
  show m.configuration.initialSequence = _
  rw [hconf]

theorem commits_conclusion (h : Configured c m.configuration) :
    CallerCommits c m.conclusionRequest := by
  obtain ⟨a, k, e, hconf⟩ := h
  refine ⟨nofun, fun _ => ⟨?_, ?_, ?_, ?_, ?_, ?_⟩⟩
  all_goals simp only [conclusionRequest, basePacket, hconf]

theorem keeps_stay (h : Caller c m l) : CallerKeeps c l (m, []) where
  caller := h
  commits := by intro x hx; cases hx

/-- A caller that has given up promises nothing but its configuration. -/
theorem keeps_closed (hconf : Configured c r.1.configuration)
    (hseq : r.1.negotiatedInitialSequence = c.initialSequence)
    (hs : r.1.state = .rejected ∨ r.1.state = .failed) (hquiet : sentMessages r.2 = []) :
    CallerKeeps c l r where
  caller := by
    refine ⟨hconf, hseq, fun he => ?_, fun hc => ?_⟩
    · rcases hs with hs | hs <;> rw [hs] at he <;> cases he
    · rcases hs with hs | hs <;> rw [hs] at hc <;> cases hc
  commits := by
    intro x hx
    rw [hquiet] at hx
    cases hx

section

variable (h : Caller c m l)
include h

theorem keeps_fail : CallerKeeps c l m.fail :=
  keeps_closed h.configuration h.ownSequence (.inr rfl) rfl

theorem keeps_rejectLocally (reason : Nat) : CallerKeeps c l (m.rejectLocally reason) :=
  keeps_closed h.configuration h.ownSequence (.inl rfl) rfl

/-- A caller that goes on without having accepted anything. -/
theorem Caller.goOn (he : early m.state = true) (hconf : Configured c m'.configuration)
    (he' : early m'.state = true)
    (hseq : m'.negotiatedInitialSequence = m.negotiatedInitialSequence)
    (hfilter : m'.negotiatedPacketFilter = m.negotiatedPacketFilter)
    (hgroup : m'.peerGroupMembership = m.peerGroupMembership) : Caller c m' l := by
  refine ⟨hconf, hseq.trans h.ownSequence, fun _ => ?_, fun hc => ?_⟩
  · obtain ⟨hf, hg⟩ := h.untouched he
    exact ⟨hfilter.trans hf, hgroup.trans hg⟩
  rw [hc] at he'
  cases he'

theorem keeps_start : CallerKeeps c l m.start := by
  unfold start
  split
  · next hs =>
    have hidle : m.state = .idle := by
      simp only [startable, Bool.and_eq_true, beq_iff_eq] at hs
      exact hs.1.1.2
    refine ⟨h.goOn (by rw [hidle]; rfl) h.configuration rfl rfl rfl rfl, ?_⟩
    intro x hx
    obtain rfl : x = _ := by simpa [armTimer] using hx
    exact commits_induction h.configuration
  · exact keeps_fail h

theorem keeps_timeout (hrole : c.role = .caller) : CallerKeeps c l m.timeout := by
  have hr : m.configuration.role = .caller := by
    obtain ⟨a, k, e, hconf⟩ := h.configuration
    rw [hconf]
    exact hrole
  unfold timeout
  split
  · exact keeps_stay h
  split
  · exact keeps_fail h
  cases hs : m.state with
  | awaitingInductionResponse =>
    simp only [retryActions, hr]
    refine ⟨h.goOn (by rw [hs]; rfl) h.configuration rfl rfl rfl rfl, ?_⟩
    intro x hx
    obtain rfl : x = _ := by simpa [armTimer] using hx
    exact commits_induction h.configuration
  | awaitingConclusionResponse =>
    simp only [retryActions, hr]
    refine ⟨h.goOn (by rw [hs]; rfl) h.configuration rfl rfl rfl rfl, ?_⟩
    intro x hx
    obtain rfl : x = _ := by simpa [armTimer] using hx
    exact commits_conclusion h.configuration
  | _ =>
    simp only [retryActions, hr]
    exact keeps_closed h.configuration h.ownSequence (.inr rfl) rfl

theorem keeps_reject (hrole : m.configuration.role = .caller) (reason : Int) :
    CallerKeeps c l (m.reject reason) := by
  unfold reject
  rw [if_pos (.inl (by rw [hrole]; nofun))]
  exact keeps_fail h

theorem keeps_orUnchanged {r : Except Error HandshakeMachine}
    (hr : ∀ m', r = .ok m' → Caller c m' l) : CallerKeeps c l (orUnchanged m r) := by
  cases r with
  | error e => exact keeps_stay h
  | ok m' => exact keeps_stay (hr m' rfl)

theorem Caller.setSessionAuthentication {p : SessionAuthenticationParameters}
    (hm : m.setSessionAuthentication p = .ok m') : Caller c m' l := by
  obtain ⟨_, hs, rfl⟩ := setSessionAuthentication_ok hm
  have he : early m.state = true := by rcases hs with hs | hs <;> rw [hs] <;> rfl
  refine h.goOn he ?_ he rfl rfl rfl
  obtain ⟨a, k, e, hconf⟩ := h.configuration
  exact ⟨p, k, e, by rw [hconf]⟩

theorem Caller.setKeyMaterialRequest {request : Bytes} {field : Nat}
    (hm : m.setKeyMaterialRequest request field = .ok m') : Caller c m' l := by
  obtain ⟨_, hs, rfl⟩ := setKeyMaterialRequest_ok hm
  have he : early m.state = true := by rw [hs]; rfl
  refine h.goOn he ?_ he rfl rfl rfl
  obtain ⟨a, k, e, hconf⟩ := h.configuration
  exact ⟨a, request, field, by rw [hconf]⟩

theorem keeps_receiveInductionResponse (hs : m.state = .awaitingInductionResponse)
    (incoming : Handshake) : CallerKeeps c l (m.receiveInductionResponse incoming) := by
  unfold receiveInductionResponse
  split
  · exact keeps_rejectLocally h _
  split
  · exact keeps_rejectLocally h _
  refine ⟨h.goOn (by rw [hs]; rfl) h.configuration rfl rfl rfl rfl, ?_⟩
  intro x hx
  obtain rfl : x = _ := by simpa [armTimer] using hx
  exact commits_conclusion h.configuration

end

/-- The filter a caller takes out of a response is the listener's: an offer
was negotiated by both from the same two configurations, and without an
offer there is none on either side. -/
theorem applyFilter_eq (hrec : Recorded c l) (hheard : Heard l msg)
    (hown : m.configuration.packetFilterConfiguration = c.packetFilterConfiguration)
    (hnone : m.negotiatedPacketFilter = {}) (h : m.applyFilter msg = .ok f) :
    f = l.negotiatedPacketFilter := by
  simp only [applyFilter, hown, hnone] at h
  cases hoffer : c.packetFilterConfiguration.val.enabled with
  | false =>
    have hl := hrec.noFilter hoffer
    have hmsg : msg.packetFilter = none := by
      rw [hheard.packetFilter, hl]
      rfl
    rw [hmsg, hoffer] at h
    rw [hl]
    exact (Except.ok.inj h).symm
  | true =>
    have hneg := hrec.filter hoffer
    obtain ⟨response, hparse⟩ := negotiate_parses hoffer hneg
    split at h
    · rw [if_pos hoffer] at h
      cases h
    next answer hmsg =>
    rw [hheard.packetFilter, Option.bind_eq_some_iff] at hmsg
    obtain ⟨g, hg, hanswer⟩ := hmsg
    obtain rfl : l.negotiatedPacketFilter = g := by
      unfold presentIf at hg
      split at hg
      · exact Option.some.inj hg
      · cases hg
    have hchecked : checkedFilter l.negotiatedPacketFilter.text = .ok answer := by
      revert hanswer
      cases checkedFilter l.negotiatedPacketFilter.text with
      | error e => intro hc; cases hc
      | ok a => intro ha; rw [Option.some.inj ha]
    obtain rfl := parse_of_checkedFilter hparse hchecked
    split at h
    · cases h
    next f' happly =>
    split at h
    · obtain rfl := Except.ok.inj h
      exact applyPacketFilterResponse_eq hoffer hneg hparse happly
    · cases h

theorem applyFilter_of_checkResponse {p : HandshakeExtensionParameters}
    (h : m.checkResponse msg p = .ok f) : m.applyFilter msg = .ok f := by
  simp only [checkResponse, bind, Except.bind] at h
  repeat' split at h
  all_goals first | exact h | cases h

/-- A response without membership is accepted by an ungrouped caller
only, and the other way round. -/
theorem group_of_checkGroupResponse {p : HandshakeExtensionParameters}
    (h : m.checkGroupResponse msg p = .ok ()) :
    m.configuration.groupMembership = none → msg.groupMembership = none := by
  intro hnone
  simp only [checkGroupResponse, hnone, bind, Except.bind] at h
  repeat' split at h
  all_goals try cases h
  simp only [refuseUnless] at h
  split at h
  · next hmsg =>
    simp only [Bool.and_eq_true, Option.isNone_iff_eq_none] at hmsg
    exact hmsg.1
  · cases h

theorem Accepted.caller (h : Accepted c m l) (hid : m'.peerSocketId = m.peerSocketId)
    (hflow : m'.peerFlowWindow = m.peerFlowWindow)
    (hseq : m'.peerInitialSequence = m.peerInitialSequence)
    (hparameters : m'.peerExtensionParameters = m.peerExtensionParameters)
    (hfilter : m'.negotiatedPacketFilter = m.negotiatedPacketFilter)
    (hgroup : m'.peerGroupMembership = m.peerGroupMembership) : Accepted c m' l :=
  ⟨hid.trans h.socketId, hflow.trans h.flowWindow, hseq.trans h.initialSequence,
    hparameters.trans h.parameters, hfilter.trans h.filter, hgroup.trans h.group, h.recorded⟩

theorem keeps_connected (hconf : Configured c r.1.configuration)
    (hseq : r.1.negotiatedInitialSequence = c.initialSequence) (hl : early l.state = false)
    (ha : Accepted c r.1 l) (hs : r.1.state = .connected)
    (hcommits : ∀ x ∈ sentMessages r.2, CallerCommits c x) : CallerKeeps c l r := by
  refine ⟨⟨hconf, hseq, fun he => ?_, fun _ => ⟨hl, ha⟩⟩, hcommits⟩
  rw [hs] at he
  cases he

theorem keeps_confirmSession (hconf : Configured c m.configuration)
    (hseq : m.negotiatedInitialSequence = c.initialSequence) (hl : early l.state = false)
    (ha : Accepted c m l) (msg : HandshakeMessage) : CallerKeeps c l (m.confirmSession msg) := by
  simp only [confirmSession]
  split
  · exact keeps_closed hconf hseq (.inl rfl) rfl
  -- The two shapes of the machine behind the standby update.
  cases m.configuration.requireStandbyRtt
  all_goals
    simp only [Bool.false_eq_true, if_false, if_true]
    split
    · split
      · exact keeps_closed hconf hseq (.inl rfl) rfl
      refine keeps_connected hconf hseq hl (ha.caller rfl rfl rfl rfl rfl rfl) rfl ?_
      intro x hx
      obtain rfl : x = _ := by simpa using hx
      exact ⟨nofun, nofun⟩
    refine keeps_connected hconf hseq hl (ha.caller rfl rfl rfl rfl rfl rfl) rfl ?_
    intro x hx
    cases hx

theorem keeps_receiveConclusionResponse (h : Caller c m l) (he : early m.state = true)
    (hl : early l.state = false) (hrec : Recorded c l) (hheard : Heard l msg) :
    CallerKeeps c l (m.receiveConclusionResponse msg) := by
  obtain ⟨hfilter, hgroup⟩ := h.untouched he
  obtain ⟨a, k, e, hconf⟩ := h.configuration
  simp only [receiveConclusionResponse]
  split
  · exact keeps_rejectLocally h _
  split
  · exact keeps_rejectLocally h _
  next type parameters hext =>
  split
  · exact keeps_stay h
  split
  · exact keeps_rejectLocally h _
  next filter hresponse =>
  split
  · exact keeps_closed h.configuration h.ownSequence (.inl rfl) rfl
  next hcheck =>
  refine keeps_confirmSession ?_ ?_ hl
    ⟨hheard.socketId, hheard.flowWindow, hheard.initialSequence, ?_, ?_, ?_, hrec⟩ msg
  · exact h.configuration
  · exact h.ownSequence
  · show some parameters = _
    rw [← hheard.parameters _ hext]
  · exact applyFilter_eq hrec hheard (by rw [hconf]) hfilter
      (applyFilter_of_checkResponse hresponse)
  show (if m.configuration.groupMembership.isSome then msg.groupMembership
    else m.peerGroupMembership) = _
  split
  · exact hheard.group
  next hnone =>
  rw [hgroup, ← hheard.group]
  exact (group_of_checkGroupResponse hcheck (Option.not_isSome_iff_eq_none.1 hnone)).symm

theorem keeps_receive (h : Caller c m l) (hrole : m.configuration.role = .caller)
    (hmsg : msg.packet.request = .conclusion → early l.state = false ∧ Recorded c l ∧ Heard l msg) :
    CallerKeeps c l (m.receive msg) := by
  unfold receive
  split
  · exact keeps_fail h
  split
  · exact keeps_stay h
  split
  · exact keeps_rejectLocally h _
  rw [hrole]
  simp only [receiveCaller]
  split
  · exact keeps_stay h
  · split
    · exact keeps_receiveInductionResponse h ‹_› _
    · exact keeps_fail h
  · next hs hreq =>
    obtain ⟨hl, hrec, hheard⟩ := hmsg hreq
    split
    · exact keeps_receiveConclusionResponse h (by rw [hs]; rfl) hl hrec hheard
    · exact keeps_fail h
  · exact keeps_fail h

end Caller

/-! ## The listener -/

section Listener

variable {c l : HandshakeConfiguration} {m : HandshakeMachine} {msg : HandshakeMessage}
  {sent : List HandshakeMessage}

/-- The listener's step `r` keeps the invariant, and behind its answer it
changes the course of the connection only. -/
structure ListenerKeeps (c l : HandshakeConfiguration) (m : HandshakeMachine)
    (sent : List HandshakeMessage) (r : HandshakeMachine × List HandshakeAction) : Prop where
  listener : Listener c l r.1 (sent ++ sentMessages r.2)
  frozen : early m.state = false → Frozen m r.1 ∧ early r.1.state = false

variable {r : HandshakeMachine × List HandshakeAction}

section

variable (h : Listener c l m sent)
include h

/-- A step behind the answer: nothing recorded changes, and every response it
sends comes from what is recorded. -/
theorem Listener.late (hf : Frozen m r.1) (he' : early r.1.state = false)
    (hs : r.1.state = .awaitingAuthenticationConfirmation ∨ r.1.state = .connected → m.state =
      .awaitingAuthenticationConfirmation ∨ m.state = .connected)
    (hcommits : ∀ x ∈ sentMessages r.2, x.packet.request = .conclusion → Recorded c m ∧ Responds m
      x) : ListenerKeeps c l m sent r := by
  have hconf : r.1.configuration = m.configuration := by
    obtain ⟨_, _, _, heq⟩ := hf
    rw [heq]
  have hchallenge : r.1.sessionChallenge = m.sessionChallenge := by
    obtain ⟨_, _, _, heq⟩ := hf
    rw [heq]
  refine ⟨⟨hconf.trans h.configuration, ?_, ?_, ?_, ?_, ?_⟩, fun _ => ⟨hf, he'⟩⟩
  · intro hc
    rw [he'] at hc
    cases hc
  · intro hc
    rw [hc] at he'
    cases he'
  · intro hc
    exact (h.answered (hs hc)).frozen hf
  · intro x hx
    rw [hchallenge] at hx
    obtain ⟨_, hrec, hres⟩ := h.challenge x hx
    exact ⟨he', hrec.frozen hf, hres.frozen hf⟩
  intro x hx hreq
  rcases List.mem_append.1 hx with hx | hx
  · obtain ⟨_, hrec, hres⟩ := h.commits x hx hreq
    exact ⟨he', hrec.frozen hf, hres.frozen hf⟩
  obtain ⟨hrec, hres⟩ := hcommits x hx hreq
  exact ⟨he', hrec.frozen hf, hres.frozen hf⟩

/-- Before the answer there is no response anywhere. -/
theorem Listener.silent (he : early m.state = true) :
    m.sessionChallenge = none ∧ ∀ x ∈ sent, x.packet.request ≠ .conclusion := by
  constructor
  · cases hc : m.sessionChallenge with
    | none => rfl
    | some x =>
      have := (h.challenge x hc).1
      rw [he] at this
      cases this
  intro x hx hreq
  have := (h.commits x hx hreq).1
  rw [he] at this
  cases this

/-- A step before the answer that does not give one either. -/
theorem Listener.goOn (he : early m.state = true) (hconf : r.1.configuration = m.configuration)
    (hchallenge : r.1.sessionChallenge = m.sessionChallenge)
    (hfilter : early r.1.state = true → r.1.negotiatedPacketFilter = {})
    (hwaiting : r.1.state = .awaitingConclusionResponse → r.1.negotiatedInitialSequence =
      c.initialSequence ∧ r.1.peerInitialSequence = c.initialSequence)
    (hs : r.1.state ≠ .awaitingAuthenticationConfirmation ∧ r.1.state ≠ .connected)
    (hsilent : ∀ x ∈ sentMessages r.2, x.packet.request ≠ .conclusion) :
    ListenerKeeps c l m sent r := by
  obtain ⟨hnone, hold⟩ := h.silent he
  refine ⟨⟨hconf.trans h.configuration, hfilter, hwaiting, ?_, ?_, ?_⟩, ?_⟩
  · rintro (hc | hc)
    · exact absurd hc hs.1
    · exact absurd hc hs.2
  · intro x hx
    rw [hchallenge, hnone] at hx
    cases hx
  · intro x hx hreq
    rcases List.mem_append.1 hx with hx | hx
    · exact absurd hreq (hold x hx)
    · exact absurd hreq (hsilent x hx)
  intro hc
  rw [he] at hc
  cases hc

theorem Listener.closed (hf : Frozen m r.1) (hs : r.1.state = .rejected ∨ r.1.state = .failed)
    (hsilent : ∀ x ∈ sentMessages r.2, x.packet.request ≠ .conclusion) :
    ListenerKeeps c l m sent r := by
  have hlate : early r.1.state = false := by rcases hs with hs | hs <;> rw [hs] <;> rfl
  have hidle : r.1.state ≠ .awaitingAuthenticationConfirmation ∧ r.1.state ≠ .connected := by
    rcases hs with hs | hs <;> rw [hs] <;> exact ⟨nofun, nofun⟩
  cases he : early m.state with
  | false =>
    refine h.late hf hlate ?_ (fun x hx hreq => absurd hreq (hsilent x hx))
    rintro (hc | hc)
    · exact absurd hc hidle.1
    · exact absurd hc hidle.2
  | true =>
    obtain ⟨_, _, _, heq⟩ := hf
    refine h.goOn he (by rw [heq]) (by rw [heq]) ?_ ?_ hidle hsilent
    · intro hc
      rw [hlate] at hc
      cases hc
    intro hc
    rw [hc] at hlate
    cases hlate

theorem listener_fail : ListenerKeeps c l m sent m.fail :=
  h.closed ⟨_, _, _, rfl⟩ (.inr rfl) (by intro x hx; cases hx)

theorem listener_rejectLocally (reason : Nat) : ListenerKeeps c l m sent (m.rejectLocally reason) :=
  h.closed ⟨_, _, _, rfl⟩ (.inl rfl) (by intro x hx; cases hx)

theorem listener_reject (reason : Int) : ListenerKeeps c l m sent (m.reject reason) := by
  unfold HandshakeMachine.reject
  split
  · exact listener_fail h
  refine h.closed ⟨_, _, _, rfl⟩ (.inl rfl) ?_
  intro x hx
  obtain rfl : x = _ := by simpa using hx
  nofun

theorem Listener.stay {actions : List HandshakeAction}
    (hcommits : ∀ x ∈ sentMessages actions, x.packet.request = .conclusion → early m.state = false
      ∧ Recorded c m ∧ Responds m x) : ListenerKeeps c l m sent (m, actions) := by
  refine ⟨⟨h.configuration, h.noFilter, h.waiting, h.answered, h.challenge, ?_⟩,
    fun he => ⟨⟨_, _, _, rfl⟩, he⟩⟩
  intro x hx hreq
  rcases List.mem_append.1 hx with hx | hx
  · exact h.commits x hx hreq
  · exact hcommits x hx hreq

theorem listener_stay : ListenerKeeps c l m sent (m, []) := h.stay (by intro x hx; cases hx)

end

theorem mem_challenge {ch : Option HandshakeMessage} (rest : List HandshakeAction)
    (hrest : sentMessages rest = []) {x : HandshakeMessage}
    (hx : x ∈ sentMessages ((ch.map HandshakeAction.send).toList ++ rest)) : x ∈ ch := by
  cases ch with
  | none =>
    change x ∈ sentMessages rest at hx
    rw [hrest] at hx
    cases hx
  | some y =>
    change x ∈ y :: sentMessages rest at hx
    rw [hrest, List.mem_singleton] at hx
    rw [hx]
    rfl

theorem listener_timeout (h : Listener c l m sent) (hrole : m.configuration.role = .listener) :
    ListenerKeeps c l m sent m.timeout := by
  unfold timeout
  split
  · exact listener_stay h
  split
  · exact listener_fail h
  -- Two states repeat something, the others give up.
  cases hs : m.state with
  | awaitingConclusionResponse =>
    simp only [retryActions, hrole]
    refine h.goOn (by rw [hs]; rfl) rfl rfl (fun _ => h.noFilter (by rw [hs]; rfl))
      (fun _ => h.waiting hs) ⟨nofun, nofun⟩ ?_
    intro x hx
    obtain rfl : x = _ := by simpa [armTimer] using hx
    nofun
  | awaitingAuthenticationConfirmation =>
    simp only [retryActions, hrole]
    refine h.late ⟨_, _, _, rfl⟩ rfl (fun _ => .inl hs) ?_
    intro x hx _
    exact (h.challenge x (mem_challenge _ rfl hx)).2
  | _ =>
    simp only [retryActions, hrole]
    refine h.closed ⟨_, _, _, rfl⟩ (.inr rfl) ?_
    intro x hx
    cases hx

theorem listener_receiveConfirmation (h : Listener c l m sent)
    (hs : m.state = .awaitingAuthenticationConfirmation) (msg : HandshakeMessage) :
    ListenerKeeps c l m sent (m.receiveConfirmation msg) := by
  simp only [receiveConfirmation]
  split
  · exact listener_stay h
  split
  · refine h.late ⟨_, _, _, rfl⟩ rfl (fun _ => .inl hs) ?_
    intro x hx _
    exact (h.challenge x (mem_challenge _ rfl hx)).2
  split
  · refine h.stay ?_
    intro x hx _
    refine h.challenge x (mem_challenge [] rfl ?_)
    rw [List.append_nil]
    exact hx
  · exact listener_stay h

theorem listener_receiveInduction (h : Listener c l m sent) (hs : m.state = .idle)
    {incoming : Handshake} (hseq : incoming.initialSequence = c.initialSequence) :
    ListenerKeeps c l m sent (m.receiveInduction incoming) := by
  have he : early m.state = true := by rw [hs]; rfl
  simp only [receiveInduction]
  split
  · exact listener_fail h
  split
  · exact listener_fail h
  split
  · refine h.goOn he rfl rfl nofun nofun ⟨nofun, nofun⟩ ?_
    intro x hx
    cases hx
  refine h.goOn he rfl rfl (fun _ => h.noFilter he) (fun _ => ⟨hseq, hseq⟩) ⟨nofun, nofun⟩ ?_
  intro x hx
  obtain rfl : x = _ := by simpa [armTimer] using hx
  nofun

theorem checkConclusion_ok (h : m.checkConclusion msg = .ok f) :
    msg.congestion.getD .live = m.configuration.congestionController
    ∧ m.negotiateFilter msg = .ok f := by
  simp only [checkConclusion, bind, Except.bind] at h
  split at h
  · cases h
  split at h
  · cases h
  repeat' split at h
  all_goals try cases h
  next hcc =>
  simp only [refuseUnless] at hcc
  split at hcc
  · next heq => exact ⟨beq_iff_eq.1 heq, h⟩
  · cases hcc

/-- What a listener stores as filter: the negotiated one for an offer, and
nothing new without one. -/
theorem negotiateFilter_ok (ho : Offers c msg) (h : m.negotiateFilter msg = .ok f) :
    (c.packetFilterConfiguration.val.enabled = true →
      negotiatePacketFilterConfiguration m.configuration.packetFilterConfiguration.val
        c.packetFilterConfiguration.val false = .ok f)
    ∧ (c.packetFilterConfiguration.val.enabled = false → f = m.negotiatedPacketFilter) := by
  simp only [negotiateFilter, ho.packetFilter, presentIf] at h
  cases hoffer : c.packetFilterConfiguration.val.enabled with
  | false =>
    refine ⟨nofun, fun _ => ?_⟩
    rw [hoffer] at h
    simp only [Bool.false_eq_true, if_false] at h
    split at h
    · cases h
    · exact (Except.ok.inj h).symm
  | true =>
    refine ⟨fun _ => ?_, nofun⟩
    rw [hoffer] at h
    simp only [if_true] at h
    repeat' split at h
    all_goals try cases h
    assumption

theorem answerGroup_type {answer : Option (GroupMembership × Option MulticastDispatch)}
    (h : m.answerGroup msg = .ok answer) :
    (answer.map Prod.fst).map GroupMembership.type
      = msg.groupMembership.map GroupMembership.type := by
  simp only [answerGroup] at h
  split at h
  · next hnone =>
    obtain rfl := Except.ok.inj h
    rw [hnone]
    rfl
  next peer hpeer =>
  split at h
  · cases h
  next a ha =>
  obtain rfl := Except.ok.inj h
  simp only [negotiateGroup] at ha
  repeat' split at ha
  all_goals try cases ha
  next hvalid _ _ _ =>
  simp only [not_or, not_not] at hvalid
  rw [hpeer]
  exact congrArg some hvalid.2

/-- The first response comes from the members the listener has just
written. -/
theorem responds_firstResponse (ho : Offers c msg) : Responds m (m.firstResponse msg) := by
  refine ⟨rfl, rfl, rfl, ?_, rfl, rfl⟩
  show msg.handshakeExtension.map _ = _
  rw [ho.parameters]
  rfl

/-- The step that gives the answer. -/
theorem Listener.answer (h : Listener c l m sent) (he : early m.state = true)
    (hconf : r.1.configuration = m.configuration) (hlate : early r.1.state = false)
    (hrec : Recorded c r.1) (hchallenge : ∀ x ∈ r.1.sessionChallenge, Responds r.1 x)
    (hout : ∀ x ∈ sentMessages r.2, Responds r.1 x) : ListenerKeeps c l m sent r := by
  obtain ⟨_, hold⟩ := h.silent he
  refine ⟨⟨hconf.trans h.configuration, ?_, ?_, fun _ => hrec, ?_, ?_⟩, ?_⟩
  · intro hc
    rw [hlate] at hc
    cases hc
  · intro hc
    rw [hc] at hlate
    cases hlate
  · intro x hx
    exact ⟨hlate, hrec, hchallenge x hx⟩
  · intro x hx hreq
    rcases List.mem_append.1 hx with hx | hx
    · exact absurd hreq (hold x hx)
    · exact ⟨hlate, hrec, hout x hx⟩
  intro hc
  rw [he] at hc
  cases hc

section

variable (h : Listener c l m sent) (he : early m.state = true) {m' : HandshakeMachine}
  (hconf : m'.configuration = m.configuration)
  (hchallenge : m'.sessionChallenge = m.sessionChallenge)
include h he hconf hchallenge

theorem listener_answerConclusion (ho : Offers c msg) (hrec : Recorded c m') :
    ListenerKeeps c l m sent (m'.answerConclusion msg) := by
  have hres := responds_firstResponse (m := m') ho
  have hnone : m'.sessionChallenge = none := hchallenge.trans (h.silent he).1
  simp only [answerConclusion]
  split
  · refine h.answer he hconf rfl ⟨hrec.socketId, hrec.flowWindow, hrec.negotiatedSequence,
      hrec.peerSequence, hrec.parameters, hrec.controller, hrec.filter, hrec.noFilter,
      hrec.group, hrec.answer⟩ ?_ ?_
    · intro x hx
      obtain rfl := Option.mem_some_iff.1 hx
      exact ⟨rfl, rfl, rfl, hres.parameters, rfl, rfl⟩
    intro x hx
    obtain rfl : x = _ := by simpa [armTimer] using hx
    exact ⟨rfl, rfl, rfl, hres.parameters, rfl, rfl⟩
  refine h.answer he hconf rfl (hrec.frozen ⟨_, _, _, rfl⟩) ?_ ?_
  · intro x hx
    rw [show m'.sessionChallenge = none from hnone] at hx
    cases hx
  intro x hx
  obtain rfl : x = _ := by simpa using hx
  exact hres.frozen ⟨_, _, _, rfl⟩

/-- A rejection behind some writes, before any answer. -/
theorem listener_rejectEarly (reason : Int) : ListenerKeeps c l m sent (m'.reject reason) := by
  unfold HandshakeMachine.reject
  split
  · refine h.goOn he hconf hchallenge nofun nofun ⟨nofun, nofun⟩ ?_
    intro x hx
    cases hx
  refine h.goOn he hconf hchallenge nofun nofun ⟨nofun, nofun⟩ ?_
  intro x hx
  obtain rfl : x = _ := by simpa using hx
  nofun

end

section

variable (h : Listener c l m sent)
include h

theorem listener_receiveConclusion (hs : m.state = .awaitingConclusionResponse)
    (ho : Offers c msg) :
    ListenerKeeps c l m sent (m.receiveConclusion msg) := by
  have he : early m.state = true := by rw [hs]; rfl
  simp only [receiveConclusion]
  split
  · exact listener_reject h _
  next f hcheck =>
  obtain ⟨hcc, hfilter⟩ := checkConclusion_ok hcheck
  obtain ⟨hnegotiated, hnone⟩ := negotiateFilter_ok ho hfilter
  split
  · -- The group is refused behind the writes of filter and stream id.
    exact listener_rejectEarly h he (by rfl) (by rfl) _
  next answer hgroup =>
  obtain ⟨hseq, hpeer⟩ := h.waiting hs
  refine listener_answerConclusion h he rfl rfl ho ⟨ho.socketId, ho.flowWindow, hseq, hpeer,
    ?_, ?_, hnegotiated, ?_, ho.group, ?_⟩
  · show msg.handshakeExtension.map Prod.snd = _
    rw [ho.parameters]
    rfl
  · rw [ho.congestion, controllerExtension_getD] at hcc
    exact hcc.symm
  · intro hoff
    exact (hnone hoff).trans (h.noFilter he)
  · exact (answerGroup_type hgroup).trans (congrArg _ ho.group)

theorem listener_repeatConclusion (hs : m.state = .connected) (ho : Offers c msg) :
    ListenerKeeps c l m sent (m.repeatConclusion msg) := by
  simp only [repeatConclusion]
  split
  · exact listener_stay h
  refine h.stay ?_
  intro x hx _
  obtain rfl : x = _ := by simpa using hx
  refine ⟨by rw [hs]; rfl, h.answered (.inr hs), rfl, rfl, rfl, ?_, rfl, rfl⟩
  show msg.handshakeExtension.map _ = _
  rw [ho.parameters]
  rfl

theorem listener_receive (hrole : m.configuration.role = .listener) (hmsg : CallerCommits c msg) :
    ListenerKeeps c l m sent (m.receive msg) := by
  unfold receive
  split
  · exact listener_fail h
  split
  · exact listener_stay h
  split
  · exact listener_rejectLocally h _
  rw [hrole]
  simp only [receiveListener]
  split
  · exact listener_receiveConfirmation h ‹_› msg
  · next hs hreq => exact listener_receiveInduction h hs (hmsg.induction hreq)
  · next hs hreq =>
    split
    · exact listener_receiveConclusion h hs (hmsg.conclusion hreq)
    · exact listener_fail h
  · next hs hreq =>
    split
    · exact listener_repeatConclusion h hs (hmsg.conclusion hreq)
    · exact listener_fail h
  · exact listener_fail h

theorem listener_perform (hrole : m.configuration.role = .listener) (e : Operation) :
    ListenerKeeps c l m sent (perform m e) := by
  cases e with
  | start =>
    have hno : m.startable = false := by simp [startable, hrole]
    simp only [perform, start, hno]
    exact listener_fail h
  | timeout => exact listener_timeout h hrole
  | reject reason => exact listener_reject h reason
  | setSessionAuthentication p =>
    simp only [perform, orUnchanged]
    split
    · next m' hm =>
      have := (setSessionAuthentication_ok hm).1
      rw [hrole] at this
      cases this
    · exact listener_stay h
  | setKeyMaterialRequest r f =>
    simp only [perform, orUnchanged]
    split
    · next m' hm =>
      have := (setKeyMaterialRequest_ok hm).1
      rw [hrole] at this
      cases this
    · exact listener_stay h

end

end Listener

/-! ## Runs -/

section Runs

variable {c l : HandshakeConfiguration}

/-- The invariant of a caller at end `false` and a listener at end `true`. -/
structure Joint (c l : HandshakeConfiguration)
    (s : Lts.Duplex HandshakeMachine HandshakeMessage) : Prop where
  caller : Caller c (s.peer false) (s.peer true)
  offers : ∀ x ∈ s.sent false, CallerCommits c x
  listener : Listener c l (s.peer true) (s.sent true)

section

variable {m l : HandshakeMachine} (h : Caller c m l) (hrole : c.role = .caller)
include h hrole

theorem Caller.role : m.configuration.role = .caller := by
  obtain ⟨a, k, e, hconf⟩ := h.configuration
  rw [hconf]
  exact hrole

theorem caller_perform (e : Operation) : CallerKeeps c l (perform m e) := by
  cases e with
  | start => exact keeps_start h
  | timeout => exact keeps_timeout h hrole
  | reject reason => exact keeps_reject h (h.role hrole) reason
  | setSessionAuthentication p =>
    exact keeps_orUnchanged h fun _ hm => h.setSessionAuthentication hm
  | setKeyMaterialRequest r f =>
    exact keeps_orUnchanged h fun _ hm => h.setKeyMaterialRequest hm

end

variable {s : Lts.Duplex HandshakeMachine HandshakeMessage}

theorem joint_caller (h : Joint c l s) (hr : CallerKeeps c (s.peer true) r) :
    Joint c l (s.put false (r.1, sentMessages r.2)) := by
  have hpeer := s.put_peer_other false (r.1, sentMessages r.2)
  have hsent := s.put_sent_other false (r.1, sentMessages r.2)
  rw [Bool.not_false] at hpeer hsent
  refine ⟨?_, ?_, ?_⟩
  · rw [s.put_peer_self, hpeer]
    exact hr.caller
  · intro x hx
    rw [s.put_sent_self, List.mem_append] at hx
    rcases hx with hx | hx
    · exact h.offers x hx
    · exact hr.commits x hx
  rw [hpeer, hsent]
  exact h.listener

/-- A step of the listener: a connected caller has its answer already. -/
theorem joint_listener (h : Joint c l s) (hr : ListenerKeeps c l (s.peer true) (s.sent true) r) :
    Joint c l (s.put true (r.1, sentMessages r.2)) := by
  have hpeer := s.put_peer_other true (r.1, sentMessages r.2)
  have hsent := s.put_sent_other true (r.1, sentMessages r.2)
  rw [Bool.not_true] at hpeer hsent
  refine ⟨?_, ?_, ?_⟩
  · rw [s.put_peer_self, hpeer]
    have hc := h.caller
    refine ⟨hc.configuration, hc.ownSequence, hc.untouched, fun hs => ?_⟩
    obtain ⟨hlate, ha⟩ := hc.connected hs
    obtain ⟨hf, hlate'⟩ := hr.frozen hlate
    exact ⟨hlate', ha.frozen hf⟩
  · rw [hsent]
    exact h.offers
  rw [s.put_peer_self, s.put_sent_self]
  exact hr.listener

theorem joint_init (c l : HandshakeConfiguration) :
    Joint c l ⟨fun i => ofConfiguration (bif i then l else c), fun _ => []⟩ where
  caller := ⟨⟨_, _, _, rfl⟩, rfl, fun _ => ⟨rfl, rfl⟩, nofun⟩
  offers := by intro x hx; cases hx
  listener := by
    refine ⟨rfl, fun _ => rfl, nofun, ?_, ?_, ?_⟩
    · rintro (h | h) <;> cases h
    · intro x hx
      cases hx
    intro x hx
    cases hx

theorem joint_of_reachable (hc : c.role = .caller) (hl : l.role = .listener)
    (h : Lts.Reachable (pair c l) s) : Joint c l s := by
  have hrole : ∀ {s}, Joint c l s → (s.peer true).configuration.role = .listener := by
    intro s hs
    rw [hs.listener.configuration]
    exact hl
  refine Lts.Duplex.invariant (joint_init c l) ?_ ?_ h
  · intro s i e hs _
    cases i with
    | false => exact joint_caller hs (caller_perform hs.caller hc e)
    | true => exact joint_listener hs (listener_perform hs.listener (hrole hs) e)
  intro s i x msg hs _ hx hcar
  cases i with
  | false =>
    refine joint_caller hs (keeps_receive hs.caller (hs.caller.role hc) fun hreq => ?_)
    obtain ⟨hlate, hrec, hres⟩ :=
      hs.listener.commits x hx ((request_delivered hcar).symm.trans hreq)
    exact ⟨hlate, hrec, hres.delivered hcar⟩
  | true =>
    exact joint_listener hs (listener_receive hs.listener (hrole hs)
      ((hs.offers x hx).delivered hcar))

end Runs

/-! ## The agreement -/

/-- What a connected caller and a connected listener share.  Each side's own
values are those of its configuration. -/
structure Agree (caller listener : HandshakeMachine) : Prop where
  callerKnows : caller.peerSocketId = listener.configuration.localSocketId
    ∧ caller.peerFlowWindow = listener.configuration.flowWindow
  listenerKnows : listener.peerSocketId = caller.configuration.localSocketId
    ∧ listener.peerFlowWindow = caller.configuration.flowWindow
  callerSequence : caller.negotiatedInitialSequence = caller.configuration.initialSequence
    ∧ caller.peerInitialSequence = caller.configuration.initialSequence
  listenerSequence : listener.negotiatedInitialSequence = caller.configuration.initialSequence
    ∧ listener.peerInitialSequence = caller.configuration.initialSequence
  controller : caller.configuration.congestionController
    = listener.configuration.congestionController
  filter : caller.negotiatedPacketFilter = listener.negotiatedPacketFilter
  /-- Present on both or neither, and of one type. -/
  group : caller.peerGroupMembership.map GroupMembership.type
    = listener.peerGroupMembership.map GroupMembership.type
  liveOptions : ∃ response request,
    caller.peerExtensionParameters = some response
    ∧ listener.peerExtensionParameters = some request
    ∧ (negotiateLiveOptions caller.configuration.extensionParameters response).Mirror
      (negotiateLiveOptions listener.configuration.extensionParameters request)

theorem Accepted.agree {c : HandshakeConfiguration} {m l : HandshakeMachine}
    (h : Accepted c m l) (hm : Caller c m l) : Agree m l := by
  obtain ⟨a, k, e, hconf⟩ := hm.configuration
  have hrec := h.recorded
  have hparameters : m.peerExtensionParameters = some (composeResponse
      l.configuration.extensionParameters (some c.extensionParameters)) := by
    rw [h.parameters, responseExtensionParameters, hrec.parameters]
  refine ⟨⟨h.socketId, h.flowWindow⟩, ?_, ?_, ?_, ?_, h.filter, ?_,
    _, _, hparameters, hrec.parameters, ?_⟩
  · rw [hconf]
    exact ⟨hrec.socketId, hrec.flowWindow⟩
  · rw [hconf]
    exact ⟨hm.ownSequence, h.initialSequence.trans hrec.negotiatedSequence⟩
  · rw [hconf]
    exact ⟨hrec.negotiatedSequence, hrec.peerSequence⟩
  · rw [hconf]
    exact hrec.controller.symm
  · rw [h.group, hrec.group]
    exact hrec.answer
  rw [hconf]
  exact negotiateLiveOptions_mirror _ _

/-- Whatever the network does with the datagrams of a caller and a listener,
and whatever their owners do with the two machines: once both are connected
they agree.  The listener answers before the caller can be connected, so the
caller's state alone decides. -/
theorem caller_listener_agree {c l : HandshakeConfiguration} (hc : c.role = .caller)
    (hl : l.role = .listener) {s : Lts.Duplex HandshakeMachine HandshakeMessage}
    (h : Lts.Reachable (pair c l) s) (hcaller : (s.peer false).state = .connected) :
    Agree (s.peer false) (s.peer true) := by
  have hI := joint_of_reachable hc hl h
  exact (hI.caller.connected hcaller).2.agree hI.caller

/-! A grouped caller with its own delays, and a listener that answers with a
group of its own. -/

def exampleCaller : HandshakeConfiguration :=
  { localSocketId := 11
    initialSequence := SequenceNumber.ofNat 77
    flowWindow := 8192
    extensionParameters := { receiverTsbpdDelayMilliseconds := 300 }
    groupMembership := some { groupId := groupHandleMask ||| 5, type := .backup } }

def exampleListener : HandshakeConfiguration :=
  { role := .listener
    localSocketId := 22
    groupMembershipNegotiator := some fun g => some { g with groupId := groupHandleMask ||| 9 }
    cookieGenerator := some fun _ => 4711 }

def exampleStart : Lts.Duplex HandshakeMachine HandshakeMessage :=
  ⟨fun i => ofConfiguration (bif i then exampleListener else exampleCaller), fun _ => []⟩

/-- INDUCTION twice, its answer, CONCLUSION and its answer. -/
def exampleRun : List (Lts.Script Operation) :=
  [.act false .start, .act false .timeout, .deliver true 1, .deliver false 0, .deliver true 2,
    .deliver false 1]

theorem caller_listener_agree_exampleRun :
    ∃ s, Lts.Reachable (pair exampleCaller exampleListener) s
    ∧ (s.peer false).state = .connected ∧ (s.peer true).state = .connected
    ∧ Agree (s.peer false) (s.peer true) := by
  have hrun : (endpoint.exec transmit (fun _ _ => true) exampleStart exampleRun).map
      (fun s => ((s.peer false).state, (s.peer true).state))
      = some (.connected, .connected) := by decide +kernel
  obtain ⟨s, hs, hconn⟩ := Option.map_eq_some_iff.1 hrun
  have hreach : Lts.Reachable (pair exampleCaller exampleListener) s :=
    (Lts.Endpoint.exec_reaches carries_of_transmit (.start rfl) hs).mono fun _ _ _ => trivial
  have hcaller : (s.peer false).state = .connected := congrArg Prod.fst hconn
  have hlistener : (s.peer true).state = .connected := congrArg Prod.snd hconn
  exact ⟨s, hreach, hcaller, hlistener, caller_listener_agree rfl rfl hreach hcaller⟩

end Srt.CallerListener
