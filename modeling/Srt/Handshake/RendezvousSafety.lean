/-
# `RendezvousSafety` — which deliveries break a rendezvous

A machine that has left `attention` treats a WAVEAHAND as an unexpected
message and fails, although the peer may really have sent it: every peer
starts by waving, and the network may hold that datagram back for as long as
it likes.  `staleWave_fails` is such a run, of two compatible peers.

That is the only way.  In every run in which no WAVEAHAND reaches a machine
in `fine`, `initiated` or `connected`, neither machine fails or is rejected
(`rendezvous_never_breaks`).
-/
import Srt.Handshake.RendezvousAgreement

namespace Srt.Rendezvous

open RendezvousHandshakeMachine HandshakeMessage

/-- The filter the initiator's offer settles, whichever side that is. -/
def agreedFilter (c d : RendezvousConfiguration) : PacketFilterConfiguration :=
  if roleOf c d = .responder then settledFilter c d else settledFilter d c

/-- `c` can connect to a peer with `d`: it passes the checks of `start`, and
it accepts what such a peer offers. -/
structure CompatibleWith (c d : RendezvousConfiguration) : Prop where
  cookie : c.localCookie ≠ d.localCookie
  startable : startable { configuration := c } = true
  version : classifyHsv5PeerVersion d.extensionParameters.srtVersion
    c.minimumPeerSrtVersion = .compatible
  mode : compatibleTransmissionMode c.extensionParameters d.extensionParameters = true
  controller : c.congestionController = d.congestionController
  /-- The control profile examines no filter. -/
  control : c.congestionController = .control → c.packetFilterConfiguration.val.enabled = false
  filter : roleOf c d = .responder → d.packetFilterConfiguration.val.enabled = true →
    negotiatePacketFilterConfiguration c.packetFilterConfiguration.val
      d.packetFilterConfiguration.val true = .ok (settledFilter c d)
  capacity : c.receiveCapacityPackets ≠ 0 →
    fecGeometryFitsReceiveCapacity (agreedFilter c d) c.receiveCapacityPackets = true

/-- Two configurations that can connect to each other. -/
def Compatible (c : Bool → RendezvousConfiguration) : Prop :=
  ∀ i, CompatibleWith (c i) (c !i)

/-- What the runtime and a faithful network may do: a machine is started
once and gets datagrams and timeouts only after that, a timeout comes within
the retry limit, and a packet of an established connection reaches a machine
only once its peer is connected. -/
def faithful (s : Lts.Duplex Peer HandshakeMessage) :
    Lts.DuplexEvent HandshakeMessage Operation → Bool
  | .act i .start => (s.peer i).machine.state == .idle
  | .act i .timeout => (s.peer i).machine.state != .idle
      && decide ((s.peer i).machine.retryCount < (s.peer i).machine.configuration.maximumRetries)
  | .act i .noteConnectedPacket => (s.peer !i).machine.state == .connected
  | .deliver i _ _ => (s.peer i).machine.state != .idle

/-- The condition the source needs on top: no WAVEAHAND for a machine that
has left `attention`. -/
def noStaleWave (s : Lts.Duplex Peer HandshakeMessage) :
    Lts.DuplexEvent HandshakeMessage Operation → Bool
  | .deliver i _ msg =>
    !(msg.packet.request == .waveAHand && settled (s.peer i).machine.state)
  | .act _ _ => true

/-! ## Messages of an unbroken machine -/

/-- A plain build's configuration that passes `start`. -/
structure Plain (c : RendezvousConfiguration) : Prop where
  authentication : c.requireSessionAuthentication = false
  group : c.groupMembership = none
  path : c.requirePathIdentifier = false
  standby : c.requireStandbyRtt = false
  socketId : c.localSocketId ≠ 0
  cookie : c.localCookie ≠ 0

theorem plain_of_startable {c : RendezvousConfiguration}
    (h : startable { configuration := c } = true) : Plain c := by
  simp only [startable, Bool.and_eq_true, Bool.not_eq_true', Option.isNone_iff_eq_none,
    bne_iff_ne, ne_eq] at h
  obtain ⟨⟨⟨⟨⟨⟨⟨⟨⟨⟨h1, h2⟩, _⟩, h3⟩, h4⟩, _⟩, _⟩, _⟩, h5⟩, _⟩, h6⟩ := h
  exact ⟨h1, h2, h5, h6, h3, h4⟩

/-- The four kinds of message, with what the last two tell about the
sender. -/
inductive Kind (c d : RendezvousConfiguration) (p : Peer) (msg : HandshakeMessage) : Prop
  | wave : msg.packet.request = .waveAHand → msg.handshakeExtension = none → Kind c d p msg
  | extended : msg.packet.request = .conclusion → msg.handshakeExtension.isSome →
      msg.congestion = controllerExtension c.congestionController → Kind c d p msg
  | empty : msg.packet.request = .conclusion → msg.handshakeExtension = none →
      roleOf c d = .responder → Kind c d p msg
  | agreement : msg.packet.request = .agreement → msg.handshakeExtension = none →
      p.machine.state = .connected → Kind c d p msg

structure Sound (c d : RendezvousConfiguration) (p : Peer) (msg : HandshakeMessage) :
    Prop where
  version : msg.packet.version = handshakeVersion5
  path : msg.pathIdentifier = none
  group : msg.groupMembership = none
  standby : msg.standbyRtt = none
  authentication : msg.sessionAuthentication = none
  filter : msg.handshakeExtension = none → msg.packetFilter = none
  kind : Kind c d p msg

section Step

variable {c d : RendezvousConfiguration} {p q : Peer} {sent sent' : List HandshakeMessage}

variable {msg : HandshakeMessage}

theorem Sound.mono {p' : Peer} (h : Sound c d p msg)
    (hstate : p.machine.state = .connected → p'.machine.state = .connected) :
    Sound c d p' msg :=
  { h with kind := match h.kind with
      | .wave h1 h2 => .wave h1 h2
      | .extended h1 h2 h3 => .extended h1 h2 h3
      | .empty h1 h2 h3 => .empty h1 h2 h3
      | .agreement h1 h2 h3 => .agreement h1 h2 (hstate h3) }

variable {m : RendezvousHandshakeMachine}

/-- What an unbroken machine sends on its way to the state of `p`. -/
theorem Sound.ofEmits (hplain : Plain c) (hconf : m.configuration = c) {request : Bool}
    {out : HandshakeMessage} (hok : p.machine.state ≠ .rejected)
    (hrole : p.machine.state = .attention → m.role ≠ .initiator → roleOf c d = .responder)
    (he : Emits m request p.machine.state out) : Sound c d p out := by
  subst hconf
  obtain ⟨hauth, hgroup, hpath, hstandby, _, _⟩ := hplain
  cases he with
  | wave => exact ⟨rfl, rfl, rfl, rfl, rfl, fun _ => rfl, .wave rfl rfl⟩
  | request =>
    exact ⟨rfl, by simp [conclusionRequestAction, presentIf, hpath], hgroup,
      by simp [conclusionRequestAction, presentIf, hstandby],
      by simp [conclusionRequestAction, presentIf, hauth], by rintro ⟨⟩, .extended rfl rfl rfl⟩
  | empty hi ha => exact ⟨rfl, rfl, rfl, rfl, rfl, fun _ => rfl, .empty rfl rfl (hrole ha hi)⟩
  | response =>
    exact ⟨rfl, by simp [conclusionResponseAction, presentIf, hpath], hgroup,
      by simp [conclusionResponseAction, presentIf, hstandby],
      by simp [conclusionResponseAction, presentIf, hauth], by rintro ⟨⟩, .extended rfl rfl rfl⟩
  | agreement hs =>
    exact ⟨rfl, by simp [agreementAction, presentIf, hpath], hgroup,
      by simp [agreementAction, presentIf, hstandby],
      by simp [agreementAction, presentIf, hauth], fun _ => rfl, .agreement rfl rfl hs⟩
  | rejection _ hs => exact absurd hs hok

/-! ## Every message of the peer is admitted -/

/-- A delivered sound message. -/
structure SoundDelivery (msg msg' : HandshakeMessage) : Prop where
  version : msg'.packet.version = handshakeVersion5
  request : msg'.packet.request = msg.packet.request
  path : msg'.pathIdentifier = none
  group : msg'.groupMembership = none
  standby : msg'.standbyRtt = none
  authentication : msg'.sessionAuthentication = none

variable {msg' : HandshakeMessage}

theorem Sound.delivered (h : Sound d c q msg)
    (hcar : Carries msg msg') : SoundDelivery msg msg' := by
  obtain ⟨packet, identity, hpacket, rfl⟩ := hcar.received
  have hfields : packet.version = msg.packet.version ∧ packet.request = msg.packet.request := by
    rcases hpacket with rfl | ⟨_, rfl⟩
    all_goals exact ⟨rfl, rfl⟩
  exact ⟨hfields.1.trans h.version, hfields.2, h.path, h.group, h.standby, h.authentication⟩

theorem not_rejection (h : Sound d c q msg) (reason : Nat) :
    msg.packet.request ≠ .rejection reason := by
  cases h.kind with
  | wave hr | extended hr | empty hr | agreement hr => rw [hr]; exact nofun

theorem checkPacket_ok (hd : Plain d) (h : Side c d p q sent)
    (hcookie : p.machine.role = .unresolved → p.machine.peerCookie = 0)
    (hstate : p.machine.state ≠ .idle ∧ p.machine.state ≠ .rejected ∧ p.machine.state ≠ .failed)
    (hsound : Sound d c q msg) (hs : SoundDelivery msg msg')
    (hdel : Delivered d msg msg') : p.machine.checkPacket msg' = .ok () := by
  have hknown : p.machine.peerCookie ≠ 0 → p.machine.peerSocketId = d.localSocketId
      ∧ p.machine.peerCookie = d.localCookie ∧ p.machine.peerFlowWindow = d.flowWindow := by
    intro hne
    obtain ⟨h1, h2, h3, _⟩ := h.known fun hu => hne (hcookie hu)
    exact ⟨h1, h2, h3⟩
  simp only [checkPacket, hs.path, hs.group, hs.standby, Option.isSome_none,
    Bool.false_eq_true, or_self, and_false, if_false]
  split
  · next reason hr => exact absurd (hs.request.symm.trans hr) (not_rejection hsound reason)
  rw [if_neg (by simp [hstate, hdel.socketId, hdel.cookie, hd.socketId, hd.cookie]),
    if_neg ?_, if_neg (not_not.2 hs.version)]
  rintro ⟨hne, hdiff⟩
  obtain ⟨h1, h2, h3⟩ := hknown hne
  rw [hdel.cookie, hdel.socketId, hdel.flowWindow, h1, h2, h3] at hdiff
  simp at hdiff

/-- The extension of a delivered message, with all its consequences for the
checks. -/
theorem Extended.cases_delivered (he : Extended d c q msg) (hdel : Delivered d msg msg') :
    (msg'.handshakeRequest = none ∧ msg'.handshakeResponse = none ∧ msg.handshakeExtension = none)
    ∨ (roleOf d c = .initiator ∧ msg'.handshakeRequest = some d.extensionParameters
      ∧ msg'.handshakeResponse = none
      ∧ msg'.packetFilter = presentIf d.packetFilterConfiguration.val.enabled
        d.packetFilterConfiguration.val)
    ∨ (roleOf d c = .responder ∧ msg'.handshakeRequest = none ∧ msg'.handshakeResponse
        = some (composeResponse d.extensionParameters (some c.extensionParameters))
      ∧ msg'.packetFilter = (presentIf (settledFilter d c).enabled (settledFilter d c)).bind
        fun g => (checkedFilter g.text).toOption) := by
  cases he with
  | plain hx =>
    have hx' := hdel.extension.trans hx
    refine .inl ⟨?_, ?_, hx⟩
    · simp only [handshakeRequest, hx']
    · simp only [handshakeResponse, hx']
  | request hr hx _ hoffer =>
    have hx' := hdel.extension.trans hx
    refine .inr (.inl ⟨hr, ?_, ?_, ?_⟩)
    · simp only [handshakeRequest, hx']
    · simp only [handshakeResponse, hx']
    · rw [hdel.packetFilter, hoffer, bind_checkedFilter]
  | response hr _ hx hanswer =>
    have hx' := hdel.extension.trans hx
    refine .inr (.inr ⟨hr, ?_, ?_, ?_⟩)
    · simp only [handshakeRequest, hx']
    · simp only [handshakeResponse, hx']
    · rw [hdel.packetFilter, hanswer]

section

variable (hcomp : CompatibleWith c d)
include hcomp

theorem checkVersion_ok (hconf : p.machine.configuration = c) (hs : SoundDelivery msg msg')
    (hdel : Delivered d msg msg') (he : Extended d c q msg) :
    p.machine.checkVersion msg' = .ok () := by
  rcases he.cases_delivered hdel with ⟨h1, h2, _⟩ | ⟨_, h1, h2, _⟩ | ⟨_, h1, h2, _⟩
  · simp [checkVersion, h1, h2, refuseIf, hs.group, hs.path, hs.standby]
  · simp only [checkVersion, h1, h2, Option.some_or, hconf, hcomp.version]
  have hversion : (composeResponse d.extensionParameters
      (some c.extensionParameters)).srtVersion = d.extensionParameters.srtVersion := rfl
  simp only [checkVersion, h1, h2, Option.none_or, hconf, hversion, hcomp.version]

theorem resolveRole_isOk (h : Side c d p q sent) (hcookie : msg.packet.synCookie = d.localCookie) :
    p.machine.resolveRole msg = .ok (roleOf c d) := by
  have hne := roleOf_ne_unresolved hcomp.cookie
  simp only [resolveRole, h.configuration, hcookie]
  split
  · exact if_neg hne
  · next hr => rw [h.role.resolve_left hr]

theorem checkController_ok (hconf : p.machine.configuration = c) (hsound : Sound d c q msg)
    (hdel : Delivered d msg msg') (he : Extended d c q msg) :
    p.machine.checkController msg' = .ok () := by
  have hcongestion : msg.handshakeExtension.isSome →
      msg'.congestion = controllerExtension c.congestionController := by
    intro hx
    rw [hdel.congestion, hcomp.controller]
    cases hsound.kind with
    | extended _ _ hcc => exact hcc
    | wave _ hn | empty _ hn | agreement _ hn => rw [hn] at hx; cases hx
  rcases he.cases_delivered hdel with ⟨h1, h2, _⟩ | ⟨_, h1, h2, _⟩ | ⟨_, h1, h2, _⟩
  · simp only [checkController, h1, h2]
  · have hx : msg.handshakeExtension.isSome := by
      rw [← hdel.extension]
      cases hx : msg'.handshakeExtension with
      | none => simp [handshakeRequest, hx] at h1
      | some e => rfl
    simp [checkController, h1, hconf, hcomp.mode, hcongestion hx, controllerExtension_getD,
      refuseIf]
  have hx : msg.handshakeExtension.isSome := by
    rw [← hdel.extension]
    cases hx : msg'.handshakeExtension with
    | none => simp [handshakeResponse, hx] at h2
    | some e => rfl
  have hcase : controllerExtension c.congestionController = none ∧ c.congestionController ≠ .control
      ∨ controllerExtension c.congestionController = some c.congestionController := by
    unfold controllerExtension
    split
    · next hl => exact .inl ⟨rfl, by rw [hl]; decide⟩
    · exact .inr rfl
  simp only [checkController, h1, h2, hconf, hcongestion hx, refuseIf]
  rcases hcase with ⟨hn, hctrl⟩ | hsome
  · simp [hn, hctrl]
  · simp [hsome]

theorem settleFilter_isOk (hconf : p.machine.configuration = c) {peer : PacketFilterConfiguration}
    (hneg : negotiatePacketFilterConfiguration c.packetFilterConfiguration.val peer true = .ok
      (agreedFilter c d)) : p.machine.settleFilter peer = .ok (agreedFilter c d) := by
  simp only [settleFilter, hconf, hneg]
  refine if_neg ?_
  rintro ⟨hcap, hfit⟩
  rw [hcomp.capacity hcap] at hfit
  cases hfit

theorem negotiateFilter_isOk (hcomp' : CompatibleWith d c) (hconf : p.machine.configuration = c)
    (hsound : Sound d c q msg) (hdel : Delivered d msg msg') (he : Extended d c q msg) :
    ∃ f, p.machine.negotiateFilter msg' = .ok f := by
  simp only [negotiateFilter, hconf]
  rcases he.cases_delivered hdel with ⟨h1, h2, hx⟩ | ⟨hr, h1, h2, hf⟩ | ⟨hr, h1, h2, hf⟩
  · have hno : msg'.packetFilter = none := by
      rw [hdel.packetFilter, hsound.filter hx]
      rfl
    simp [h1, h2, hno]
  · have hrole := (roleOf_swap hcomp.cookie).1 hr
    by_cases hoffer : d.packetFilterConfiguration.val.enabled = true
    · have hneg := hcomp.filter hrole hoffer
      have hagreed : settledFilter c d = agreedFilter c d := by rw [agreedFilter, if_pos hrole]
      have hctrl : c.congestionController ≠ .control := by
        rw [hcomp.controller]
        intro hc
        rw [hcomp'.control hc] at hoffer
        cases hoffer
      rw [hagreed] at hneg
      simp [hctrl, h1, hf, presentIf, hoffer, settleFilter_isOk hcomp hconf hneg]
    · simp [h1, hf, presentIf, hoffer]
  have hrole := (roleOf_swap hcomp.cookie).2 hr
  by_cases hown : c.packetFilterConfiguration.val.enabled = true
  · have hset := hcomp'.filter hr hown
    have hagreed : settledFilter d c = agreedFilter c d := by
      rw [agreedFilter, if_neg (by rw [hrole]; decide)]
    have hctrl : c.congestionController ≠ .control := by
      intro hc
      rw [hcomp.control hc] at hown
      cases hown
    have hpeer : msg'.packetFilter = some c.packetFilterConfiguration.val := by
      rw [hf, presentIf, if_pos (negotiate_rendezvous_enabled hown hset), Option.bind_some,
        negotiate_rendezvous_text hown hset,
        checkedFilter_text c.packetFilterConfiguration.property hown]
      rfl
    have hneg := negotiate_rendezvous_self hown hset
    rw [hagreed] at hneg
    simp [hctrl, h1, h2, hpeer, settleFilter_isOk hcomp hconf hneg]
  have hno : msg'.packetFilter = none := by
    rw [hf]
    simp [settledFilter, hown, presentIf]
  simp [h1, h2, hno, hown]

/-- Whatever a compatible peer sends is admitted. -/
theorem examines (hcomp' : CompatibleWith d c) (h : Side c d p q sent)
    (hcookie : p.machine.role = .unresolved → p.machine.peerCookie = 0)
    (hstate : p.machine.state ≠ .idle ∧ p.machine.state ≠ .rejected ∧ p.machine.state ≠ .failed)
    (hg : Genuine d c q msg) (hsound : Sound d c q msg) (hcar : Carries msg msg') :
    ∃ a, p.machine.examine msg' = .ok a := by
  have hdel := hg.delivered hcar
  have hs := hsound.delivered hcar
  have hplain := plain_of_startable hcomp.startable
  have hauth : p.machine.checkSessionAuthentication msg' (roleOf c d) = .ok () := by
    simp [checkSessionAuthentication, h.configuration, hplain.authentication,
      hs.authentication, refuseIf]
  have hgroup : p.machine.checkGroup msg' (roleOf c d) = .ok () := by
    simp only [checkGroup, h.configuration, hplain.group]
  obtain ⟨f, hf⟩ := negotiateFilter_isOk hcomp hcomp' h.configuration hsound hdel hg.extended
  exact ⟨_, examine_ok_iff.2 ⟨roleOf c d, f,
    checkPacket_ok (plain_of_startable hcomp'.startable) h hcookie hstate hsound hs hdel,
    checkVersion_ok hcomp h.configuration hs hdel hg.extended,
    resolveRole_isOk hcomp h hdel.cookie, hauth, hgroup,
    checkController_ok hcomp h.configuration hsound hdel hg.extended, hf, rfl⟩⟩

end

/-! ## No transition on it fails -/

/-- The messages a machine's state and role have a transition for. -/
inductive Expects (m : RendezvousHandshakeMachine) (msg : HandshakeMessage) : Prop
  | early : m.state = .waving ∨ m.state = .attention →
      msg.packet.request = .waveAHand ∨ msg.packet.request = .conclusion → Expects m msg
  | initiator : settled m.state → m.role = .initiator →
      msg.packet.request = .conclusion → Expects m msg
  | request : settled m.state → m.role = .responder → msg.handshakeRequest.isSome →
      msg.packet.request = .conclusion → Expects m msg
  | agreement : settled m.state → m.role = .responder ∨ m.state = .connected →
      msg.packet.request = .agreement → Expects m msg

/-- What such a transition leads to. -/
structure Progress (m : RendezvousHandshakeMachine) (msg : HandshakeMessage)
    (state : RendezvousState) : Prop where
  alive : state = .attention ∨ settled state
  keeps : settled m.state → settled state
  connected : m.state = .connected → state = .connected
  request : m.role ≠ .initiator → msg.handshakeRequest.isSome →
    msg.packet.request = .conclusion → settled state
  responder : m.role ≠ .initiator → state = .connected →
    m.state = .connected ∨ msg.packet.request = .agreement

theorem settled_cases {s : RendezvousState} (h : settled s) :
    s = .fine ∨ s = .initiated ∨ s = .connected := by
  cases s <;> simp_all [settled]

theorem progress_advance (h : Expects m msg) : Progress m msg (m.advance msg).1.state := by
  simp only [advance, initiatorConclusion]
  cases h
  case' early hs hr => rcases hs with hs | hs <;> rcases hr with hr | hr
  case' initiator hs hi hr => rcases settled_cases hs with hs | hs | hs
  case' request hs hi hreq hr => rcases settled_cases hs with hs | hs | hs
  case' agreement hs hi hr => rcases settled_cases hs with hs | hs | hs
  all_goals simp only [*, if_true]
  all_goals try split_ifs
  all_goals constructor
  all_goals simp_all [settled, connect]

/-! ## The invariant of unbroken runs -/

/-- The side with configuration `c` has not failed, and what it shows of its
progress is backed by the other side `q`. -/
structure Live (c d : RendezvousConfiguration) (p q : Peer) (sent : List HandshakeMessage) :
    Prop where
  state : p.machine.state ≠ .failed ∧ p.machine.state ≠ .rejected
  cookie : p.machine.role = .unresolved → p.machine.peerCookie = 0
  processed : roleOf c d = .responder → p.machine.peerExtensionParameters ≠ none →
    settled p.machine.state
  connected : roleOf c d = .responder → p.machine.state = .connected → q.machine.state = .connected
  sent : ∀ msg ∈ sent, Sound c d p msg

/-- A responder whose initiator is connected has processed the request. -/
theorem settled_of_peer_connected (hside : Side d c q p sent') (hp : Live c d p q sent)
    (hrole : roleOf c d = .responder) (hrole' : roleOf d c = .initiator)
    (hconn : q.machine.state = .connected) : settled p.machine.state := by
  rcases hside.initiator hrole' with ⟨_, _, hno⟩ | ⟨_, hproc⟩
  · exact absurd hconn hno
  · exact hp.processed hrole (by rw [hproc.parameters]; exact nofun)

/-- Once the peer is connected this side is settled, and connected itself if
it is the initiator. -/
theorem of_peer_connected (hne : c.localCookie ≠ d.localCookie) (hside : Side d c q p sent')
    (hp : Live c d p q sent) (hq : Live d c q p sent') (hconn : q.machine.state = .connected) :
    settled p.machine.state ∧ (roleOf c d = .responder ∨ p.machine.state = .connected) := by
  rcases resolveRendezvousRole_opposite hne with ⟨_, h2⟩ | ⟨h1, h2⟩
  · have hstate := hq.connected h2 hconn
    exact ⟨by rw [hstate]; rfl, .inr hstate⟩
  · exact ⟨settled_of_peer_connected hside hp h1 h2 hconn, .inl h1⟩

theorem early_or_settled {state : RendezvousState}
    (h : state ≠ .idle ∧ state ≠ .rejected ∧ state ≠ .failed) :
    (state = .waving ∨ state = .attention) ∨ settled state := by
  cases state <;> simp_all [settled]

/-- A started machine has a transition for every message of its peer but a
stale WAVEAHAND. -/
theorem expects (hne : c.localCookie ≠ d.localCookie) (hside : Side d c q p sent')
    (hp : Live c d p q sent) (hq : Live d c q p sent')
    (hg : Genuine d c q msg) (hsound : Sound d c q msg)
    (hdel : Delivered d msg msg') (hs : SoundDelivery msg msg') (hstate : p.machine.state ≠ .idle)
    (hwave : msg'.packet.request = .waveAHand → settled p.machine.state = false)
    {a : RendezvousHandshakeMachine} (hastate : a.state = p.machine.state)
    (harole : a.role = roleOf c d) : Expects a msg' := by
  have hearly := early_or_settled ⟨hstate, hp.state.2, hp.state.1⟩
  rw [← hastate] at hearly hwave
  cases hsound.kind with
  | wave hr _ =>
    rcases hearly with h | h
    · exact .early h (.inl (hs.request.trans hr))
    · rw [hwave (hs.request.trans hr)] at h; cases h
  | extended hr hx _ =>
    rcases hearly with h | h
    · exact .early h (.inr (hs.request.trans hr))
    rcases hg.extended.cases_delivered hdel with ⟨_, _, hn⟩ | ⟨hd, hreq, _⟩ | ⟨hd, _⟩
    · rw [hn] at hx; cases hx
    · exact .request h (harole.trans ((roleOf_swap hne).1 hd)) (by rw [hreq]; rfl)
        (hs.request.trans hr)
    · exact .initiator h (harole.trans ((roleOf_swap hne).2 hd)) (hs.request.trans hr)
  | empty hr _ hd =>
    rcases hearly with h | h
    · exact .early h (.inr (hs.request.trans hr))
    · exact .initiator h (harole.trans ((roleOf_swap hne).2 hd)) (hs.request.trans hr)
  | agreement hr _ hconn =>
    obtain ⟨hset, hrole⟩ := of_peer_connected hne hside hp hq hconn
    rw [← hastate, ← harole] at *
    exact .agreement hset hrole (hs.request.trans hr)

/-- A machine that has moved forward keeps its side. -/
theorem Live.moved (hplain : Plain c) (hne : c.localCookie ≠ d.localCookie) (hp : Live c d p q sent)
    {recorded : List HandshakeMessage} {request response : Bool}
    {r : RendezvousHandshakeMachine × List HandshakeAction}
    (hconf : m.configuration = c) (hrole : m.role = .unresolved ∨ m.role = roleOf c d)
    (hcookie : m.role = .unresolved → m.peerCookie = 0) (hm : Moves m request response r)
    (halive : r.1.state ≠ .failed ∧ r.1.state ≠ .rejected)
    (hresolved : r.1.state = .attention → m.role ≠ .unresolved)
    (hconn : p.machine.state = .connected → r.1.state = .connected)
    (hprocessed : roleOf c d = .responder → m.peerExtensionParameters ≠ none → settled r.1.state)
    (hconnected : roleOf c d = .responder → r.1.state = .connected → q.machine.state = .connected) :
    Live c d ⟨r.1, recorded⟩ q (sent ++ sentMessages r.2) := by
  refine ⟨halive, ?_, ?_, hconnected, ?_⟩
  · show r.1.role = _ → r.1.peerCookie = _
    rw [hm.machine]
    exact hcookie
  · show _ → r.1.peerExtensionParameters ≠ none → _
    rw [hm.machine]
    exact hprocessed
  intro msg hmsg
  rcases List.mem_append.1 hmsg with hold | hnew
  · exact (hp.sent msg hold).mono hconn
  refine Sound.ofEmits hplain hconf halive.2 (fun hatt hi => ?_) (hm.emits msg hnew)
  refine responder_of_ne_initiator hne ?_
  rw [← hrole.resolve_left (hresolved hatt)]
  exact hi

end Step

/-! ## Runs -/

section Run

variable {c : Bool → RendezvousConfiguration} {s : Lts.Duplex Peer HandshakeMessage}

def BothLive (c : Bool → RendezvousConfiguration) (s : Lts.Duplex Peer HandshakeMessage) :
    Prop :=
  ∀ i, Live (c i) (c !i) (s.peer i) (s.peer !i) (s.sent i)

theorem live_init (c d : RendezvousConfiguration) :
    Live c d { machine := { configuration := c } } { machine := { configuration := d } } [] where
  state := ⟨nofun, nofun⟩
  cookie := fun _ => rfl
  processed := fun _ h => absurd rfl h
  connected := nofun
  sent := by intro msg h; cases h

variable {i : Bool}

theorem bothLive_put {r : Peer × List HandshakeMessage} (h : BothLive c s)
    (hown : Live (c i) (c !i) r.1 (s.peer !i) (s.sent i ++ r.2))
    (hconn : (s.peer i).machine.state = .connected → r.1.machine.state = .connected) :
    BothLive c (s.put i r) := by
  refine Lts.forall_side i ?_ ?_
  · simpa using hown
  have hother := h (!i)
  rw [Bool.not_not] at hother ⊢
  simp only [Lts.Duplex.put_peer_self, Lts.Duplex.put_peer_other, Lts.Duplex.put_sent_other]
  exact { hother with connected := fun hr hc => hconn (hother.connected hr hc) }

theorem CompatibleWith.plain {c d : RendezvousConfiguration} (h : CompatibleWith c d) :
    Plain c := plain_of_startable h.startable

/-- The operations of the own side, as a faithful runtime calls them. -/
theorem bothLive_act (hcomp : Compatible c) (ha : Agreement c s) (h : BothLive c s) {e : Operation}
    (hg : faithful s (.act i e) = true) : BothLive c (s.put i (endpoint.act (s.peer i) e)) := by
  have hm := moves_perform (s.peer i).machine e
  have hside := ha i
  have hlive := h i
  have hplain := (hcomp i).plain
  have hconf := hside.configuration
  -- It is enough to know where the operation leads.
  suffices hend : ((perform (s.peer i).machine e).1.state ≠ .failed
        ∧ (perform (s.peer i).machine e).1.state ≠ .rejected)
      ∧ ((perform (s.peer i).machine e).1.state = .attention →
        (s.peer i).machine.state = .attention)
      ∧ ((s.peer i).machine.state = .connected →
        (perform (s.peer i).machine e).1.state = .connected)
      ∧ (settled (s.peer i).machine.state → settled (perform (s.peer i).machine e).1.state)
      ∧ ((perform (s.peer i).machine e).1.state = .connected →
        (s.peer i).machine.state = .connected ∨ (s.peer !i).machine.state = .connected) by
    obtain ⟨halive, hatt, hconn, hset, hcon⟩ := hend
    refine bothLive_put h ?_ hconn
    refine hlive.moved hplain (hcomp i).cookie hconf hside.role hlive.cookie hm halive
      (fun ht => hside.engaged (.inl (hatt ht))) hconn
      (fun hr hx => hset (hlive.processed hr hx)) (fun hr hc => ?_)
    exact (hcon hc).elim (hlive.connected hr) id
  cases e with
  | start =>
    have hidle : (s.peer i).machine.state = .idle := by simpa [faithful] using hg
    have hstart : (s.peer i).machine.startable = true := by
      have := (hcomp i).startable
      simp only [startable, hconf, hidle] at this ⊢
      exact this
    simp [perform, start, hstart, hidle, settled]
  | timeout =>
    simp only [faithful, Bool.and_eq_true, bne_iff_ne, ne_eq, decide_eq_true_eq] at hg
    have hlimit : ¬(s.peer i).machine.retryCount
        ≥ (s.peer i).machine.configuration.maximumRetries := by omega
    have hstate : (perform (s.peer i).machine .timeout).1.state = (s.peer i).machine.state := by
      simp only [perform, timeout, hg.1, hlive.state.1, hlimit, or_self, if_false]
      split <;> rfl
    rw [hstate]
    exact ⟨hlive.state, id, id, id, .inl⟩
  | noteConnectedPacket =>
    have hpeer : (s.peer !i).machine.state = .connected := by simpa [faithful] using hg
    have hside' := ha (!i)
    have hlive' := h (!i)
    rw [Bool.not_not] at hside' hlive'
    obtain ⟨hset, hrole⟩ := of_peer_connected (hcomp i).cookie hside' hlive hlive' hpeer
    have hstate : (perform (s.peer i).machine .noteConnectedPacket).1.state = .connected := by
      simp only [perform, noteConnectedPacket, hconf, hplain.authentication,
        Bool.false_eq_true, if_false]
      rcases settled_cases hset with hs | hs | hs
      · have hr := hrole.resolve_right (by simp [hs])
        rw [if_pos ⟨.inr hs, (hside.role.resolve_left (hside.engaged (.inr hset))).trans hr⟩]
        rfl
      · have hr := hrole.resolve_right (by simp [hs])
        rw [if_pos ⟨.inl hs, (hside.role.resolve_left (hside.engaged (.inr hset))).trans hr⟩]
        rfl
      rw [if_neg (by rw [hs]; simp), if_neg (by rw [hs]; simp)]
      exact hs
    rw [hstate]
    exact ⟨by decide, by simp, fun _ => rfl, fun _ => rfl, fun _ => .inr hpeer⟩

theorem examine_frame {m a : RendezvousHandshakeMachine} {msg : HandshakeMessage}
    (h : m.examine msg = .ok a) : a.state = m.state ∧ a.configuration = m.configuration := by
  obtain ⟨_, _, _, _, _, _, _, _, _, rfl⟩ := examine_ok_iff.1 h
  exact ⟨rfl, rfl⟩

/-- A datagram of the peer, unless it is a stale WAVEAHAND. -/
theorem bothLive_deliver (hcomp : Compatible c) (ha : Agreement c s) (h : BothLive c s)
    {msg msg' : HandshakeMessage} (hmem : msg ∈ s.sent !i) (hcar : Carries msg msg')
    (hstate : (s.peer i).machine.state ≠ .idle)
    (hwave : msg'.packet.request = .waveAHand → settled (s.peer i).machine.state = false) :
    BothLive c (s.put i (endpoint.receive (s.peer i) msg')) := by
  have hne := (hcomp i).cookie
  have hcomp' := hcomp (!i)
  have hside := ha i
  have hside' := ha (!i)
  have hlive := h i
  have hlive' := h (!i)
  rw [Bool.not_not] at hcomp' hside' hlive'
  have hg := hside'.sent msg hmem
  have hsound := hlive'.sent msg hmem
  have hdel := hg.delivered hcar
  have hs := hsound.delivered hcar
  obtain ⟨a, hexamine⟩ := examines (hcomp i) hcomp' hside hlive.cookie
    ⟨hstate, hlive.state.2, hlive.state.1⟩ hg hsound hcar
  have hrec := hside.recorded hne hg hcar hexamine
  obtain ⟨harole, hadmitted⟩ := hside.admitted hdel hexamine hrec
  obtain ⟨hastate, haconf⟩ := examine_frame hexamine
  have hresolved : a.role ≠ .unresolved := by
    rw [harole]
    exact roleOf_ne_unresolved hne
  have hm := moves_advance hresolved msg'
  have hprogress := progress_advance
    (expects hne hside' hlive hlive' hg hsound hdel hs hstate hwave hastate harole)
  rw [show endpoint.receive (s.peer i) msg'
      = (⟨(a.advance msg').1, (s.peer i).recorded ++ [msg']⟩, sentMessages (a.advance msg').2) by
    simp only [endpoint, receive, Peer.record, hexamine]]
  have halive : (a.advance msg').1.state ≠ .failed ∧ (a.advance msg').1.state ≠ .rejected := by
    rcases hprogress.alive with h | h
    · rw [h]; decide
    rcases settled_cases h with h | h | h
    all_goals rw [h]; decide
  refine bothLive_put h ?_ (fun hc => hprogress.connected (hastate.trans hc))
  refine hlive.moved (hcomp i).plain hne (haconf.trans hside.configuration) (.inr harole)
    (fun hu => absurd hu hresolved) hm halive (fun _ => hresolved)
    (fun hc => hprogress.connected (hastate.trans hc)) ?_ ?_
  · intro hr hx
    have hi : a.role ≠ .initiator := by rw [harole, hr]; decide
    cases hrec with
    | plain _ _ he =>
      have hold : (s.peer i).machine.peerExtensionParameters ≠ none := by
        rw [← he.parameters]
        exact hx
      exact hprogress.keeps (hastate ▸ hlive.processed hr hold)
    | request _ hreq _ _ =>
      refine hprogress.request hi hreq (hs.request.trans ?_)
      cases hsound.kind with
      | extended hc _ _ | empty hc _ _ => exact hc
      | wave _ hn | agreement _ hn _ =>
        rw [handshakeRequest, hdel.extension, hn] at hreq
        cases hreq
    | response hr' => rw [hr] at hr'; cases hr'
  intro hr hc
  have hi : a.role ≠ .initiator := by rw [harole, hr]; decide
  rcases hprogress.responder hi hc with hold | hagree
  · exact hlive.connected hr (hastate ▸ hold)
  rw [hs.request] at hagree
  cases hsound.kind with
  | agreement _ _ hconn => exact hconn
  | wave hc _ | extended hc _ _ | empty hc _ _ => rw [hc] at hagree; cases hagree

/-- Two compatible rendezvous peers, driven by a faithful runtime over any
network, never fail or are rejected in a run in which no WAVEAHAND reaches a
machine that has left `attention`. -/
theorem rendezvous_never_breaks (c : Bool → RendezvousConfiguration) (hcomp : Compatible c)
    {s : Lts.Duplex Peer HandshakeMessage}
    (h : Lts.Reaches (pair c) (fun s e => faithful s e = true ∧ noStaleWave s e = true) s)
    (i : Bool) :
    (s.peer i).machine.state ≠ .failed ∧ (s.peer i).machine.state ≠ .rejected := by
  have hcookies : ∀ i, (c i).localCookie ≠ (c !i).localCookie := fun i => (hcomp i).cookie
  have hinv : Agreement c s ∧ BothLive c s := by
    refine Lts.Duplex.invariant (I := fun s => Agreement c s ∧ BothLive c s) ?_ ?_ ?_ h
    · exact ⟨fun i => side_init (c i) (c !i), fun i => live_init (c i) (c !i)⟩
    · rintro s i e ⟨ha, hl⟩ ⟨hf, _⟩
      exact ⟨agreement_act ha e hcookies, bothLive_act hcomp ha hl hf⟩
    rintro s i msg msg' ⟨ha, hl⟩ ⟨hf, hw⟩ hmem hcar
    refine ⟨agreement_deliver ha hmem hcar hcookies, bothLive_deliver hcomp ha hl hmem hcar ?_ ?_⟩
    · simpa [faithful] using hf
    intro hr
    simpa [noStaleWave, hr] using hw
  exact (hinv.2 i).state

end Run

theorem exampleConfigurations_compatible : Compatible exampleConfigurations := by
  intro i
  have hoff : ∀ i, (exampleConfigurations i).packetFilterConfiguration.val.enabled = false := by
    intro i
    cases i <;> rfl
  have hcap : ∀ i, (exampleConfigurations i).receiveCapacityPackets = 0 := by
    intro i
    cases i <;> rfl
  refine ⟨?_, ?_, ?_, ?_, ?_, fun _ => hoff i, fun _ h => ?_, fun h => absurd (hcap i) h⟩
  case refine_6 => rw [hoff] at h; cases h
  all_goals revert i; decide

theorem rendezvous_never_breaks_exampleRun :
    ∃ s, Lts.Reaches (pair exampleConfigurations)
      (fun s e => faithful s e = true ∧ noStaleWave s e = true) s
    ∧ (s.peer true).machine.state = .connected
    ∧ (s.peer false).machine.state ≠ .failed ∧ (s.peer false).machine.state ≠ .rejected := by
  have hrun : (endpoint.exec transmit (fun s e => faithful s e && noStaleWave s e) exampleStart
      exampleRun).map (fun s => (s.peer true).machine.state) = some .connected := by
    decide +kernel
  obtain ⟨s, hs, hconn⟩ := Option.map_eq_some_iff.1 hrun
  have hreach : Lts.Reaches (pair exampleConfigurations)
      (fun s e => faithful s e = true ∧ noStaleWave s e = true) s :=
    (Lts.Endpoint.exec_reaches carries_of_transmit (.start rfl) hs).mono
      fun s e h => by simpa using h
  exact ⟨s, hreach, hconn,
    rendezvous_never_breaks exampleConfigurations exampleConfigurations_compatible hreach false⟩

/-! ## The stale WAVEAHAND -/

/-- Side `true` answers the initiator's wave before its own wave arrives:
the initiator is in `fine` when that wave does. -/
def staleWave : List (Lts.Script Operation) :=
  [.act false .start, .act true .start, .deliver true 0, .deliver false 1, .deliver false 0]

theorem staleWave_fails : ∃ c, Compatible c ∧ ∃ s,
    Lts.Reaches (pair c) (fun s e => faithful s e = true) s
    ∧ ∃ i, (s.peer i).machine.state = .failed := by
  have hrun : (endpoint.exec transmit faithful exampleStart staleWave).map
      (fun s => (s.peer false).machine.state) = some .failed := by decide +kernel
  obtain ⟨s, hs, hfailed⟩ := Option.map_eq_some_iff.1 hrun
  exact ⟨exampleConfigurations, exampleConfigurations_compatible, s,
    Lts.Endpoint.exec_reaches carries_of_transmit (.start rfl) hs, false, hfailed⟩

end Srt.Rendezvous
