/-
# `RendezvousAgreement` — two rendezvous machines agree

Two machines over a network that loses, repeats and reorders their
datagrams.  The joint invariant is monotone: it says what a machine has
recorded of its peer and what its sent messages commit it to, never what it
still has to do, so it survives every failure of either side.

* Each machine's resolved role is the one the two cookies give it.
* A responder that has recorded an HSREQ has recorded the initiator's own
  parameters and holds the filter the two configurations settle on
  (`Processed`).
* Only such a responder sends an HSRSP, and an initiator that has recorded
  one holds the mirrored parameters and the same filter (`Answered`).
-/
import Srt.Lib.Duplex
import Srt.Handshake.Rendezvous

namespace Srt.Rendezvous

open RendezvousHandshakeMachine

/-- One end: the machine, and the messages it has recorded. -/
structure Peer where
  machine : RendezvousHandshakeMachine
  recorded : List HandshakeMessage := []

inductive Operation
  | start
  | timeout
  | noteConnectedPacket
  deriving DecidableEq, Repr

def perform (m : RendezvousHandshakeMachine) :
    Operation → RendezvousHandshakeMachine × List HandshakeAction
  | .start => m.start
  | .timeout => m.timeout
  | .noteConnectedPacket => m.noteConnectedPacket

/-- A delivered message is recorded when the machine examines it. -/
def Peer.record (p : Peer) (msg : HandshakeMessage) : List HandshakeMessage :=
  match p.machine.examine msg with
  | .ok _ => p.recorded ++ [msg]
  | .error _ => p.recorded

def endpoint : Lts.Endpoint Peer HandshakeMessage Operation where
  act p e :=
    let r := perform p.machine e
    ({ p with machine := r.1 }, sentMessages r.2)
  receive p msg :=
    let r := p.machine.receive msg
    ({ machine := r.1, recorded := p.record msg }, sentMessages r.2)
  carries := Carries

/-- Two idle machines with configurations `c false` and `c true`. -/
def pair (c : Bool → RendezvousConfiguration) :
    Lts.System (Lts.Duplex Peer HandshakeMessage) (Lts.DuplexEvent HandshakeMessage Operation) :=
  endpoint.duplex fun i => { machine := { configuration := c i } }

/-! ## What a message of a machine holds -/

/-- The role configuration `c` has against `d`. -/
def roleOf (c d : RendezvousConfiguration) : RendezvousRole :=
  resolveRendezvousRole c.localCookie d.localCookie

/-- The filter a responder `c` settles on for the offer of `d`. -/
def settledFilter (c d : RendezvousConfiguration) : PacketFilterConfiguration :=
  if d.packetFilterConfiguration.val.enabled then
    match negotiatePacketFilterConfiguration c.packetFilterConfiguration.val
        d.packetFilterConfiguration.val true with
    | .ok f => f
    | .error _ => {}
  else {}

/-- The responder with configuration `c` has recorded an HSREQ of `d`. -/
structure Processed (c d : RendezvousConfiguration) (p : Peer) : Prop where
  parameters : p.machine.peerExtensionParameters = some d.extensionParameters
  filter : p.machine.negotiatedPacketFilter = settledFilter c d
  settles : d.packetFilterConfiguration.val.enabled = true →
    negotiatePacketFilterConfiguration c.packetFilterConfiguration.val
      d.packetFilterConfiguration.val true = .ok (settledFilter c d)
  controller : d.congestionController = c.congestionController
  recorded : ∃ msg ∈ p.recorded, msg.packet.socketId = d.localSocketId
    ∧ msg.packet.synCookie = d.localCookie
    ∧ msg.handshakeRequest = some d.extensionParameters

/-- The initiator with configuration `c` has recorded an HSRSP of `d`. -/
structure Answered (c d : RendezvousConfiguration) (p : Peer) : Prop where
  parameters : p.machine.peerExtensionParameters
    = some (composeResponse d.extensionParameters (some c.extensionParameters))
  filter : p.machine.negotiatedPacketFilter = settledFilter d c

/-- The extensions of a message sent with configuration `c` to `d`: none, an
HSREQ of an initiator, or an HSRSP of a responder that has processed the
request. -/
inductive Extended (c d : RendezvousConfiguration) (p : Peer) : HandshakeMessage → Prop
  | plain {msg} : msg.handshakeExtension = none → Extended c d p msg
  | request {msg} : roleOf c d = .initiator →
      msg.handshakeExtension = some (.handshakeRequest, c.extensionParameters) →
      msg.congestion = controllerExtension c.congestionController →
      msg.packetFilter = presentIf c.packetFilterConfiguration.val.enabled
        c.packetFilterConfiguration.val →
      Extended c d p msg
  | response {msg} : roleOf c d = .responder → Processed c d p →
      msg.handshakeExtension = some (.handshakeResponse,
        composeResponse c.extensionParameters (some d.extensionParameters)) →
      msg.packetFilter = presentIf (settledFilter c d).enabled (settledFilter c d) →
      Extended c d p msg

/-- What every sent message tells about its sender. -/
structure Genuine (c d : RendezvousConfiguration) (p : Peer) (msg : HandshakeMessage) :
    Prop where
  socketId : msg.packet.socketId = c.localSocketId
  cookie : msg.packet.synCookie = c.localCookie
  flowWindow : msg.packet.flowWindow = c.flowWindow
  initialSequence : msg.packet.initialSequence = c.initialSequence
  extended : Extended c d p msg

/-! ## The invariant -/

/-- The side with configuration `c` of a pair whose other side has `d`; `p`
is its peer record, `q` the other side's, `sent` its own messages. -/
structure Side (c d : RendezvousConfiguration) (p q : Peer) (sent : List HandshakeMessage) :
    Prop where
  configuration : p.machine.configuration = c
  role : p.machine.role = .unresolved ∨ p.machine.role = roleOf c d
  known : p.machine.role ≠ .unresolved →
    p.machine.peerSocketId = d.localSocketId ∧ p.machine.peerCookie = d.localCookie
    ∧ p.machine.peerFlowWindow = d.flowWindow
    ∧ p.machine.peerInitialSequence = d.initialSequence
  engaged : p.machine.state = .attention ∨ settled p.machine.state → p.machine.role ≠ .unresolved
  /-- As responder: nothing recorded yet, or an HSREQ. -/
  responder : roleOf c d = .responder →
    (p.machine.peerExtensionParameters = none ∧ settled p.machine.state = false)
    ∨ Processed c d p
  /-- As initiator: nothing recorded yet, or an HSRSP of a peer that has
  processed the request. -/
  initiator : roleOf c d = .initiator →
    (p.machine.peerExtensionParameters = none ∧ p.machine.negotiatedPacketFilter = {}
      ∧ p.machine.state ≠ .connected)
    ∨ (Answered c d p ∧ Processed d c q)
  sent : ∀ msg ∈ sent, Genuine c d p msg

def Agreement (c : Bool → RendezvousConfiguration)
    (s : Lts.Duplex Peer HandshakeMessage) : Prop :=
  ∀ i, Side (c i) (c !i) (s.peer i) (s.peer !i) (s.sent i)

/-! ## Steps that record nothing -/

section Step

variable {c d : RendezvousConfiguration} {p q : Peer} {sent : List HandshakeMessage}

/-- `p'` has recorded at least what `p` has. -/
structure Peer.Extends (p p' : Peer) : Prop where
  parameters : p'.machine.peerExtensionParameters = p.machine.peerExtensionParameters
  filter : p'.machine.negotiatedPacketFilter = p.machine.negotiatedPacketFilter
  recorded : ∀ msg ∈ p.recorded, msg ∈ p'.recorded

variable {p' : Peer}

theorem Processed.mono (h : Processed c d p) (he : p.Extends p') : Processed c d p' := by
  obtain ⟨msg, hmem, hmsg⟩ := h.recorded
  exact ⟨he.parameters.trans h.parameters, he.filter.trans h.filter, h.settles, h.controller,
    msg, he.recorded msg hmem, hmsg⟩

theorem Answered.mono (h : Answered c d p) (he : p.Extends p') : Answered c d p' :=
  ⟨he.parameters.trans h.parameters, he.filter.trans h.filter⟩

variable {msg : HandshakeMessage}

theorem Genuine.mono (h : Genuine c d p msg)
    (he : roleOf c d = .responder → Processed c d p → Processed c d p') : Genuine c d p' msg := by
  refine ⟨h.socketId, h.cookie, h.flowWindow, h.initialSequence, ?_⟩
  cases h.extended with
  | plain hp => exact .plain hp
  | request hr hx hcc hf => exact .request hr hx hcc hf
  | response hr hp hx hf => exact .response hr (he hr hp) hx hf

/-- The other side depends on this one only through what it has processed. -/
theorem Side.other {q' : Peer} (h : Side c d p q sent)
    (he : roleOf c d = .initiator → Processed d c q → Processed d c q') :
    Side c d p q' sent :=
  { h with initiator := fun hr => (h.initiator hr).imp_right (And.imp_right (he hr)) }

theorem roleOf_ne_unresolved (hne : c.localCookie ≠ d.localCookie) : roleOf c d ≠ .unresolved := by
  rcases resolveRendezvousRole_opposite hne with ⟨h, _⟩ | ⟨h, _⟩
  all_goals
    unfold roleOf
    rw [h]
    exact nofun

theorem responder_of_ne_initiator (hne : c.localCookie ≠ d.localCookie)
    (h : roleOf c d ≠ .initiator) : roleOf c d = .responder := by
  have := roleOf_ne_unresolved hne
  cases hr : roleOf c d <;> simp_all

/-- Every packet is the base packet up to its request and extension field. -/
theorem Genuine.ofBase (hc : p.machine.configuration = c) {out : HandshakeMessage}
    {request : HandshakeRequest} {field : UInt16}
    (hp : out.packet = { p.machine.basePacket request with extensionField := field })
    (he : Extended c d p out) : Genuine c d p out := by
  subst hc
  exact ⟨by rw [hp]; rfl, by rw [hp]; rfl, by rw [hp]; rfl, by rw [hp]; rfl, he⟩

variable {request : Bool}

theorem Side.genuine_emits (hne : c.localCookie ≠ d.localCookie) (h : Side c d p q sent)
    {state : RendezvousState} {out : HandshakeMessage} (hreq : request = true → Processed c d p)
    (hresolved : settled state → p.machine.role ≠ .unresolved)
    (he : Emits p.machine request state out) : Genuine c d p out := by
  have hc := h.configuration
  cases he with
  | wave | empty | agreement | rejection => exact .ofBase hc rfl (.plain rfl)
  | request hi =>
    have hrole : roleOf c d = .initiator := by
      rcases h.role with hu | hr
      · rw [hi] at hu; cases hu
      · rw [← hr, hi]
    refine .ofBase hc rfl (.request hrole ?_ ?_ ?_)
    all_goals rw [← hc]; rfl
  | response hi hs hseen =>
    have hrole : roleOf c d = .responder := by
      refine responder_of_ne_initiator hne ?_
      rw [← h.role.resolve_left (hresolved hs)]
      exact hi
    have hp : Processed c d p := by
      rcases hseen with hq | hsettled
      · exact hreq hq
      rcases h.responder hrole with ⟨_, hno⟩ | hp
      · rw [hno] at hsettled; cases hsettled
      · exact hp
    refine .ofBase hc rfl (.response hrole hp ?_ ?_)
    · simp only [conclusionResponseAction, responseExtensionParameters, hp.parameters, hc]
    · simp only [conclusionResponseAction, hp.filter]

/-- A move of the machine keeps everything recorded. -/
theorem Peer.extends_moves {response : Bool} {r : RendezvousHandshakeMachine × List HandshakeAction}
    (hm : Moves p.machine request response r) : p.Extends { p with machine := r.1 } := by
  refine ⟨?_, ?_, fun _ hmsg => hmsg⟩
  · show r.1.peerExtensionParameters = _
    rw [hm.machine]
  rw [hm.machine]

/-- A move of the machine keeps its side of the invariant. -/
theorem Side.moves (hne : c.localCookie ≠ d.localCookie) (h : Side c d p q sent)
    {response : Bool} {r : RendezvousHandshakeMachine × List HandshakeAction}
    (hm : Moves p.machine request response r) (hreq : request = true → Processed c d p)
    (hres : response = true → Answered c d p ∧ Processed d c q) :
    Side c d { p with machine := r.1 } q (sent ++ sentMessages r.2) := by
  have hext := Peer.extends_moves hm
  have hrole : r.1.role = p.machine.role := by rw [hm.machine]
  have hengaged : r.1.state = .attention ∨ settled r.1.state →
      p.machine.role ≠ .unresolved := fun hs => (hm.engaged hs).elim h.engaged id
  refine ⟨?_, ?_, ?_, ?_, ?_, ?_, ?_⟩
  · show r.1.configuration = c
    rw [hm.machine]
    exact h.configuration
  · show r.1.role = _ ∨ r.1.role = _
    rw [hrole]
    exact h.role
  · intro hr
    have hk := h.known (hrole ▸ hr)
    rw [hm.machine]
    exact hk
  · intro hs
    rw [hrole]
    exact hengaged hs
  · intro hr
    rcases h.responder hr with ⟨hnone, hno⟩ | hp
    · by_cases hs : settled r.1.state = true
      · -- A responder settles only on an HSREQ.
        have hi : p.machine.role ≠ .initiator := by
          rw [h.role.resolve_left (hengaged (.inr hs)), hr]
          exact nofun
        rcases hm.responder hi hs with hold | hq
        · rw [hno] at hold; cases hold
        · exact .inr ((hreq hq).mono hext)
      · exact .inl ⟨hext.parameters.trans hnone, Bool.eq_false_iff.2 hs⟩
    · exact .inr (hp.mono hext)
  · intro hr
    rcases h.initiator hr with ⟨hnone, hfilter, hno⟩ | ⟨ha, hp⟩
    · by_cases hs : r.1.state = .connected
      · have hi : p.machine.role = .initiator := by
          rw [h.role.resolve_left (hengaged (.inr (by rw [hs]; rfl))), hr]
        rcases hm.initiator hi hs with hold | hq
        · exact absurd hold hno
        · exact .inr ⟨(hres hq).1.mono hext, (hres hq).2⟩
      · exact .inl ⟨hext.parameters.trans hnone, hext.filter.trans hfilter, hs⟩
    · exact .inr ⟨ha.mono hext, hp⟩
  intro msg hmsg
  have hmono : roleOf c d = .responder → Processed c d p →
      Processed c d { p with machine := r.1 } := fun _ hp => hp.mono hext
  rcases List.mem_append.1 hmsg with hold | hnew
  · exact (h.sent msg hold).mono hmono
  exact (h.genuine_emits hne hreq (fun hs => hengaged (.inr hs)) (hm.emits msg hnew)).mono hmono

/-! ## Recording a message of the peer -/

theorem roleOf_swap (hne : c.localCookie ≠ d.localCookie) :
    (roleOf d c = .initiator → roleOf c d = .responder)
    ∧ (roleOf d c = .responder → roleOf c d = .initiator) := by
  unfold roleOf
  rcases resolveRendezvousRole_opposite hne with ⟨h, h'⟩ | ⟨h, h'⟩
  all_goals
    rw [h, h']
    exact ⟨fun he => by cases he <;> rfl, fun he => by cases he <;> rfl⟩

variable {m : RendezvousHandshakeMachine} {f : PacketFilterConfiguration}

theorem settleFilter_ok {peer : PacketFilterConfiguration} (h : m.settleFilter peer = .ok f) :
    negotiatePacketFilterConfiguration m.configuration.packetFilterConfiguration.val peer true
      = .ok f := by
  simp only [settleFilter] at h
  split at h
  · cases h
  next f' hf =>
  split at h
  · cases h
  · rw [hf, Except.ok.inj h]

/-- A parsed filter is delivered unchanged. -/
theorem settledFilter_of_ok (hd : d.packetFilterConfiguration.val.enabled = true)
    (hf : negotiatePacketFilterConfiguration c.packetFilterConfiguration.val
      d.packetFilterConfiguration.val true = .ok f) : settledFilter c d = f := by
  simp only [settledFilter, if_pos hd, hf]

theorem filter_of_request (hc : m.configuration = c) (hreq : msg.handshakeRequest.isSome)
    (hoffer : msg.packetFilter = presentIf d.packetFilterConfiguration.val.enabled
      d.packetFilterConfiguration.val)
    (hf : m.negotiateFilter msg = .ok f) :
    f = settledFilter c d ∧ (d.packetFilterConfiguration.val.enabled = true →
      negotiatePacketFilterConfiguration c.packetFilterConfiguration.val
        d.packetFilterConfiguration.val true = .ok (settledFilter c d)) := by
  simp only [negotiateFilter, hreq, hoffer, if_true] at hf
  split at hf
  · cases hf
  by_cases he : d.packetFilterConfiguration.val.enabled = true
  · simp only [presentIf, he, if_true] at hf
    have hneg := settleFilter_ok hf
    rw [hc] at hneg
    have hset := settledFilter_of_ok he hneg
    exact ⟨hset.symm, fun _ => by rw [hset]; exact hneg⟩
  simp only [presentIf, if_neg he] at hf
  rw [← Except.ok.inj hf, settledFilter, if_neg he]
  exact ⟨rfl, fun h => absurd h he⟩

/-- The filter an admitted HSRSP settles: the responder's. -/
theorem filter_of_response (hc : m.configuration = c) (hreq : msg.handshakeRequest = none)
    (hres : msg.handshakeResponse.isSome)
    (hanswer : msg.packetFilter = (presentIf (settledFilter d c).enabled (settledFilter d c)).bind
      fun g => (checkedFilter g.text).toOption)
    (hsettles : c.packetFilterConfiguration.val.enabled = true → negotiatePacketFilterConfiguration
      d.packetFilterConfiguration.val c.packetFilterConfiguration.val true = .ok (settledFilter d
      c))
    (hbefore : c.packetFilterConfiguration.val.enabled = false → m.negotiatedPacketFilter =
      settledFilter d c)
    (hf : m.negotiateFilter msg = .ok f) : f = settledFilter d c := by
  simp only [negotiateFilter, hreq, hres, if_true, Option.isSome_none, Bool.false_eq_true,
    if_false, hc] at hf
  split at hf
  · cases hf
  by_cases he : c.packetFilterConfiguration.val.enabled = true
  · -- The responder kept the initiator's text, which parses back.
    have hs := hsettles he
    have hpresent : msg.packetFilter = some c.packetFilterConfiguration.val := by
      rw [hanswer, presentIf, if_pos (negotiate_rendezvous_enabled he hs), Option.bind_some,
        negotiate_rendezvous_text he hs,
        checkedFilter_text c.packetFilterConfiguration.property he]
      rfl
    rw [hpresent] at hf
    have hneg := settleFilter_ok hf
    rw [hc, negotiate_rendezvous_self he hs] at hneg
    exact (Except.ok.inj hneg).symm
  have hdisabled : (settledFilter d c).enabled = false := by
    simp only [settledFilter, if_neg he]
  have habsent : msg.packetFilter = none := by
    rw [hanswer, presentIf, hdisabled]
    rfl
  simp only [habsent, if_neg he] at hf
  rw [← Except.ok.inj hf]
  exact hbefore (Bool.eq_false_iff.2 he)

/-- What a delivered genuine message holds. -/
structure Delivered (d : RendezvousConfiguration) (msg msg' : HandshakeMessage) : Prop where
  socketId : msg'.packet.socketId = d.localSocketId
  cookie : msg'.packet.synCookie = d.localCookie
  flowWindow : msg'.packet.flowWindow = d.flowWindow
  initialSequence : msg'.packet.initialSequence = d.initialSequence
  extension : msg'.handshakeExtension = msg.handshakeExtension
  congestion : msg'.congestion = msg.congestion
  packetFilter : msg'.packetFilter = msg.packetFilter.bind fun f => (checkedFilter f.text).toOption

variable {msg' : HandshakeMessage}

theorem Genuine.delivered (hg : Genuine d c q msg)
    (hcar : Carries msg msg') : Delivered d msg msg' := by
  obtain ⟨packet, identity, hpacket, rfl⟩ := hcar.received
  have hfields : packet.socketId = msg.packet.socketId
      ∧ packet.synCookie = msg.packet.synCookie ∧ packet.flowWindow = msg.packet.flowWindow
      ∧ packet.initialSequence = msg.packet.initialSequence := by
    rcases hpacket with rfl | ⟨_, rfl⟩
    all_goals exact ⟨rfl, rfl, rfl, rfl⟩
  obtain ⟨h1, h2, h3, h4⟩ := hfields
  exact ⟨h1.trans hg.socketId, h2.trans hg.cookie, h3.trans hg.flowWindow,
    h4.trans hg.initialSequence, rfl, rfl, rfl⟩

theorem resolveRole_ok (h : Side c d p q sent) (hcookie : msg.packet.synCookie = d.localCookie)
    {role : RendezvousRole} (hr : p.machine.resolveRole msg = .ok role) : role = roleOf c d := by
  simp only [resolveRole, h.configuration, hcookie] at hr
  split at hr
  · split at hr
    · cases hr
    · exact (Except.ok.inj hr).symm
  · next hres => rw [← Except.ok.inj hr, h.role.resolve_left hres]

/-- What recording the delivery of a genuine message has done, by the
extension the message carries. -/
inductive Recorded (c d : RendezvousConfiguration) (p p' q : Peer) (msg : HandshakeMessage) :
    Prop
  | plain : msg.handshakeRequest = none → msg.handshakeResponse = none → p.Extends p' →
      Recorded c d p p' q msg
  | request : roleOf c d = .responder → msg.handshakeRequest.isSome →
      msg.handshakeResponse = none → Processed c d p' → Recorded c d p p' q msg
  | response : roleOf c d = .initiator → msg.handshakeRequest = none → Answered c d p' →
      Processed d c q → Recorded c d p p' q msg

theorem Side.recorded (hne : c.localCookie ≠ d.localCookie) (h : Side c d p q sent)
    (hg : Genuine d c q msg) (hcar : Carries msg msg') {a : RendezvousHandshakeMachine}
    (ha : p.machine.examine msg' = .ok a) : Recorded c d p ⟨a, p.recorded ++ [msg']⟩ q msg' := by
  have hdel := hg.delivered hcar
  obtain ⟨role, filter, _, _, _, _, _, hctrl, hfilter, rfl⟩ := examine_ok_iff.1 ha
  have hc := h.configuration
  cases hg.extended with
  | plain hx =>
    have hx' : msg'.handshakeExtension = none := hdel.extension.trans hx
    have hreq : msg'.handshakeRequest = none := by
      simp only [HandshakeMessage.handshakeRequest, hx']
    have hres : msg'.handshakeResponse = none := by
      simp only [HandshakeMessage.handshakeResponse, hx']
    refine .plain hreq hres ⟨?_, ?_, fun _ hm => List.mem_append_left _ hm⟩
    · simp only [rememberPeer, hx']
    simp only [negotiateFilter, hreq, hres, Option.isSome_none, Bool.false_eq_true,
      if_false] at hfilter
    split at hfilter
    · cases hfilter
    · exact (Except.ok.inj hfilter).symm
  | request hr hx hcc hoffer =>
    have hx' := hdel.extension.trans hx
    have hreq : msg'.handshakeRequest = some d.extensionParameters := by
      simp only [HandshakeMessage.handshakeRequest, hx']
    have hres : msg'.handshakeResponse = none := by
      simp only [HandshakeMessage.handshakeResponse, hx']
    have hoffer' : msg'.packetFilter = presentIf d.packetFilterConfiguration.val.enabled
        d.packetFilterConfiguration.val := by
      rw [hdel.packetFilter, hoffer, bind_checkedFilter]
    obtain ⟨hset, hsettles⟩ := filter_of_request hc (by rw [hreq]; rfl) hoffer' hfilter
    have hcontroller : d.congestionController = c.congestionController := by
      simp only [checkController, hreq, hdel.congestion, hcc, controllerExtension_getD, hc,
        refuseIf] at hctrl
      split at hctrl
      · cases hctrl
      split at hctrl
      · cases hctrl
      · next heq => exact not_not.1 heq
    refine .request ((roleOf_swap hne).1 hr) (by rw [hreq]; rfl) hres
      ⟨?_, hset, hsettles, hcontroller, ?_⟩
    · simp only [rememberPeer, hx']
    · exact ⟨msg', by simp, hdel.socketId, hdel.cookie, hreq⟩
  | response hr hp hx hanswer =>
    have hx' := hdel.extension.trans hx
    have hreq : msg'.handshakeRequest = none := by
      simp only [HandshakeMessage.handshakeRequest, hx']
    have hres : msg'.handshakeResponse.isSome := by
      simp only [HandshakeMessage.handshakeResponse, hx', Option.isSome_some]
    have hrole := (roleOf_swap hne).2 hr
    have hbefore : c.packetFilterConfiguration.val.enabled = false →
        p.machine.negotiatedPacketFilter = settledFilter d c := by
      intro hoff
      rcases h.initiator hrole with ⟨_, hdefault, _⟩ | ⟨hans, _⟩
      · rw [hdefault, settledFilter, hoff]
        rfl
      · exact hans.filter
    have hset := filter_of_response hc hreq hres (by rw [hdel.packetFilter, hanswer])
      hp.settles hbefore hfilter
    refine .response hrole hreq ⟨?_, hset⟩ hp
    simp only [rememberPeer, hx']

/-- Recording a message of the peer keeps the side's invariant. -/
theorem Side.admitted (h : Side c d p q sent)
    (hdel : Delivered d msg msg') {a : RendezvousHandshakeMachine}
    (ha : p.machine.examine msg' = .ok a) (hrec : Recorded c d p ⟨a, p.recorded ++ [msg']⟩ q msg') :
    a.role = roleOf c d ∧ Side c d ⟨a, p.recorded ++ [msg']⟩ q sent := by
  obtain ⟨role, filter, _, _, hrole, _, _, _, _, rfl⟩ := examine_ok_iff.1 ha
  obtain rfl := resolveRole_ok h hdel.cookie hrole
  refine ⟨rfl, h.configuration, .inr rfl, fun _ => ?_, fun hs => ?_, ?_, ?_, ?_⟩
  · exact ⟨hdel.socketId, hdel.cookie, hdel.flowWindow, hdel.initialSequence⟩
  · show roleOf c d ≠ .unresolved
    rw [← h.role.resolve_left (h.engaged hs)]
    exact h.engaged hs
  · intro hr
    cases hrec with
    | plain _ _ he =>
      rcases h.responder hr with ⟨hnone, hno⟩ | hp
      · exact .inl ⟨he.parameters.trans hnone, hno⟩
      · exact .inr (hp.mono he)
    | request _ _ _ hp => exact .inr hp
    | response hr' => rw [hr] at hr'; cases hr'
  · intro hr
    cases hrec with
    | plain _ _ he =>
      rcases h.initiator hr with ⟨hnone, hfilter, hno⟩ | ⟨hans, hp⟩
      · exact .inl ⟨he.parameters.trans hnone, he.filter.trans hfilter, hno⟩
      · exact .inr ⟨hans.mono he, hp⟩
    | request hr' => rw [hr] at hr'; cases hr'
    | response _ _ hans hp => exact .inr ⟨hans, hp⟩
  intro out hout
  refine (h.sent out hout).mono fun hr hp => ?_
  cases hrec with
  | plain _ _ he => exact hp.mono he
  | request _ _ _ hp' => exact hp'
  | response hr' => rw [hr] at hr'; cases hr'

end Step

/-! ## Runs -/

theorem moves_perform (m : RendezvousHandshakeMachine) (e : Operation) :
    Moves m false false (perform m e) := by
  cases e with
  | start => exact moves_start m
  | timeout => exact moves_timeout m
  | noteConnectedPacket => exact moves_noteConnectedPacket m

section Run

variable {c : Bool → RendezvousConfiguration} {s : Lts.Duplex Peer HandshakeMessage}

theorem side_init (c d : RendezvousConfiguration) :
    Side c d { machine := { configuration := c } } { machine := { configuration := d } } [] where
  configuration := rfl
  role := .inl rfl
  known := fun h => absurd rfl h
  engaged := by rintro (h | h) <;> cases h
  responder := fun _ => .inl ⟨rfl, rfl⟩
  initiator := fun _ => .inl ⟨rfl, rfl, nofun⟩
  sent := by intro msg h; cases h

variable {i : Bool}

/-- A side that has kept its invariant while acting keeps the joint one,
provided it has not lost what it processed. -/
theorem agreement_put {r : Peer × List HandshakeMessage} (h : Agreement c s)
    (hown : Side (c i) (c !i) r.1 (s.peer !i) (s.sent i ++ r.2))
    (hkept : roleOf (c i) (c !i) = .responder → Processed (c i) (c !i) (s.peer i) →
      Processed (c i) (c !i) r.1)
    (hne : (c !i).localCookie ≠ (c i).localCookie) : Agreement c (s.put i r) := by
  refine Lts.forall_side i ?_ ?_
  · simpa using hown
  have hother := h (!i)
  rw [Bool.not_not] at hother ⊢
  simp only [Lts.Duplex.put_peer_self, Lts.Duplex.put_peer_other, Lts.Duplex.put_sent_other]
  exact hother.other fun hr => hkept ((roleOf_swap hne.symm).1 hr)

theorem agreement_act (h : Agreement c s) (e : Operation)
    (hne : ∀ i, (c i).localCookie ≠ (c !i).localCookie) :
    Agreement c (s.put i (endpoint.act (s.peer i) e)) := by
  have hm := moves_perform (s.peer i).machine e
  refine agreement_put h ?_ (fun _ hp => ?_) (by simpa using hne (!i))
  · exact (h i).moves (hne i) hm nofun nofun
  · exact hp.mono (Peer.extends_moves hm)

theorem agreement_deliver (h : Agreement c s) {msg msg' : HandshakeMessage} (hmem : msg ∈ s.sent !i)
    (hcar : Carries msg msg') (hne : ∀ i, (c i).localCookie ≠ (c !i).localCookie) :
    Agreement c (s.put i (endpoint.receive (s.peer i) msg')) := by
  have hne' : (c !i).localCookie ≠ (c i).localCookie := by simpa using hne (!i)
  have hg : Genuine (c !i) (c i) (s.peer !i) msg := by
    have := (h (!i)).sent msg hmem
    rwa [Bool.not_not] at this
  cases ha : (s.peer i).machine.examine msg' with
  | error refusal =>
    have hm := moves_refuse (s.peer i).machine refusal
    have hr : endpoint.receive (s.peer i) msg'
        = ({ s.peer i with machine := ((s.peer i).machine.refuse refusal).1 },
          sentMessages ((s.peer i).machine.refuse refusal).2) := by
      simp only [endpoint, receive, Peer.record, ha]
    rw [hr]
    exact agreement_put h ((h i).moves (hne i) hm nofun nofun)
      (fun _ hp => hp.mono (Peer.extends_moves hm)) hne'
  | ok a =>
    have hrec := (h i).recorded (hne i) hg hcar ha
    obtain ⟨hrole, hside⟩ := (h i).admitted (hg.delivered hcar) ha hrec
    have hm := moves_advance (m := a) (hrole ▸ roleOf_ne_unresolved (hne i)) msg'
    have hr : endpoint.receive (s.peer i) msg'
        = (⟨(a.advance msg').1, (s.peer i).recorded ++ [msg']⟩,
          sentMessages (a.advance msg').2) := by
      simp only [endpoint, receive, Peer.record, ha]
    rw [hr]
    refine agreement_put h (hside.moves (hne i) hm ?_ ?_) ?_ hne'
    · intro hreq
      cases hrec with
      | plain hno => rw [hno] at hreq; cases hreq
      | request _ _ _ hp => exact hp
      | response _ hno => rw [hno] at hreq; cases hreq
    · intro hres
      cases hrec with
      | plain _ hno => rw [hno] at hres; cases hres
      | request _ _ hno => rw [hno] at hres; cases hres
      | response _ _ hans hp => exact ⟨hans, hp⟩
    intro hresp hp
    refine Processed.mono (p := ⟨a, (s.peer i).recorded ++ [msg']⟩) ?_ (Peer.extends_moves hm)
    cases hrec with
    | plain _ _ he => exact hp.mono he
    | request _ _ _ hp' => exact hp'
    | response hini => rw [hresp] at hini; cases hini

/-- The joint invariant holds in every run. -/
theorem agreement_of_reaches
    {guard : Lts.Duplex Peer HandshakeMessage → Lts.DuplexEvent HandshakeMessage Operation → Prop}
    (hne : ∀ i, (c i).localCookie ≠ (c !i).localCookie) (h : Lts.Reaches (pair c) guard s) :
    Agreement c s :=
  Lts.Duplex.invariant (fun i => side_init (c i) (c !i)) (fun _ _ e hI _ => agreement_act hI e hne)
    (fun _ _ _ _ hI _ hmem hcar => agreement_deliver hI hmem hcar hne) h

/-! ## The agreement -/

/-- Side `i` has recorded the other side as it is. -/
structure KnowsPeer (c : Bool → RendezvousConfiguration)
    (s : Lts.Duplex Peer HandshakeMessage) (i : Bool) : Prop where
  socketId : (s.peer i).machine.peerSocketId = (c !i).localSocketId
  cookie : (s.peer i).machine.peerCookie = (c !i).localCookie
  flowWindow : (s.peer i).machine.peerFlowWindow = (c !i).flowWindow
  initialSequence : (s.peer i).machine.peerInitialSequence = (c !i).initialSequence

/-- The settlement read from side `i`: filter and controller are the other
side's, and so are the live options, with sending and receiving exchanged. -/
structure Settled (c : Bool → RendezvousConfiguration)
    (s : Lts.Duplex Peer HandshakeMessage) (i : Bool) : Prop where
  filter : (s.peer i).machine.negotiatedPacketFilter = (s.peer !i).machine.negotiatedPacketFilter
  controller : (c i).congestionController = (c !i).congestionController
  liveOptions : ∃ own other, (s.peer i).machine.peerExtensionParameters = some own
    ∧ (s.peer !i).machine.peerExtensionParameters = some other
    ∧ (negotiateLiveOptions (c i).extensionParameters own).Mirror
      (negotiateLiveOptions (c !i).extensionParameters other)

theorem Settled.symm (h : Settled c s i) : Settled c s !i := by
  obtain ⟨own, other, ho, ht, hmirror⟩ := h.liveOptions
  refine ⟨?_, ?_, other, own, ht, ?_, ?_⟩
  all_goals rw [Bool.not_not]
  · exact h.filter.symm
  · exact h.controller.symm
  · exact ho
  · exact hmirror.symm

/-- What initiator `i` and the responder share once both are connected. -/
theorem Agreement.connected (h : Agreement c s) (hrole : roleOf (c i) (c !i) = .initiator)
    (hconnected : (s.peer i).machine.state = .connected) :
    Answered (c i) (c !i) (s.peer i) ∧ Processed (c !i) (c i) (s.peer !i) := by
  rcases (h i).initiator hrole with ⟨_, _, hno⟩ | hans
  · exact absurd hconnected hno
  · exact hans

/-- Whatever the network does, two rendezvous peers with distinct cookies
agree: their roles are opposite; once both are connected each has recorded
the other's own identity, they hold the same filter and controller and their
live options mirror each other; and an initiator is connected only after the
responder has recorded that initiator's HSREQ. -/
theorem rendezvous_peers_agree (c : Bool → RendezvousConfiguration)
    (hcookies : (c false).localCookie ≠ (c true).localCookie)
    {s : Lts.Duplex Peer HandshakeMessage} (h : Lts.Reachable (pair c) s) :
    (∀ i, (s.peer i).machine.role ≠ .unresolved → (s.peer !i).machine.role ≠ .unresolved →
      ((s.peer i).machine.role = .initiator ↔ (s.peer !i).machine.role = .responder))
    ∧ ((∀ i, (s.peer i).machine.state = .connected) →
      ∀ i, (s.peer i).machine.role ≠ .unresolved ∧ KnowsPeer c s i ∧ Settled c s i)
    ∧ ∀ i, (s.peer i).machine.role = .initiator → (s.peer i).machine.state = .connected →
      ∃ msg ∈ (s.peer !i).recorded, msg.packet.socketId = (c i).localSocketId
        ∧ msg.packet.synCookie = (c i).localCookie
        ∧ msg.handshakeRequest = some (c i).extensionParameters := by
  have hne : ∀ i, (c i).localCookie ≠ (c !i).localCookie := by
    rintro (_ | _)
    · exact hcookies
    · exact hcookies.symm
  have hI : Agreement c s := agreement_of_reaches hne h
  refine ⟨?_, ?_, ?_⟩
  · intro i hi hj
    rw [(hI i).role.resolve_left hi, (hI !i).role.resolve_left hj, Bool.not_not]
    rcases resolveRendezvousRole_opposite (hne i) with ⟨h1, h2⟩ | ⟨h1, h2⟩
    all_goals simp [roleOf, h1, h2]
  · intro hconn
    have hresolved : ∀ i, (s.peer i).machine.role ≠ .unresolved := fun i =>
      (hI i).engaged (.inr (by rw [hconn i]; rfl))
    obtain ⟨i, hrole⟩ : ∃ i, roleOf (c i) (c !i) = .initiator := by
      rcases resolveRendezvousRole_opposite hcookies with ⟨h1, _⟩ | ⟨_, h2⟩
      · exact ⟨false, h1⟩
      · exact ⟨true, h2⟩
    obtain ⟨hans, hproc⟩ := hI.connected hrole (hconn i)
    have hown : Settled c s i :=
      ⟨hans.filter.trans hproc.filter.symm, hproc.controller, _, _, hans.parameters,
        hproc.parameters, negotiateLiveOptions_mirror _ _⟩
    have hsettled : ∀ j, Settled c s j := Lts.forall_side i hown hown.symm
    intro j
    obtain ⟨h1, h2, h3, h4⟩ := (hI j).known (hresolved j)
    exact ⟨hresolved j, ⟨h1, h2, h3, h4⟩, hsettled j⟩
  intro i hi hc
  have hrole : roleOf (c i) (c !i) = .initiator := by
    rw [← (hI i).role.resolve_left (by rw [hi]; exact nofun), hi]
  exact (hI.connected hrole hc).2.recorded

end Run

/-! Two default configurations; the cookies make side `false` the initiator.
In `exampleRun` both sides have waved before they hear of each other. -/

def exampleConfigurations (i : Bool) : RendezvousConfiguration :=
  if i then { localSocketId := 2, localCookie := 1 } else { localSocketId := 1, localCookie := 2 }

def exampleStart : Lts.Duplex Peer HandshakeMessage :=
  ⟨fun i => { machine := { configuration := exampleConfigurations i } }, fun _ => []⟩

def exampleRun : List (Lts.Script Operation) :=
  [.act false .start, .act true .start, .deliver true 0, .deliver false 0, .deliver true 1,
    .deliver false 2, .deliver true 2]

theorem rendezvous_peers_agree_exampleRun :
    ∃ s, Lts.Reachable (pair exampleConfigurations) s
    ∧ (∀ i, (s.peer i).machine.state = .connected)
    ∧ KnowsPeer exampleConfigurations s false ∧ Settled exampleConfigurations s false := by
  have hrun : (endpoint.exec transmit (fun _ _ => true) exampleStart exampleRun).map
      (fun s => ((s.peer false).machine.state, (s.peer true).machine.state))
      = some (.connected, .connected) := by decide +kernel
  obtain ⟨s, hs, hconn⟩ := Option.map_eq_some_iff.1 hrun
  have hreach : Lts.Reachable (pair exampleConfigurations) s :=
    (Lts.Endpoint.exec_reaches carries_of_transmit (.start rfl) hs).mono fun _ _ _ => trivial
  have hstates : ∀ i, (s.peer i).machine.state = .connected := by
    rintro (_ | _)
    · exact congrArg Prod.fst hconn
    · exact congrArg Prod.snd hconn
  have h := rendezvous_peers_agree exampleConfigurations (by decide) hreach
  exact ⟨s, hreach, hstates, (h.2.1 hstates false).2⟩

end Srt.Rendezvous
