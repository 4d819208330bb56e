/-
# `Undisturbed` — retries and late datagrams of a willing pair

A caller and a listener that would connect if every datagram arrived once.
They repeat datagrams and the network repeats them again; whether one of the
machines can be brought down that way is decided by what it does with a
datagram that comes too late.

Every machine of such a run is known up to its retry counter, and so is every
datagram up to fields no check reads (`essence`).  Both ends advance in
stages, and the invariant is a pair of inequalities between the two stages.
-/
import Srt.Handshake.MachineAgreement

namespace Srt.Undisturbed

open HandshakeMachine CallerListener

variable {m : HandshakeMachine} {x y : HandshakeMessage}

/-! ## The runs -/

/-- A step of the two machines puts the message `x` into the other's hands. -/
def Hands (r : HandshakeMachine × List HandshakeAction) (x : HandshakeMessage) : Prop :=
  ∃ y ∈ sentMessages r.2, Carries y x

/-- The exchange in which every datagram arrives once connects both. -/
structure Acceptable (c l : HandshakeConfiguration) : Prop where
  caller : c.role = .caller
  listener : l.role = .listener
  exchange : ∃ x₁ y₁ x₂ y₂,
    Hands (ofConfiguration c).start x₁
    ∧ Hands ((ofConfiguration l).receive x₁) y₁
    ∧ Hands ((ofConfiguration c).start.1.receive y₁) x₂
    ∧ Hands (((ofConfiguration l).receive x₁).1.receive x₂) y₂
    ∧ (((ofConfiguration l).receive x₁).1.receive x₂).1.state = .connected
    ∧ (((ofConfiguration c).start.1.receive y₁).1.receive y₂).1.state = .connected

/-- The first message of a step, delivered through `transmit`. -/
def handed (r : HandshakeMachine × List HandshakeAction) : Option HandshakeMessage :=
  (sentMessages r.2).head?.bind transmit

/-- The exchange, executed: the states both machines end in. -/
def exchange (c l : HandshakeConfiguration) : Option (HandshakeState × HandshakeState) := do
  let caller := (ofConfiguration c).start
  let x₁ ← handed caller
  let listener := (ofConfiguration l).receive x₁
  let y₁ ← handed listener
  let caller := caller.1.receive y₁
  let x₂ ← handed caller
  let listener := listener.1.receive x₂
  let y₂ ← handed listener
  some ((caller.1.receive y₂).1.state, listener.1.state)

theorem hands_of_handed {r : HandshakeMachine × List HandshakeAction} (h : handed r = some x) :
    Hands r x := by
  obtain ⟨y, hy, hx⟩ := Option.bind_eq_some_iff.1 h
  exact ⟨y, List.mem_of_head? hy, carries_of_transmit y x hx⟩

theorem acceptable_of_exchange {c l : HandshakeConfiguration} (hc : c.role = .caller)
    (hl : l.role = .listener) (h : exchange c l = some (.connected, .connected)) :
    Acceptable c l := by
  obtain ⟨x₁, h₁, h⟩ := Option.bind_eq_some_iff.1 h
  obtain ⟨y₁, h₂, h⟩ := Option.bind_eq_some_iff.1 h
  obtain ⟨x₂, h₃, h⟩ := Option.bind_eq_some_iff.1 h
  obtain ⟨y₂, h₄, h⟩ := Option.bind_eq_some_iff.1 h
  have hstates := Option.some.inj h
  have hcaller := congrArg Prod.fst hstates
  have hlistener := congrArg Prod.snd hstates
  exact ⟨hc, hl, x₁, y₁, x₂, y₂, hands_of_handed h₁, hands_of_handed h₂, hands_of_handed h₃,
    hands_of_handed h₄, hlistener, hcaller⟩

/-- The caller is started once, a timer fires where it was armed and below the
retry limit, and nothing else is done to the machines. -/
def Admissible (s : Lts.Duplex HandshakeMachine HandshakeMessage) :
    Lts.DuplexEvent HandshakeMessage Operation → Prop
  | .act i .start => i = false ∧ (s.peer i).state = .idle
  | .act i .timeout => (s.peer i).state ≠ .idle
      ∧ ((s.peer i).state = .connected
        ∨ (s.peer i).retryCount < (s.peer i).configuration.maximumRetries)
  | .act _ _ => False
  | .deliver _ _ _ => True

/-- No INDUCTION reaches the listener behind its first one. -/
def InTime (s : Lts.Duplex HandshakeMachine HandshakeMessage) :
    Lts.DuplexEvent HandshakeMessage Operation → Prop
  | .deliver true _ received => received.packet.request = .induction → (s.peer true).state = .idle
  | _ => True

instance (s : Lts.Duplex HandshakeMachine HandshakeMessage) : DecidablePred (InTime s)
  | .deliver true _ _ => inferInstanceAs (Decidable (_ → _))
  | .deliver false _ _ => .isTrue trivial
  | .act _ _ => .isTrue trivial

instance (s : Lts.Duplex HandshakeMachine HandshakeMessage) :
    DecidablePred (Admissible s)
  | .act _ .start => inferInstanceAs (Decidable (_ ∧ _))
  | .act _ .timeout => inferInstanceAs (Decidable (_ ∧ _))
  | .act _ (.reject _) => .isFalse id
  | .act _ (.setSessionAuthentication _) => .isFalse id
  | .act _ (.setKeyMaterialRequest _ _) => .isFalse id
  | .deliver _ _ _ => .isTrue trivial

/-! ## What the checks read -/

/-- The message without what no check of either machine reads. -/
def essence (x : HandshakeMessage) : HandshakeMessage :=
  { x with
    packet := { x.packet with extensionField := 0, encryptionField := 0 }
    keyMaterial := none
    streamId := none
    implementationIdentity := {} }

/-- The essence of a message as it arrives. -/
def arrived (x : HandshakeMessage) : HandshakeMessage :=
  essence (x.received x.packet {})

theorem arrived_essence (x : HandshakeMessage) : arrived (essence x) = arrived x := rfl

theorem essence_of_carries (h : Carries x y) : essence y = arrived x := by
  obtain ⟨packet, identity, hpacket, rfl⟩ := h.received
  rcases hpacket with rfl | ⟨-, rfl⟩
  · rfl
  · rfl

/-! ## The machines of a run -/

section Machines

variable (c l : HandshakeConfiguration) (k : UInt32)

/-- The caller behind its INDUCTION, after `n` retries. -/
def asking (n : Nat) : HandshakeMachine :=
  { ofConfiguration c with state := .awaitingInductionResponse, retryCount := n }

/-- The listener with the cookie `k` of the INDUCTION. -/
def waiting (n : Nat) : HandshakeMachine :=
  { ofConfiguration l with
    state := .awaitingConclusionResponse
    peerSocketId := c.localSocketId
    negotiatedInitialSequence := c.initialSequence
    peerInitialSequence := c.initialSequence
    cookie := k
    retryCount := n }

/-- The caller behind its CONCLUSION. -/
def concluding (n : Nat) : HandshakeMachine :=
  { ofConfiguration c with
    state := .awaitingConclusionResponse
    peerSocketId := l.localSocketId
    cookie := k
    retryCount := n }

/-- The listener that has accepted the CONCLUSION `x`. -/
def settled (f : PacketFilterConfiguration)
    (answer : Option (GroupMembership × Option MulticastDispatch)) (x : HandshakeMessage) :
    HandshakeMachine :=
  { { waiting c l k 0 with
      negotiatedPacketFilter := f
      peerStreamId := x.streamId
      peerPathIdentifier := x.pathIdentifier.getD {} }.recordCaller x answer with
    state := .connected }

def inductionRequest : HandshakeMessage := { packet := (ofConfiguration c).basePacket .induction }

def conclusion : HandshakeMessage := (concluding c l k 0).conclusionRequest

/-- The essence of every CONCLUSION response. -/
def response (f : PacketFilterConfiguration)
    (answer : Option (GroupMembership × Option MulticastDispatch)) : HandshakeMessage :=
  essence ((settled c l k f answer (arrived (conclusion c l k))).firstResponse
    (arrived (conclusion c l k)))

/-- An INDUCTION response with the cookie `k`, first or repeated. -/
structure Invites (y : HandshakeMessage) : Prop where
  request : y.packet.request = .induction
  version : y.packet.version = handshakeVersion5
  magic : y.packet.extensionField = handshakeSrtMagic
  cookie : y.packet.synCookie = k
  socketId : y.packet.socketId = l.localSocketId

end Machines

/-! ## Receiving -/

section Receiving

variable {m : HandshakeMachine} {x : HandshakeMessage}

theorem receive_invalid (h : m.validStandbyRttConfiguration = false) : m.receive x = m.fail := by
  unfold receive
  rw [if_pos h]

theorem receive_listener (hrole : m.configuration.role = .listener)
    (hvalid : m.validStandbyRttConfiguration = true)
    (hrequest : x.packet.request = .induction ∨ x.packet.request = .conclusion) :
    m.receive x = m.receiveListener x := by
  have hstale : m.isStaleInduction x = false := by simp [isStaleInduction, hrole]
  unfold receive
  rw [hvalid, if_neg nofun, hstale, if_neg nofun]
  rcases hrequest with hr | hr <;> rw [hr, hrole]

theorem receive_caller (hrole : m.configuration.role = .caller)
    (hvalid : m.validStandbyRttConfiguration = true)
    (hrequest : x.packet.request = .induction ∨ x.packet.request = .conclusion)
    (hstale : m.isStaleInduction x = false) : m.receive x = m.receiveCaller x := by
  unfold receive
  rw [hvalid, if_neg nofun, hstale, if_neg nofun]
  rcases hrequest with hr | hr <;> rw [hr, hrole]

theorem receive_stale (hvalid : m.validStandbyRttConfiguration = true)
    (hstale : m.isStaleInduction x = true) : m.receive x = (m, []) := by
  unfold receive
  rw [hvalid, if_neg nofun, hstale, if_pos rfl]

/-- A machine that has anything to say, or is connected, has passed the check
of its own configuration. -/
theorem valid_of_hands (h : Hands (m.receive x) y) : m.validStandbyRttConfiguration = true := by
  by_contra hinvalid
  rw [receive_invalid (Bool.eq_false_iff.2 hinvalid)] at h
  obtain ⟨_, hy, -⟩ := h
  cases hy

theorem valid_of_startable (h : m.startable = true) : m.validStandbyRttConfiguration = true := by
  simp only [startable, Bool.and_eq_true] at h
  exact h.1.1.1

end Receiving

/-! ## The steps of the exchange -/

section Exchange

variable {c l : HandshakeConfiguration} {k : UInt32} {f : PacketFilterConfiguration}
  {answer : Option (GroupMembership × Option MulticastDispatch)} {x y : HandshakeMessage}

theorem packet_of_inductionRequest (h : Carries (inductionRequest c) x) :
    x.packet = (ofConfiguration c).basePacket .induction := by
  obtain ⟨packet, identity, hpacket, rfl⟩ := h.received
  rcases hpacket with rfl | ⟨hrequest, -⟩
  · rfl
  · cases hrequest

theorem Invites.delivered (h : Invites l k x) (hcarries : Carries x y) : Invites l k y := by
  obtain ⟨packet, identity, hpacket, rfl⟩ := hcarries.received
  rcases hpacket with rfl | ⟨hrequest, -⟩
  · exact ⟨h.request, h.version, h.magic, h.cookie, h.socketId⟩
  rw [h.request] at hrequest
  cases hrequest

theorem start_of_startable (h : (ofConfiguration c).startable = true) : (ofConfiguration c).start
      = (asking c 0, [.send (inductionRequest c), (asking c 0).armTimer]) := by
  unfold start
  rw [if_pos h]
  rfl

theorem startable_of_hands (h : Hands (ofConfiguration c).start x) :
    (ofConfiguration c).startable = true := by
  by_contra hno
  unfold start at h
  rw [if_neg hno] at h
  obtain ⟨_, hy, -⟩ := h
  cases hy

/-- The INDUCTION at the idle listener. -/
structure CookieMade (c l : HandshakeConfiguration) (k : UInt32) : Prop where
  standby : (ofConfiguration l).validStandbyRttConfiguration = true
  generator : ∃ g, l.cookieGenerator = some g ∧ g ((ofConfiguration c).basePacket .induction) = k
  nonzero : k ≠ 0

theorem receive_inductionRequest (hrole : l.role = .listener) (h : CookieMade c l k)
    (hx : x.packet = (ofConfiguration c).basePacket .induction) :
    ∃ field, (ofConfiguration l).receive x = (waiting c l k 0,
      [.send ((waiting c l k 0).inductionResponse field), (waiting c l k 0).armTimer]) := by
  obtain ⟨g, hg, hk⟩ := h.generator
  have hrequest : x.packet.request = .induction := by rw [hx]; rfl
  have hreceive : (ofConfiguration l).receive x
      = (ofConfiguration l).receiveInduction x.packet := by
    rw [receive_listener hrole h.standby (.inl hrequest)]
    unfold receiveListener
    rw [hrequest]
    rfl
  refine ⟨(ofConfiguration l).answeredEncryptionField x.packet, ?_⟩
  have hversion : ¬ ((ofConfiguration c).basePacket .induction).version ≠ handshakeVersion4 :=
    not_not.2 rfl
  rw [hreceive, hx]
  unfold receiveInduction
  rw [if_neg hversion, show (ofConfiguration l).configuration.cookieGenerator = some g from hg]
  dsimp only
  rw [hk, if_neg h.nonzero]
  rfl

theorem cookieMade_of_hands (hrole : l.role = .listener)
    (hx : x.packet = (ofConfiguration c).basePacket .induction)
    (h : Hands ((ofConfiguration l).receive x) y) : ∃ k, CookieMade c l k := by
  have hvalid := valid_of_hands h
  have hrequest : x.packet.request = .induction := by rw [hx]; rfl
  rw [receive_listener hrole hvalid (.inl hrequest)] at h
  unfold receiveListener at h
  rw [hrequest, hx] at h
  change Hands ((ofConfiguration l).receiveInduction _) y at h
  unfold receiveInduction at h
  obtain ⟨_, hy, -⟩ := h
  split at hy
  · cases hy
  split at hy
  · cases hy
  next g hg =>
  dsimp only at hy
  split at hy
  · cases hy
  · next hnonzero => exact ⟨_, hvalid, ⟨g, hg, rfl⟩, hnonzero⟩

theorem invites_inductionResponse (n field : Nat) :
    Invites l k ((waiting c l k n).inductionResponse field) :=
  ⟨rfl, rfl, rfl, rfl, rfl⟩

/-- The INDUCTION response at the caller. -/
theorem receive_inductionResponse (hrole : c.role = .caller)
    (hvalid : (ofConfiguration c).validStandbyRttConfiguration = true) (hk : k ≠ 0)
    (h : Invites l k y) (n : Nat) :
    (asking c n).receive y
      = (concluding c l k 0, [.send (conclusion c l k), (asking c n).armTimer]) := by
  have hreceive : (asking c n).receive y = (asking c n).receiveInductionResponse y.packet := by
    rw [receive_caller (m := asking c n) hrole hvalid (.inl h.request)
      (by simp [isStaleInduction, asking])]
    unfold receiveCaller
    rw [h.request]
    show (if y.packet.synCookie ≠ 0 then _ else _) = _
    rw [if_pos (by rw [h.cookie]; exact hk)]
  rw [hreceive]
  unfold receiveInductionResponse
  rw [if_neg (not_not.2 h.version), if_neg (not_not.2 h.magic), h.cookie, h.socketId]
  rfl

/-- The listener's decision on the caller's CONCLUSION. -/
structure Decided (c l : HandshakeConfiguration) (k : UInt32) (f : PacketFilterConfiguration)
    (answer : Option (GroupMembership × Option MulticastDispatch)) : Prop where
  check : (waiting c l k 0).checkConclusion (arrived (conclusion c l k)) = .ok f
  group : (waiting c l k 0).answerGroup (arrived (conclusion c l k)) = .ok answer
  unauthenticated : l.requireSessionAuthentication = false

/-- The fields of the fixed part that survive in every arrival of the
CONCLUSION. -/
theorem packet_of_conclusion (h : essence x = arrived (conclusion c l k)) :
    x.packet.request = .conclusion ∧ x.packet.version = handshakeVersion5
      ∧ x.packet.synCookie = k ∧ x.packet.socketId = c.localSocketId := by
  have hpacket := congrArg HandshakeMessage.packet h
  exact ⟨congrArg Handshake.request hpacket, congrArg Handshake.version hpacket,
    congrArg Handshake.synCookie hpacket, congrArg Handshake.socketId hpacket⟩

section

variable (hrole : l.role = .listener)
  (hvalid : (ofConfiguration l).validStandbyRttConfiguration = true) (hk : k ≠ 0)
include hrole hvalid hk

theorem receive_conclusion_eq (hx : essence x = arrived (conclusion c l k)) (n : Nat) :
    (waiting c l k n).receive x = (waiting c l k n).receiveConclusion x := by
  obtain ⟨hrequest, -, hcookie, -⟩ := packet_of_conclusion hx
  rw [receive_listener (m := waiting c l k n) hrole hvalid (.inr hrequest)]
  unfold receiveListener
  rw [hrequest]
  show (if k ≠ 0 ∧ x.packet.synCookie = k then _ else _) = _
  rw [if_pos ⟨hk, hcookie⟩]

theorem receive_conclusion (h : Decided c l k f answer)
    (hx : essence x = arrived (conclusion c l k)) (n : Nat) :
    (waiting c l k n).receive x = (settled c l k f answer x,
      [.send ((settled c l k f answer x).firstResponse x), .connected]) := by
  have hcheck : (waiting c l k n).checkConclusion x = .ok f := by
    rw [← h.check, ← hx]
    rfl
  have hgroup : ∀ g s p, { waiting c l k n with
      negotiatedPacketFilter := g, peerStreamId := s, peerPathIdentifier := p }.answerGroup x
      = .ok answer := by
    intro g s p
    rw [← h.group, ← hx]
    rfl
  rw [receive_conclusion_eq hrole hvalid hk hx]
  unfold receiveConclusion
  rw [hcheck]
  dsimp only
  rw [hgroup]
  dsimp only
  unfold answerConclusion
  rw [if_neg (by
    show ¬ l.requireSessionAuthentication = true
    rw [h.unauthenticated]
    exact Bool.false_ne_true)]
  rfl

end

theorem reject_state (m : HandshakeMachine) (reason : Int) :
    (m.reject reason).1.state ≠ .connected := by
  unfold HandshakeMachine.reject
  split
  · exact nofun
  · exact nofun

theorem answerConclusion_connected (h : (m.answerConclusion x).1.state = .connected) :
    m.configuration.requireSessionAuthentication = false := by
  unfold answerConclusion at h
  dsimp only at h
  split at h
  · cases h
  · next hrequire => exact Bool.eq_false_iff.2 hrequire

theorem decided_of_connected (hrole : l.role = .listener)
    (hvalid : (ofConfiguration l).validStandbyRttConfiguration = true) (hk : k ≠ 0)
    (hx : essence x = arrived (conclusion c l k))
    (h : ((waiting c l k 0).receive x).1.state = .connected) :
    ∃ f answer, Decided c l k f answer := by
  rw [receive_conclusion_eq hrole hvalid hk hx] at h
  unfold receiveConclusion at h
  split at h
  · exact absurd h (reject_state _ _)
  next f hcheck =>
  dsimp only at h
  split at h
  · exact absurd h (reject_state _ _)
  next answer hgroup =>
  refine ⟨f, answer, ?_, ?_, ?_⟩
  · rw [← hx]
    exact hcheck
  · rw [← hx]
    exact hgroup
  · exact answerConclusion_connected h

/-- Every response the settled listener gives has one essence. -/
theorem essence_conclusionResponse (hx : essence x = arrived (conclusion c l k))
    (hy : essence y = arrived (conclusion c l k)) (field : UInt16) (encryption : Nat) :
    essence ((settled c l k f answer x).conclusionResponse y
      { (settled c l k f answer x).basePacket .conclusion with
        extensionField := field, encryptionField := encryption }) = response c l k f answer := by
  unfold response
  have hboth : essence ((settled c l k f answer x).conclusionResponse y
      { (settled c l k f answer x).basePacket .conclusion with
        extensionField := field, encryptionField := encryption })
      = essence ((settled c l k f answer (essence x)).conclusionResponse (essence y)
        { (settled c l k f answer x).basePacket .conclusion with
          extensionField := field, encryptionField := encryption }) := rfl
  rw [hboth, hx, hy]
  rfl

theorem repeatConclusion_cases (m : HandshakeMachine) (y : HandshakeMessage) :
    m.repeatConclusion y = (m, []) ∨ ∃ field, m.repeatConclusion y = (m,
      [.send (m.conclusionResponse y
        { m.basePacket .conclusion with extensionField := field })]) := by
  unfold repeatConclusion
  split
  · exact .inl rfl
  · exact .inr ⟨_, rfl⟩

theorem receive_conclusion_again (hrole : l.role = .listener)
    (hvalid : (ofConfiguration l).validStandbyRttConfiguration = true)
    (hx : essence x = arrived (conclusion c l k)) (hy : essence y = arrived (conclusion c l k)) :
    ((settled c l k f answer x).receive y).1 = settled c l k f answer x
      ∧ ∀ z ∈ sentMessages ((settled c l k f answer x).receive y).2,
        essence z = response c l k f answer := by
  obtain ⟨hrequest, -, hcookie, -⟩ := packet_of_conclusion hy
  have hreceive : (settled c l k f answer x).receive y
      = (settled c l k f answer x).repeatConclusion y := by
    rw [receive_listener (m := settled c l k f answer x) hrole hvalid (.inr hrequest)]
    unfold receiveListener
    rw [hrequest]
    show (if y.packet.synCookie = k then _ else _) = _
    rw [if_pos hcookie]
  rw [hreceive]
  rcases repeatConclusion_cases (settled c l k f answer x) y with h | ⟨field, h⟩
  · rw [h]
    exact ⟨rfl, by simp⟩
  rw [h]
  refine ⟨rfl, fun z hz => ?_⟩
  rw [sentMessages_send, sentMessages_nil, List.mem_singleton] at hz
  rw [hz]
  exact essence_conclusionResponse hx hy field _

/-- The caller's decision on the listener's response. -/
structure Taken (c l : HandshakeConfiguration) (k : UInt32) (f : PacketFilterConfiguration)
    (answer : Option (GroupMembership × Option MulticastDispatch)) : Prop where
  checks : ∃ p g,
    (arrived (response c l k f answer)).handshakeExtension = some (.handshakeResponse, p)
    ∧ (concluding c l k 0).checkResponse (arrived (response c l k f answer)) p = .ok g
    ∧ (concluding c l k 0).checkGroupResponse (arrived (response c l k f answer)) p = .ok ()
  unauthenticated : c.requireSessionAuthentication = false

theorem packet_of_response (h : essence y = arrived (response c l k f answer)) :
    y.packet.request = .conclusion ∧ y.packet.version = handshakeVersion5
      ∧ y.packet.synCookie = k ∧ y.sessionAuthentication = none := by
  have hpacket := congrArg HandshakeMessage.packet h
  exact ⟨congrArg Handshake.request hpacket, congrArg Handshake.version hpacket,
    congrArg Handshake.synCookie hpacket, congrArg HandshakeMessage.sessionAuthentication h⟩

theorem receive_response_eq (hrole : c.role = .caller)
    (hvalid : (ofConfiguration c).validStandbyRttConfiguration = true)
    (hy : essence y = arrived (response c l k f answer)) (n : Nat) :
    (concluding c l k n).receive y = (concluding c l k n).receiveConclusionResponse y := by
  obtain ⟨hrequest, -, hcookie, -⟩ := packet_of_response hy
  rw [receive_caller (m := concluding c l k n) hrole hvalid (.inr hrequest)
    (by simp [isStaleInduction, hrequest])]
  unfold receiveCaller
  rw [hrequest]
  show (if y.packet.synCookie = k then _ else _) = _
  rw [if_pos hcookie]

theorem confirmSession_unauthenticated (hnone : y.sessionAuthentication = none)
    (h : m.configuration.requireSessionAuthentication = false) :
    (m.confirmSession y).1.state = .connected
      ∧ (m.confirmSession y).1.configuration = m.configuration
      ∧ sentMessages (m.confirmSession y).2 = [] := by
  have hsame : ¬ y.sessionAuthentication.isSome ≠ false := by simp [hnone]
  unfold confirmSession
  dsimp only
  rw [h, if_neg hsame, if_neg Bool.false_ne_true]
  refine ⟨rfl, ?_, rfl⟩
  split
  · rfl
  · rfl

theorem unauthenticated_of_confirmSession (hnone : y.sessionAuthentication = none)
    (h : (m.confirmSession y).1.state = .connected) :
    m.configuration.requireSessionAuthentication = false := by
  unfold confirmSession at h
  dsimp only at h
  split at h
  · cases h
  next hsame =>
  rw [hnone] at hsame
  exact (not_not.1 hsame).symm

section

variable (hrole : c.role = .caller)
  (hvalid : (ofConfiguration c).validStandbyRttConfiguration = true)
include hrole hvalid

theorem receive_response (h : Taken c l k f answer)
    (hy : essence y = arrived (response c l k f answer)) (n : Nat) :
    ((concluding c l k n).receive y).1.state = .connected
      ∧ ((concluding c l k n).receive y).1.configuration = c
      ∧ sentMessages ((concluding c l k n).receive y).2 = [] := by
  obtain ⟨p, g, hextension, hcheck, hgroup⟩ := h.checks
  obtain ⟨-, hversion, -, hnone⟩ := packet_of_response hy
  have hextension' : y.handshakeExtension = some (.handshakeResponse, p) := by
    rw [← hextension, ← hy]
    rfl
  have hcheck' : (concluding c l k n).checkResponse y p = .ok g := by
    rw [← hcheck, ← hy]
    rfl
  have hgroup' : { concluding c l k n with negotiatedPacketFilter := g }.checkGroupResponse y p
      = .ok () := by
    rw [← hgroup, ← hy]
    rfl
  rw [receive_response_eq hrole hvalid hy]
  unfold receiveConclusionResponse
  rw [if_neg (not_not.2 hversion), hextension']
  dsimp only
  rw [if_neg (not_not.2 rfl), hcheck']
  dsimp only
  rw [hgroup']
  exact confirmSession_unauthenticated hnone h.unauthenticated

theorem taken_of_connected (hy : essence y = arrived (response c l k f answer))
    (h : ((concluding c l k 0).receive y).1.state = .connected) : Taken c l k f answer := by
  obtain ⟨-, hversion, -, hnone⟩ := packet_of_response hy
  rw [receive_response_eq hrole hvalid hy] at h
  unfold receiveConclusionResponse at h
  rw [if_neg (not_not.2 hversion)] at h
  split at h
  · cases h
  next type p hextension =>
  split at h
  · cases h
  next htype =>
  split at h
  · cases h
  next g hcheck =>
  dsimp only at h
  split at h
  · cases h
  next hgroup =>
  have hunauthenticated := unauthenticated_of_confirmSession hnone h
  refine ⟨⟨p, g, ?_, ?_, ?_⟩, hunauthenticated⟩
  · rw [← hy, ← not_not.1 htype]
    exact hextension
  · rw [← hy]
    exact hcheck
  rw [← hy]
  exact hgroup

end

/-- All that the two machines decide in a run. -/
structure Terms (c l : HandshakeConfiguration) (k : UInt32) (f : PacketFilterConfiguration)
    (answer : Option (GroupMembership × Option MulticastDispatch)) : Prop where
  caller : c.role = .caller
  listener : l.role = .listener
  startable : (ofConfiguration c).startable = true
  cookie : CookieMade c l k
  decided : Decided c l k f answer
  taken : Taken c l k f answer

theorem essence_firstResponse (hx : essence x = arrived (conclusion c l k)) :
    essence ((settled c l k f answer x).firstResponse x) = response c l k f answer :=
  essence_conclusionResponse hx hx _ _

theorem hands_iff {a : HandshakeAction} (ha : sentMessages [a] = []) :
    Hands (m, [.send x, a]) y ↔ Carries x y := by
  unfold Hands
  rw [sentMessages_send, ha]
  simp

theorem response_delivered (h : essence x = response c l k f answer) (hcarries : Carries x y) :
    essence y = arrived (response c l k f answer) := by
  rw [essence_of_carries hcarries, ← arrived_essence, h]

/-- One exchange without loss settles every run. -/
theorem terms_of_acceptable (h : Acceptable c l) : ∃ k f answer, Terms c l k f answer := by
  obtain ⟨hc, hl, x₁, y₁, x₂, y₂, h₁, h₂, h₃, h₄, hlistener, hcaller⟩ := h
  have hstartable := startable_of_hands h₁
  have hvalid := valid_of_startable hstartable
  rw [start_of_startable hstartable] at h₁ h₃ hcaller
  have hx₁ := packet_of_inductionRequest ((hands_iff rfl).1 h₁)
  obtain ⟨k, hcookie⟩ := cookieMade_of_hands hl hx₁ h₂
  obtain ⟨field, hinvited⟩ := receive_inductionRequest hl hcookie hx₁
  rw [hinvited] at h₂ h₄ hlistener
  have hy₁ := (invites_inductionResponse 0 field).delivered ((hands_iff rfl).1 h₂)
  rw [receive_inductionResponse hc hvalid hcookie.nonzero hy₁ 0] at h₃ hcaller
  have hx₂ := essence_of_carries ((hands_iff rfl).1 h₃)
  obtain ⟨f, answer, hdecided⟩ :=
    decided_of_connected hl hcookie.standby hcookie.nonzero hx₂ hlistener
  rw [receive_conclusion hl hcookie.standby hcookie.nonzero hdecided hx₂ 0] at h₄
  have hy₂ := response_delivered (essence_firstResponse hx₂) ((hands_iff rfl).1 h₄)
  exact ⟨k, f, answer, hc, hl, hstartable, hcookie, hdecided,
    taken_of_connected hc hvalid hy₂ hcaller⟩

end Exchange

/-! ## Stages -/

section Stages

variable (c l : HandshakeConfiguration) (k : UInt32) (f : PacketFilterConfiguration)
  (answer : Option (GroupMembership × Option MulticastDispatch))

inductive CallerAt : Nat → HandshakeMachine → Prop
  | idle : CallerAt 0 (ofConfiguration c)
  | asking (n : Nat) : CallerAt 1 (asking c n)
  | concluding (n : Nat) : CallerAt 2 (concluding c l k n)
  | connected {m : HandshakeMachine} (configuration : m.configuration = c)
      (state : m.state = .connected) : CallerAt 3 m

inductive ListenerAt : Nat → HandshakeMachine → Prop
  | idle : ListenerAt 0 (ofConfiguration l)
  | waiting (n : Nat) : ListenerAt 1 (waiting c l k n)
  | settled {x : HandshakeMessage} (conclusion : essence x = arrived (conclusion c l k)) :
      ListenerAt 2 (settled c l k f answer x)

/-- What a caller that has come to stage `i` may have sent. -/
def CallerSaid (i : Nat) (x : HandshakeMessage) : Prop :=
  (x = inductionRequest c ∧ 1 ≤ i) ∨ (x = conclusion c l k ∧ 2 ≤ i)

def ListenerSaid (j : Nat) (y : HandshakeMessage) : Prop :=
  (Invites l k y ∧ 1 ≤ j) ∨ (essence y = response c l k f answer ∧ 2 ≤ j)

/-- Neither end is more than one message ahead of the other. -/
structure Together (s : Lts.Duplex HandshakeMachine HandshakeMessage) (i j : Nat) : Prop where
  caller : CallerAt c l k i (s.peer false)
  listener : ListenerAt c l k f answer j (s.peer true)
  behind : j ≤ i
  ahead : i ≤ j + 1
  callerSent : ∀ x ∈ s.sent false, CallerSaid c l k i x
  listenerSent : ∀ y ∈ s.sent true, ListenerSaid c l k f answer j y

/-- A step `r` of a caller at stage `i`, opposite a listener at stage `j`. -/
def CallerGoes (i j : Nat) (r : HandshakeMachine × List HandshakeAction) : Prop :=
  ∃ i', CallerAt c l k i' r.1 ∧ i ≤ i' ∧ i' ≤ j + 1 ∧ ∀ x ∈ sentMessages r.2, CallerSaid c l k i' x

def ListenerGoes (i j : Nat) (r : HandshakeMachine × List HandshakeAction) : Prop :=
  ∃ j', ListenerAt c l k f answer j' r.1 ∧ j ≤ j' ∧ j' ≤ i
    ∧ ∀ y ∈ sentMessages r.2, ListenerSaid c l k f answer j' y

end Stages

section Steps

variable {c l : HandshakeConfiguration} {k : UInt32} {f : PacketFilterConfiguration}
  {answer : Option (GroupMembership × Option MulticastDispatch)} {m : HandshakeMachine}
  {i j : Nat} {x y : HandshakeMessage}

theorem CallerSaid.mono {i' : Nat} (h : CallerSaid c l k i x) (hi : i ≤ i') :
    CallerSaid c l k i' x :=
  h.imp (fun ⟨hx, h1⟩ => ⟨hx, h1.trans hi⟩) (fun ⟨hx, h2⟩ => ⟨hx, h2.trans hi⟩)

theorem ListenerSaid.mono {j' : Nat} (h : ListenerSaid c l k f answer j y) (hj : j ≤ j') :
    ListenerSaid c l k f answer j' y :=
  h.imp (fun ⟨hy, h1⟩ => ⟨hy, h1.trans hj⟩) (fun ⟨hy, h2⟩ => ⟨hy, h2.trans hj⟩)

theorem CallerAt.undisturbed (h : CallerAt c l k i m) :
    m.state ≠ .failed ∧ m.state ≠ .rejected := by
  cases h with
  | idle | asking n | concluding n => exact ⟨nofun, nofun⟩
  | connected _ hs => rw [hs]; exact ⟨nofun, nofun⟩

theorem ListenerAt.undisturbed (h : ListenerAt c l k f answer j m) :
    m.state ≠ .failed ∧ m.state ≠ .rejected := by
  cases h with
  | idle | waiting n | settled _ => exact ⟨nofun, nofun⟩

theorem timeout_eq {actions : List HandshakeAction}
    (hopen : ¬ (m.state = .connected ∨ m.state = .rejected))
    (hlimit : m.retryCount < m.configuration.maximumRetries)
    (hretry : { m with retryCount := m.retryCount + 1 }.retryActions = some actions) :
    m.timeout = ({ m with retryCount := m.retryCount + 1 }, actions ++ [m.armTimer]) := by
  unfold timeout
  rw [if_neg hopen, if_neg (Nat.not_le.2 hlimit)]
  dsimp only
  rw [hretry]
  rfl

theorem timeout_connected (h : m.state = .connected) : m.timeout = (m, []) := by
  unfold timeout
  rw [if_pos (.inl h)]

theorem callerGoes_stay (h : CallerAt c l k i m) (hahead : i ≤ j + 1) :
    CallerGoes c l k i j (m, []) :=
  ⟨i, h, Nat.le_refl i, hahead, by simp⟩

theorem listenerGoes_stay (h : ListenerAt c l k f answer j m) (hbehind : j ≤ i) :
    ListenerGoes c l k f answer i j (m, []) :=
  ⟨j, h, Nat.le_refl j, hbehind, by simp⟩

section

variable (t : Terms c l k f answer) (h : CallerAt c l k i m)
include t h

theorem callerGoes_timeout (hahead : i ≤ j + 1) (hidle : m.state ≠ .idle)
    (hlimit : m.state = .connected ∨ m.retryCount < m.configuration.maximumRetries) :
    CallerGoes c l k i j m.timeout := by
  cases h with
  | idle => exact absurd rfl hidle
  | asking n =>
    have hretry : (asking c (n + 1)).retryActions = some [.send (inductionRequest c)] := by
      unfold retryActions
      rw [show (asking c (n + 1)).configuration.role = .caller from t.caller]
      rfl
    rw [timeout_eq (by simp [asking]) (hlimit.resolve_left (by simp [asking])) hretry]
    refine ⟨1, .asking (n + 1), Nat.le_refl 1, hahead, fun x hx => .inl ⟨?_, Nat.le_refl 1⟩⟩
    simpa [armTimer] using hx
  | concluding n =>
    have hretry : (concluding c l k (n + 1)).retryActions = some [.send (conclusion c l k)] := by
      unfold retryActions
      rw [show (concluding c l k (n + 1)).configuration.role = .caller from t.caller]
      rfl
    rw [timeout_eq (by simp [concluding]) (hlimit.resolve_left (by simp [concluding])) hretry]
    refine ⟨2, .concluding (n + 1), Nat.le_refl 2, hahead, fun x hx => .inr ⟨?_, Nat.le_refl 2⟩⟩
    simpa [armTimer] using hx
  | connected hconf hs =>
    rw [timeout_connected hs]
    exact callerGoes_stay (.connected hconf hs) hahead

theorem callerGoes_start (hidle : m.state = .idle) : CallerGoes c l k i j m.start := by
  cases h with
  | idle =>
    rw [start_of_startable t.startable]
    refine ⟨1, .asking 0, Nat.zero_le 1, by omega, fun x hx => .inl ⟨?_, Nat.le_refl 1⟩⟩
    simpa [armTimer] using hx
  | asking n => cases hidle
  | concluding n => cases hidle
  | connected _ hs => rw [hs] at hidle; cases hidle

theorem callerGoes_receive (hbehind : j ≤ i) (hahead : i ≤ j + 1)
    (hsaid : ListenerSaid c l k f answer j x) (hcarries : Carries x y) :
    CallerGoes c l k i j (m.receive y) := by
  have hvalid := valid_of_startable t.startable
  cases h with
  | idle =>
    -- Nobody has asked the listener.
    exfalso
    rcases hsaid with ⟨-, hj⟩ | ⟨-, hj⟩ <;> omega
  | asking n =>
    rcases hsaid with ⟨hinvites, hj⟩ | ⟨-, hj⟩
    · rw [receive_inductionResponse t.caller hvalid t.cookie.nonzero (hinvites.delivered hcarries)]
      refine ⟨2, .concluding 0, by omega, by omega, fun x hx => .inr ⟨?_, Nat.le_refl 2⟩⟩
      simpa [armTimer] using hx
    exfalso
    omega
  | concluding n =>
    rcases hsaid with ⟨hinvites, hj⟩ | ⟨hresponse, hj⟩
    · have hrequest := (hinvites.delivered hcarries).request
      have hstale : (concluding c l k n).isStaleInduction y = true := by
        unfold isStaleInduction
        rw [hrequest, show (concluding c l k n).configuration.role = .caller from t.caller]
        rfl
      rw [receive_stale (m := concluding c l k n) hvalid hstale]
      exact callerGoes_stay (.concluding n) hahead
    have hy := response_delivered hresponse hcarries
    obtain ⟨hs, hconf, hquiet⟩ := receive_response t.caller hvalid t.taken hy n
    refine ⟨3, .connected hconf hs, by omega, by omega, ?_⟩
    rw [hquiet]
    simp
  | connected hconf hs =>
    have hrequest : y.packet.request = .induction ∨ y.packet.request = .conclusion := by
      rcases hsaid with ⟨hinvites, -⟩ | ⟨hresponse, -⟩
      · exact .inl (hinvites.delivered hcarries).request
      · exact .inr (packet_of_response (response_delivered hresponse hcarries)).1
    have hvalid' : m.validStandbyRttConfiguration = true := by
      unfold validStandbyRttConfiguration at hvalid ⊢
      rw [hconf]
      exact hvalid
    rw [receive_caller (by rw [hconf]; exact t.caller) hvalid' hrequest
      (by simp [isStaleInduction, hs])]
    unfold receiveCaller
    rw [hs]
    exact callerGoes_stay (.connected hconf hs) hahead

end

section

variable (t : Terms c l k f answer) (h : ListenerAt c l k f answer j m) (hbehind : j ≤ i)
include t h hbehind

theorem listenerGoes_timeout (hidle : m.state ≠ .idle)
    (hlimit : m.state = .connected ∨ m.retryCount < m.configuration.maximumRetries) :
    ListenerGoes c l k f answer i j m.timeout := by
  cases h with
  | idle => exact absurd rfl hidle
  | waiting n =>
    have hretry : (waiting c l k (n + 1)).retryActions
        = some [.send ((waiting c l k (n + 1)).inductionResponse l.encryptionField)] := by
      unfold retryActions
      rw [show (waiting c l k (n + 1)).configuration.role = .listener from t.listener]
      rfl
    rw [timeout_eq (by simp [waiting]) (hlimit.resolve_left nofun) hretry]
    refine ⟨1, .waiting (n + 1), Nat.le_refl 1, hbehind, fun y hy => .inl ⟨?_, Nat.le_refl 1⟩⟩
    obtain rfl : y = _ := by simpa [armTimer] using hy
    exact invites_inductionResponse _ _
  | settled hx =>
    rw [timeout_connected rfl]
    exact listenerGoes_stay (.settled hx) hbehind

/-- A datagram of the caller at the listener, an INDUCTION only in time. -/
theorem listenerGoes_receive (hahead : i ≤ j + 1) (hsaid : CallerSaid c l k i x)
    (hcarries : Carries x y) (htime : y.packet.request = .induction → m.state = .idle) :
    ListenerGoes c l k f answer i j (m.receive y) := by
  have hvalid := t.cookie.standby
  rcases hsaid with ⟨rfl, hi⟩ | ⟨rfl, hi⟩
  · have hpacket := packet_of_inductionRequest hcarries
    have hidle := htime (by rw [hpacket]; rfl)
    cases h with
    | idle =>
      obtain ⟨field, hreceive⟩ := receive_inductionRequest t.listener t.cookie hpacket
      rw [hreceive]
      refine ⟨1, .waiting 0, Nat.zero_le 1, hi, fun y hy => .inl ⟨?_, Nat.le_refl 1⟩⟩
      obtain rfl : y = _ := by simpa [armTimer] using hy
      exact invites_inductionResponse 0 field
    | waiting n => cases hidle
    | settled _ => cases hidle
  have hy := essence_of_carries hcarries
  cases h with
  | idle =>
    -- The caller cannot conclude before it has the cookie.
    exfalso
    omega
  | waiting n =>
    rw [receive_conclusion t.listener hvalid t.cookie.nonzero t.decided hy]
    refine ⟨2, .settled hy, by omega, hi, fun z hz => .inr ⟨?_, Nat.le_refl 2⟩⟩
    rw [sentMessages_send, sentMessages_connected, sentMessages_nil, List.mem_singleton] at hz
    rw [hz]
    exact essence_firstResponse hy
  | settled hx =>
    obtain ⟨hstay, hout⟩ := receive_conclusion_again t.listener hvalid hx hy
    refine ⟨2, ?_, Nat.le_refl 2, hbehind, fun z hz => .inr ⟨hout z hz, Nat.le_refl 2⟩⟩
    rw [hstay]
    exact .settled hx

end

variable {s : Lts.Duplex HandshakeMachine HandshakeMessage}
  {r : HandshakeMachine × List HandshakeAction}

theorem Together.caller_step (h : Together c l k f answer s i j) (hr : CallerGoes c l k i j r) :
    ∃ i' j', Together c l k f answer (s.put false (r.1, sentMessages r.2)) i' j' := by
  obtain ⟨i', hat, hmono, hahead, hout⟩ := hr
  have hpeer := s.put_peer_other false (r.1, sentMessages r.2)
  have hsent := s.put_sent_other false (r.1, sentMessages r.2)
  rw [Bool.not_false] at hpeer hsent
  refine ⟨i', j, ?_, ?_, h.behind.trans hmono, hahead, ?_, ?_⟩
  · rw [s.put_peer_self]
    exact hat
  · rw [hpeer]
    exact h.listener
  · intro x hx
    rw [s.put_sent_self, List.mem_append] at hx
    rcases hx with hx | hx
    · exact (h.callerSent x hx).mono hmono
    · exact hout x hx
  rw [hsent]
  exact h.listenerSent

theorem Together.listener_step (h : Together c l k f answer s i j)
    (hr : ListenerGoes c l k f answer i j r) :
    ∃ i' j', Together c l k f answer (s.put true (r.1, sentMessages r.2)) i' j' := by
  obtain ⟨j', hat, hmono, hbehind, hout⟩ := hr
  have hpeer := s.put_peer_other true (r.1, sentMessages r.2)
  have hsent := s.put_sent_other true (r.1, sentMessages r.2)
  rw [Bool.not_true] at hpeer hsent
  refine ⟨i, j', ?_, ?_, hbehind, h.ahead.trans (by omega), ?_, ?_⟩
  · rw [hpeer]
    exact h.caller
  · rw [s.put_peer_self]
    exact hat
  · rw [hsent]
    exact h.callerSent
  intro y hy
  rw [s.put_sent_self, List.mem_append] at hy
  rcases hy with hy | hy
  · exact (h.listenerSent y hy).mono hmono
  · exact hout y hy

theorem together_of_reaches (t : Terms c l k f answer)
    (h : Lts.Reaches (pair c l) (fun s e => Admissible s e ∧ InTime s e) s) :
    ∃ i j, Together c l k f answer s i j := by
  refine Lts.Duplex.invariant (I := fun s => ∃ i j, Together c l k f answer s i j) ?_ ?_ ?_ h
  · exact ⟨0, 0, .idle, .idle, Nat.le_refl 0, Nat.zero_le 1, by simp, by simp⟩
  · rintro s i e ⟨a, b, hs⟩ ⟨hadmissible, -⟩
    cases e with
    | start =>
      obtain ⟨rfl, hidle⟩ := hadmissible
      exact hs.caller_step (callerGoes_start t hs.caller hidle)
    | timeout =>
      obtain ⟨hidle, hlimit⟩ := hadmissible
      cases i with
      | false => exact hs.caller_step (callerGoes_timeout t hs.caller hs.ahead hidle hlimit)
      | true => exact hs.listener_step (listenerGoes_timeout t hs.listener hs.behind hidle hlimit)
    | _ => exact hadmissible.elim
  rintro s i x y ⟨a, b, hs⟩ ⟨-, htime⟩ hx hcarries
  cases i with
  | false =>
    exact hs.caller_step
      (callerGoes_receive t hs.caller hs.behind hs.ahead (hs.listenerSent x hx) hcarries)
  | true =>
    exact hs.listener_step
      (listenerGoes_receive t hs.listener hs.behind hs.ahead (hs.callerSent x hx) hcarries htime)

end Steps

/-- Timeouts below the retry limit and datagrams that are lost, repeated or
late bring neither machine of a willing pair down, as long as the listener
gets no INDUCTION behind its first one. -/
theorem neither_fails_in_time {c l : HandshakeConfiguration} (h : Acceptable c l)
    {s : Lts.Duplex HandshakeMachine HandshakeMessage}
    (hs : Lts.Reaches (pair c l) (fun s e => Admissible s e ∧ InTime s e) s) (i : Bool) :
    (s.peer i).state ≠ .failed ∧ (s.peer i).state ≠ .rejected := by
  obtain ⟨k, f, answer, t⟩ := terms_of_acceptable h
  obtain ⟨_, _, htogether⟩ := together_of_reaches t hs
  cases i with
  | false => exact htogether.caller.undisturbed
  | true => exact htogether.listener.undisturbed

theorem acceptable_example : Acceptable exampleCaller exampleListener :=
  acceptable_of_exchange rfl rfl (by decide +kernel)

/-- Retries on both sides: the answer to the INDUCTION, the CONCLUSION and its
answer arrive twice. -/
def patientRun : List (Lts.Script Operation) :=
  [.act false .start, .act false .timeout, .deliver true 1, .act true .timeout, .deliver false 1,
    .act false .timeout, .deliver false 0, .deliver true 3, .deliver true 2, .deliver false 2,
    .deliver false 3]

theorem neither_fails_in_time_patientRun :
    Acceptable exampleCaller exampleListener
    ∧ ∃ s, Lts.Reaches (pair exampleCaller exampleListener)
      (fun s e => Admissible s e ∧ InTime s e) s
    ∧ (s.peer false).state ≠ .failed ∧ (s.peer false).state ≠ .rejected := by
  have hrun : (endpoint.exec transmit (fun s e => decide (Admissible s e ∧ InTime s e))
      exampleStart patientRun).isSome = true := by decide +kernel
  obtain ⟨s, hs⟩ := Option.isSome_iff_exists.1 hrun
  have hreach : Lts.Reaches (pair exampleCaller exampleListener)
      (fun s e => Admissible s e ∧ InTime s e) s :=
    (Lts.Endpoint.exec_reaches carries_of_transmit (.start rfl) hs).mono
      fun _ _ h => of_decide_eq_true h
  exact ⟨acceptable_example, s, hreach, neither_fails_in_time acceptable_example hreach false⟩

/-- The INDUCTION and its retry both arrive. -/
def hastyRun : List (Lts.Script Operation) :=
  [.act false .start, .act false .timeout, .deliver true 0, .deliver true 1]

/-- A retried INDUCTION of a willing caller brings the waiting listener
down: `receive` has no branch for it. -/
theorem retried_induction_fails_listener :
    Acceptable exampleCaller exampleListener
    ∧ ∃ s, Lts.Reaches (pair exampleCaller exampleListener) Admissible s
    ∧ (s.peer true).state = .failed := by
  have hrun : (endpoint.exec transmit (fun s e => decide (Admissible s e)) exampleStart
      hastyRun).map (fun s => (s.peer true).state) = some .failed := by decide +kernel
  obtain ⟨s, hs, hfailed⟩ := Option.map_eq_some_iff.1 hrun
  have hreach : Lts.Reaches (pair exampleCaller exampleListener) Admissible s :=
    (Lts.Endpoint.exec_reaches carries_of_transmit (.start rfl) hs).mono
      fun _ _ h => of_decide_eq_true h
  exact ⟨acceptable_example, s, hreach, hfailed⟩

end Srt.Undisturbed
