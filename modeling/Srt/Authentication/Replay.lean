/-
# `Replay` — two authenticated peers and an adversary between them

Both peers of an established session seal and open; what a peer is asked to
open is any bytes the adversary likes.  The log `tagged` holds every MAC
input the two have put a tag on the wire for, and `Unforged` is the one
assumption on the adversary: a tag that verifies is one of these.  It is
about the input that the call in question compares, not about collisions.

Requests, parity and controls are three independent channels in each
direction.  The last two share their argument (`WindowChannel`); all three
meet in the log only, where domain, direction and label keep them apart
(`Vouched`).
-/
import Srt.Authentication.Session
import Srt.Lib.Duplex

namespace Srt.Authenticated

open List

open SessionAuthentication

/-- HMAC-SHA256, or the failure of the call. -/
def provided (hmac : Bytes → Bytes → Tag) (fault : Option Error) : AuthenticationProvider where
  randomBytes := .error .cryptographicFailure
  pbkdf2HmacSha1 := fun _ _ _ => .error .cryptographicFailure
  hmacSha256 := fun key input =>
    match fault with
    | some e => .error e
    | none => .ok (hmac key input)

structure KeyRequest where
  counter : Nat
  material : Bytes
  deriving DecidableEq, Repr

/-- A sealed response with the request its peer had accepted last. -/
structure KeyResponse where
  material : Bytes
  request : Option KeyRequest
  deriving DecidableEq, Repr

/-- Both peers, the inputs of all tags, and what was sealed and accepted, in
order. -/
structure Pair where
  peer : Bool → SessionAuthentication
  tagged : List (Bytes × Bytes) := []
  sentRequests : Bool → List KeyRequest := fun _ => []
  acceptedRequests : Bool → List KeyRequest := fun _ => []
  sentResponses : Bool → List KeyResponse := fun _ => []
  sentFec : Bool → List (DataHeader × Bytes) := fun _ => []
  acceptedFec : Bool → List Nat := fun _ => []
  sentControl : Bool → List Bytes := fun _ => []
  acceptedControl : Bool → List Nat := fun _ => []

/-- A call at peer `i`, with the provider's failure if it fails. -/
inductive Event
  | handshakeProof (i : Bool) (fault : Option Error) (caller : Bool) (material : Bytes)
  | sealKeys (i : Bool) (fault : Option Error) (response : Bool) (material : Bytes)
      (capacity : Nat)
  | openKeys (i : Bool) (fault : Option Error) (response : Bool) (input : Bytes)
  | sealFec (i : Bool) (fault : Option Error) (header : DataHeader) (parity : Bytes)
      (capacity : Nat)
  | openFec (i : Bool) (fault : Option Error) (header : DataHeader) (input : Bytes)
  | sealControl (i : Bool) (fault : Option Error) (packet : Bytes) (capacity : Nat)
  | openControl (i : Bool) (fault : Option Error) (envelope : PacketView)
  deriving DecidableEq, Repr

/-- The counter of a control envelope. -/
def controlCounter (wire : Bytes) : Nat := get64 ((wire.drop 20).take 8)

namespace Pair

/-- Entry `i` has one element more at its end. -/
def append {α : Type} (f : Bool → List α) (i : Bool) (x : α) : Bool → List α :=
  Function.update f i (f i ++ [x])

def put (s : Pair) (i : Bool) (a : SessionAuthentication) : Pair :=
  { s with peer := Function.update s.peer i a }

variable (hmac : Bytes → Bytes → Tag)

def step (s : Pair) : Event → Pair
  | .handshakeProof i fault caller material =>
    let a := s.peer i
    match a.handshakeProof (provided hmac fault) caller material with
    | .error _ => s
    | .ok _ => { s with tagged := (a.key, a.macInput 1 caller 0 material) :: s.tagged }
  | .sealKeys i fault response material capacity =>
    let a := s.peer i
    match a.sealKeys (provided hmac fault) response material capacity with
    | (a', .error _) => s.put i a'
    | (a', .ok envelope) =>
      let counter := envelopeCounter envelope
      { s.put i a' with
        tagged := (a.key, a.macInput (keyDomain response) a.caller counter material) :: s.tagged
        sentRequests := if response then s.sentRequests
          else append s.sentRequests i ⟨counter, material⟩
        sentResponses := if response then
          append s.sentResponses i ⟨material, (s.acceptedRequests i).getLast?⟩
          else s.sentResponses }
  | .openKeys i fault response input =>
    match (s.peer i).openKeys (provided hmac fault) response input with
    | (a', none) => s.put i a'
    | (a', some material) =>
      { s.put i a' with
        acceptedRequests := if response then s.acceptedRequests
          else append s.acceptedRequests i ⟨envelopeCounter input, material⟩ }
  | .sealFec i fault header parity capacity =>
    let a := s.peer i
    match a.sealFec (provided hmac fault) header parity capacity with
    | (a', .error _) => s.put i a'
    | (a', .ok envelope) =>
      { s.put i a' with
        tagged := (a.key, a.fecMacInput a.caller (envelopeCounter envelope) header.bytes parity)
          :: s.tagged
        sentFec := append s.sentFec i (header, envelope) }
  | .openFec i fault header input =>
    match (s.peer i).openFec (provided hmac fault) header input with
    | (a', none) => s.put i a'
    | (a', some _) =>
      { s.put i a' with acceptedFec := append s.acceptedFec i (envelopeCounter input) }
  | .sealControl i fault packet capacity =>
    let a := s.peer i
    match a.sealControl (provided hmac fault) packet capacity with
    | (a', .error _) => s.put i a'
    | (a', .ok wire) =>
      { s.put i a' with
        tagged := (a.controlKey a.caller, controlLabel ++ wire.take (wire.length - 32)) :: s.tagged
        sentControl := append s.sentControl i wire }
  | .openControl i fault envelope =>
    match (s.peer i).openControl (provided hmac fault) envelope, envelope with
    | (a', some _), .control _ payload =>
      { s.put i a' with
        acceptedControl := append s.acceptedControl i (get64 ((payload.drop 4).take 8)) }
    | (a', _), _ => s.put i a'

/-- The MAC cannot be forged: a tag that the call finds to be right stands on
an input one of the two peers has tagged. -/
def Unforged (s : Pair) : Event → Prop
  | .openKeys i _ response input =>
    let a := s.peer i
    let question := a.macInput (keyDomain response) (!a.caller) (envelopeCounter input)
      (envelopeBody input)
    (hmac a.key question).val = envelopeTag input → (a.key, question) ∈ s.tagged
  | .openFec i _ header input =>
    let a := s.peer i
    let question := a.fecMacInput (!a.caller) (envelopeCounter input) header.bytes
      (envelopeBody input)
    (hmac a.key question).val = envelopeTag input → (a.key, question) ∈ s.tagged
  | .openControl i _ (.control header payload) =>
    let a := s.peer i
    let question := controlLabel ++ (header.bytes ++ payload.take (payload.length - 32))
    (hmac (a.controlKey !a.caller) question).val = payload.drop (payload.length - 32) →
      (a.controlKey !a.caller, question) ∈ s.tagged
  | _ => True

instance (s : Pair) : DecidablePred (s.Unforged hmac)
  | .openKeys _ _ _ _ => inferInstanceAs (Decidable (_ → _))
  | .openFec _ _ _ _ => inferInstanceAs (Decidable (_ → _))
  | .openControl _ _ (.control _ _) => inferInstanceAs (Decidable (_ → _))
  | .openControl _ _ (.data _) => .isTrue trivial
  | .handshakeProof _ _ _ _ => .isTrue trivial
  | .sealKeys _ _ _ _ _ => .isTrue trivial
  | .sealFec _ _ _ _ _ => .isTrue trivial
  | .sealControl _ _ _ _ => .isTrue trivial

end Pair

/-! ## What holds -/

/-- Two peers behind `establish`: the same keys, opposite roles, and neither
has sealed or opened anything. -/
structure Established (start : Bool → SessionAuthentication) : Prop where
  ready : ∀ i, (start i).ready = true
  roles : ∀ i, (start !i).caller = !(start i).caller
  version : (start true).version = (start false).version
  key : (start true).key = (start false).key
  controlKey : ∀ caller, (start true).controlKey caller = (start false).controlKey caller
  fresh : isAcp1SessionVersion (start false).version = true →
    (start false).controlKey true ≠ (start false).controlKey false
  unused : ∀ i, (start i).sentCounter = 0 ∧ (start i).receivedCounter = 0
    ∧ (start i).lastSent = [] ∧ (start i).fecSentCounter = 0 ∧ (start i).fecReceived = {}
    ∧ (start i).controlSentCounter = 0 ∧ (start i).controlReceived = {}

/-- The session of two established peers, under an adversary that cannot
forge. -/
def session (hmac : Bytes → Bytes → Tag) (start : Bool → SessionAuthentication) :
    Lts.System Pair Event :=
  .ofFun (fun s => s = { peer := start }) (Pair.step hmac)

/-- What peer `i` may rely on. -/
structure Protected (hmac : Bytes → Bytes → Tag) (s : Pair) (i : Bool) : Prop where
  /-- An accepted request is one the other peer has sealed. -/
  genuine : ∀ r ∈ s.acceptedRequests i, r ∈ s.sentRequests !i
  /-- The counters never go back, and one counter stands for one material. -/
  ordered : (s.acceptedRequests i).Pairwise fun r r' =>
    r.counter ≤ r'.counter ∧ (r.counter = r'.counter → r.material = r'.material)
  /-- A response that opens was sealed while the request its peer had accepted
  last was the one that was sent last here. -/
  response : ∀ fault input material, s.Unforged hmac (.openKeys i fault true input) →
    ((s.peer i).openKeys (provided hmac fault) true input).2 = some material →
    ∃ r ∈ s.sentResponses !i, r.material = material
      ∧ r.request.isSome = true ∧ r.request = (s.sentRequests i).getLast?
  /-- Each parity counter is taken once, and only if the other peer used it. -/
  fecOnce : (s.acceptedFec i).Nodup ∧
    ∀ c ∈ s.acceptedFec i, ∃ e ∈ s.sentFec !i, envelopeCounter e.2 = c
  /-- A genuine one that was not taken yet opens exactly if it is less than 64
  below every one that was. -/
  fecWindow : ∀ e ∈ s.sentFec !i, envelopeCounter e.2 ∉ s.acceptedFec i →
    (((s.peer i).openFec (provided hmac none) e.1 e.2).2.isSome = true
      ↔ ∀ d ∈ s.acceptedFec i, d < envelopeCounter e.2 + 64)
  controlOnce : (s.acceptedControl i).Nodup ∧
    ∀ c ∈ s.acceptedControl i, ∃ wire ∈ s.sentControl !i, controlCounter wire = c
  controlWindow : ∀ wire ∈ s.sentControl !i, ∃ envelope, decodePacket wire = .ok envelope
    ∧ (controlCounter wire ∉ s.acceptedControl i →
      (((s.peer i).openControl (provided hmac none) envelope).2.isSome = true
        ↔ ∀ d ∈ s.acceptedControl i, d < controlCounter wire + 64))
  /-- What is refused leaves nothing behind. -/
  refused : ∀ provider,
    (∀ response input, ((s.peer i).openKeys provider response input).2 = none →
      ((s.peer i).openKeys provider response input).1 = s.peer i)
    ∧ (∀ header input, ((s.peer i).openFec provider header input).2 = none →
      ((s.peer i).openFec provider header input).1 = s.peer i)
    ∧ (∀ envelope, ((s.peer i).openControl provider envelope).2 = none →
      ((s.peer i).openControl provider envelope).1 = s.peer i)

/-! ## Key channel -/

/-- The requests of one peer and the answers of the other. -/
structure KeyChannel where
  sentCounter : Nat
  lastSent : Bytes
  receivedCounter : Nat
  lastReceived : Bytes
  sent : List KeyRequest
  accepted : List KeyRequest
  responses : List KeyResponse

namespace KeyChannel

structure Sound (ch : KeyChannel) : Prop where
  bound : ch.sentCounter ≤ maximumCounter
  sent : ∀ r ∈ ch.sent, 0 < r.counter ∧ r.counter ≤ ch.sentCounter
  unique : ∀ r ∈ ch.sent, ∀ r' ∈ ch.sent, r.counter = r'.counter → r = r'
  last : (ch.sentCounter = 0 ∧ ch.lastSent = [] ∧ ch.sent = [])
    ∨ ch.sent.getLast? = some ⟨ch.sentCounter, ch.lastSent⟩
  accepted : ∀ r ∈ ch.accepted, r ∈ ch.sent ∧ r.counter ≤ ch.receivedCounter
  lastAccepted : (ch.receivedCounter = 0 ∧ ch.accepted = [])
    ∨ ch.accepted.getLast? = some ⟨ch.receivedCounter, ch.lastReceived⟩
  ordered : ch.accepted.Pairwise fun r r' =>
    r.counter ≤ r'.counter ∧ (r.counter = r'.counter → r.material = r'.material)
  responses : ∀ r ∈ ch.responses, ∃ q ∈ ch.accepted, r.request = some q

variable {ch : KeyChannel}

theorem Sound.received_le (h : ch.Sound) : ch.receivedCounter ≤ maximumCounter := by
  rcases h.lastAccepted with ⟨hzero, -⟩ | hlast
  · rw [hzero]
    exact Nat.zero_le _
  have hsent := (h.accepted _ (mem_of_getLast? hlast)).1
  exact (h.sent _ hsent).2.trans h.bound

theorem Sound.repeat (h : ch.Sound) (hne : ch.sentCounter ≠ 0) :
    Sound { ch with sent := ch.sent ++ [⟨ch.sentCounter, ch.lastSent⟩] } := by
  have hmem : ⟨ch.sentCounter, ch.lastSent⟩ ∈ ch.sent :=
    mem_of_getLast? (h.last.resolve_left fun hzero => hne hzero.1)
  have hsub : ∀ r ∈ ch.sent ++ [⟨ch.sentCounter, ch.lastSent⟩], r ∈ ch.sent := by
    intro r hr
    rcases mem_append.1 hr with hr | hr
    · exact hr
    rw [mem_singleton.1 hr]
    exact hmem
  exact {
    bound := h.bound
    sent := fun r hr => h.sent r (hsub r hr)
    unique := fun r hr r' hr' => h.unique r (hsub r hr) r' (hsub r' hr')
    last := .inr (by simp)
    accepted := fun r hr => ⟨mem_append_left _ (h.accepted r hr).1, (h.accepted r hr).2⟩
    lastAccepted := h.lastAccepted
    ordered := h.ordered
    responses := h.responses }

theorem Sound.count (h : ch.Sound) (hroom : ch.sentCounter ≠ maximumCounter) (material : Bytes) :
    Sound { ch with
      sentCounter := ch.sentCounter + 1
      lastSent := material
      sent := ch.sent ++ [⟨ch.sentCounter + 1, material⟩] } where
  bound := Nat.lt_of_le_of_ne h.bound hroom
  sent := by
    intro r hr
    rcases mem_append.1 hr with hr | hr
    · exact ⟨(h.sent r hr).1, (h.sent r hr).2.trans (Nat.le_succ _)⟩
    rw [mem_singleton.1 hr]
    exact ⟨Nat.succ_pos _, le_rfl⟩
  unique := by
    intro r hr r' hr' heq
    -- An older counter is below the new one.
    rcases mem_append.1 hr with hr | hr <;> rcases mem_append.1 hr' with hr' | hr'
    · exact h.unique r hr r' hr' heq
    · rw [mem_singleton.1 hr'] at heq
      have hle : r.counter ≤ ch.sentCounter := (h.sent r hr).2
      have heq : r.counter = ch.sentCounter + 1 := heq
      omega
    · rw [mem_singleton.1 hr] at heq
      have hle : r'.counter ≤ ch.sentCounter := (h.sent r' hr').2
      have heq : ch.sentCounter + 1 = r'.counter := heq
      omega
    · rw [mem_singleton.1 hr, mem_singleton.1 hr']
  last := .inr (by simp)
  accepted := fun r hr => ⟨mem_append_left _ (h.accepted r hr).1, (h.accepted r hr).2⟩
  lastAccepted := h.lastAccepted
  ordered := h.ordered
  responses := h.responses

theorem Sound.accept (h : ch.Sound) {r : KeyRequest} (hr : r ∈ ch.sent)
    (hle : ch.receivedCounter ≤ r.counter) :
    Sound { ch with
      receivedCounter := r.counter
      lastReceived := r.material
      accepted := ch.accepted ++ [r] } where
  bound := h.bound
  sent := h.sent
  unique := h.unique
  last := h.last
  accepted := by
    intro q hq
    rcases mem_append.1 hq with hq | hq
    · exact ⟨(h.accepted q hq).1, (h.accepted q hq).2.trans hle⟩
    rw [mem_singleton.1 hq]
    exact ⟨hr, le_rfl⟩
  lastAccepted := .inr (by simp)
  ordered := by
    refine pairwise_append.2 ⟨h.ordered, pairwise_singleton _ _, ?_⟩
    intro q hq r' hr'
    rw [mem_singleton.1 hr']
    obtain ⟨hsent, hbelow⟩ := h.accepted q hq
    exact ⟨hbelow.trans hle, fun heq => congrArg KeyRequest.material (h.unique q hsent r hr heq)⟩
  responses := by
    intro p hp
    obtain ⟨q, hq, hrequest⟩ := h.responses p hp
    exact ⟨q, mem_append_left _ hq, hrequest⟩

theorem Sound.respond (h : ch.Sound) (hne : ch.receivedCounter ≠ 0) (material : Bytes) :
    Sound { ch with responses := ch.responses ++ [⟨material, ch.accepted.getLast?⟩] } where
  bound := h.bound
  sent := h.sent
  unique := h.unique
  last := h.last
  accepted := h.accepted
  lastAccepted := h.lastAccepted
  ordered := h.ordered
  responses := by
    intro p hp
    rcases mem_append.1 hp with hp | hp
    · exact h.responses p hp
    rw [mem_singleton.1 hp]
    have hlast := h.lastAccepted.resolve_left fun hzero => hne hzero.1
    exact ⟨_, mem_of_getLast? hlast, hlast⟩

end KeyChannel

/-! ## Window channels -/

/-- The counters of one peer's envelopes and the other's replay window. -/
structure WindowChannel where
  sentCounter : Nat
  sent : List Nat
  accepted : List Nat
  window : ReplayWindow 64

namespace WindowChannel

structure Sound (ch : WindowChannel) : Prop where
  bound : ch.sentCounter ≤ maximumCounter
  sent : ∀ c ∈ ch.sent, c ≠ 0 ∧ c ≤ maximumCounter
  accepted : ∀ c ∈ ch.accepted, c ∈ ch.sent
  once : ch.accepted.Nodup
  window : ReplayWindow.Remembers { c | c ∈ ch.accepted } ch.window

variable {ch : WindowChannel}

theorem Sound.count (h : ch.Sound) (hroom : ch.sentCounter ≠ maximumCounter) :
    Sound { ch with
      sentCounter := ch.sentCounter + 1
      sent := ch.sent ++ [ch.sentCounter + 1] } where
  bound := Nat.lt_of_le_of_ne h.bound hroom
  sent := by
    intro c hc
    rcases mem_append.1 hc with hc | hc
    · exact h.sent c hc
    rw [mem_singleton.1 hc]
    exact ⟨Nat.succ_ne_zero _, Nat.lt_of_le_of_ne h.bound hroom⟩
  accepted := fun c hc => mem_append_left _ (h.accepted c hc)
  once := h.once
  window := h.window

theorem Sound.accept (h : ch.Sound) {c : Nat} (hc : c ∈ ch.sent)
    (hwindow : ch.window.refuses c = false) :
    Sound { ch with
      accepted := ch.accepted ++ [c]
      window := ch.window.mark c } where
  bound := h.bound
  sent := h.sent
  accepted := by
    intro d hd
    rcases mem_append.1 hd with hd | hd
    · exact h.accepted d hd
    rw [mem_singleton.1 hd]
    exact hc
  once := by
    have hnew : c ∉ ch.accepted := (h.window.refuses_eq_false.1 hwindow).1
    exact nodup_append.2 ⟨h.once, by simp, by
      rintro d hd _ hd' rfl
      rw [mem_singleton.1 hd'] at hd
      exact hnew hd⟩
  window := by
    have hset : { d | d ∈ ch.accepted ++ [c] } = insert c { d | d ∈ ch.accepted } := by
      ext d
      simp [or_comm]
    rw [hset]
    exact h.window.mark hwindow

/-- What the window says about a counter that was not taken. -/
theorem Sound.refuses_iff (h : ch.Sound) {c : Nat} (hc : c ∈ ch.sent) (hnew : c ∉ ch.accepted) :
    ch.window.refuses c = false ↔ ∀ d ∈ ch.accepted, d < c + 64 := by
  rw [h.window.refuses_eq_false]
  constructor
  · rintro ⟨-, hhigh⟩ d hd
    exact Nat.lt_of_le_of_lt (h.window.le_highest d hd) hhigh
  intro hall
  refine ⟨hnew, ?_⟩
  rcases h.window.highest_mem with hzero | hmem
  · have := (h.sent c hc).1
    omega
  · exact hall _ hmem

end WindowChannel

/-! ## The invariant -/

namespace Pair

variable (s : Pair) (j : Bool)

def keyChannel : KeyChannel where
  sentCounter := (s.peer j).sentCounter
  lastSent := (s.peer j).lastSent
  receivedCounter := (s.peer !j).receivedCounter
  lastReceived := (s.peer !j).lastReceived
  sent := s.sentRequests j
  accepted := s.acceptedRequests !j
  responses := s.sentResponses !j

def fecChannel : WindowChannel where
  sentCounter := (s.peer j).fecSentCounter
  sent := (s.sentFec j).map fun e => envelopeCounter e.2
  accepted := s.acceptedFec !j
  window := (s.peer !j).fecReceived

def controlChannel : WindowChannel where
  sentCounter := (s.peer j).controlSentCounter
  sent := (s.sentControl j).map controlCounter
  accepted := s.acceptedControl !j
  window := (s.peer !j).controlReceived

end Pair

/-- What both peers hold of the session. -/
structure Keys where
  version : Nat
  key : Bytes
  controlKey : Bool → Bytes

structure Holds (k : Keys) (a : SessionAuthentication) : Prop where
  ready : a.ready = true
  version : a.version = k.version
  key : a.key = k.key
  controlKey : ∀ caller, a.controlKey caller = k.controlKey caller

/-- A parity envelope of the peer with the role `caller`. -/
def FecShape (hmac : Bytes → Bytes → Tag) (k : Keys) (caller : Bool) (e : DataHeader × Bytes) :
    Prop :=
  ∃ counter parity, counter ≤ maximumCounter ∧ parity ≠ []
    ∧ parity.length ≤ maximumDataPayloadSize - authenticatedFecOverhead
    ∧ e.1.messageNumber = 0
    ∧ e.2 = put64 counter ++ parity ++ (hmac k.key (macFrame k.version 4 caller counter
      (writeU16 parity.length ++ (e.1.bytes ++ parity)))).val

/-- A control envelope of the peer with the role `caller`. -/
def ControlShape (hmac : Bytes → Bytes → Tag) (k : Keys) (caller : Bool) (wire : Bytes) : Prop :=
  ∃ counter packet inner payload, counter ≤ maximumCounter ∧ isAcp1SessionVersion k.version = true
    ∧ packet.length ≤ maximumControlSize - authenticatedControlOverhead
    ∧ decodePacket packet = .ok (.control inner payload)
    ∧ acp1Control (.control inner payload) k.version = true
    ∧ wire = (outerHeader inner).bytes ++ envelopePayload counter packet
      ++ (hmac (k.controlKey caller) (controlLabel
        ++ ((outerHeader inner).bytes ++ envelopePayload counter packet))).val

/-- Every tagged input belongs to something a peer has sealed, or to a
handshake proof. -/
inductive Vouched (k : Keys) (s : Pair) : Bytes × Bytes → Prop
  | proof (caller : Bool) (rest : Bytes) : Vouched k s (k.key, macFrame k.version 1 caller 0 rest)
  | request (j : Bool) {caller : Bool} (role : (s.peer j).caller = caller) {r : KeyRequest}
      (sent : r ∈ s.sentRequests j) :
      Vouched k s (k.key, macFrame k.version 2 caller r.counter
        (writeU16 r.material.length ++ r.material))
  | response (j : Bool) {caller : Bool} (role : (s.peer j).caller = caller) {r : KeyResponse}
      {q : KeyRequest} (sent : r ∈ s.sentResponses j) (answers : r.request = some q) :
      Vouched k s (k.key, macFrame k.version 3 caller q.counter
        (writeU16 r.material.length ++ r.material))
  | fec (j : Bool) {caller : Bool} (role : (s.peer j).caller = caller) {counter : Nat}
      (rest : Bytes) (sent : counter ∈ (s.fecChannel j).sent) :
      Vouched k s (k.key, macFrame k.version 4 caller counter rest)
  | control (j : Bool) {caller : Bool} (role : (s.peer j).caller = caller) {wire tag : Bytes}
      (sent : wire ++ tag ∈ s.sentControl j) (size : tag.length = 32) :
      Vouched k s (k.controlKey caller, controlLabel ++ wire)

structure Sound (hmac : Bytes → Bytes → Tag) (k : Keys) (s : Pair) : Prop where
  holds : ∀ i, Holds k (s.peer i)
  roles : ∀ i, (s.peer !i).caller = !(s.peer i).caller
  keys : ∀ j, (s.keyChannel j).Sound
  fec : ∀ j, (s.fecChannel j).Sound
  control : ∀ j, (s.controlChannel j).Sound
  fecShape : ∀ j, ∀ e ∈ s.sentFec j, FecShape hmac k (s.peer j).caller e
  controlShape : ∀ j, ∀ wire ∈ s.sentControl j, ControlShape hmac k (s.peer j).caller wire
  tagged : ∀ t ∈ s.tagged, Vouched k s t

/-! ## Steps -/

section Steps

variable {hmac : Bytes → Bytes → Tag} {k : Keys} {s s' : Pair} {i : Bool}
  {a' : SessionAuthentication}

/-- Nothing of the setup has changed. -/
structure Same (a a' : SessionAuthentication) : Prop where
  parameters : a'.parameters = a.parameters
  key : a'.key = a.key
  callerControlKey : a'.callerControlKey = a.callerControlKey
  listenerControlKey : a'.listenerControlKey = a.listenerControlKey
  caller : a'.caller = a.caller
  ready : a'.ready = a.ready

theorem Same.refl (a : SessionAuthentication) : Same a a := ⟨rfl, rfl, rfl, rfl, rfl, rfl⟩

theorem Holds.same {a : SessionAuthentication} (h : Holds k a) (hs : Same a a') : Holds k a' where
  ready := hs.ready.trans h.ready
  version := (congrArg SessionAuthenticationParameters.version hs.parameters).trans h.version
  key := hs.key.trans h.key
  controlKey := by
    intro caller
    rw [← h.controlKey caller]
    unfold SessionAuthentication.controlKey
    rw [hs.callerControlKey, hs.listenerControlKey]

theorem same_put (h : Same (s.peer i) a') : ∀ j, Same (s.peer j) ((s.put i a').peer j) := by
  refine Lts.forall_side i ?_ ?_
  · simpa [Pair.put] using h
  · simpa [Pair.put] using Same.refl _

/-- What the logs of tagged things have, they keep. -/
structure Grows (s s' : Pair) : Prop where
  requests : ∀ j, s.sentRequests j ⊆ s'.sentRequests j
  responses : ∀ j, s.sentResponses j ⊆ s'.sentResponses j
  fec : ∀ j, s.sentFec j ⊆ s'.sentFec j
  control : ∀ j, s.sentControl j ⊆ s'.sentControl j

theorem Vouched.grows {t : Bytes × Bytes} (h : Vouched k s t) (hg : Grows s s')
    (hcaller : ∀ j, (s'.peer j).caller = (s.peer j).caller) : Vouched k s' t := by
  cases h with
  | proof caller rest => exact .proof caller rest
  | request j hrole hsent => exact .request j ((hcaller j).trans hrole) (hg.requests j hsent)
  | response j hrole hsent hanswers =>
    exact .response j ((hcaller j).trans hrole) (hg.responses j hsent) hanswers
  | fec j hrole rest hsent =>
    exact .fec j ((hcaller j).trans hrole) rest (map_subset _ (hg.fec j) hsent)
  | control j hrole hsent hsize =>
    exact .control j ((hcaller j).trans hrole) (hg.control j hsent) hsize

/-- A step keeps the invariant if it keeps the channels and vouches for what
it adds. -/
theorem Sound.next (h : Sound hmac k s) (hsame : ∀ j, Same (s.peer j) (s'.peer j))
    (hgrows : Grows s s') (hkeys : ∀ j, (s'.keyChannel j).Sound)
    (hfec : ∀ j, (s'.fecChannel j).Sound) (hcontrol : ∀ j, (s'.controlChannel j).Sound)
    (hfecShape : ∀ j, ∀ e ∈ s'.sentFec j, e ∈ s.sentFec j ∨ FecShape hmac k (s.peer j).caller e)
    (hcontrolShape : ∀ j, ∀ wire ∈ s'.sentControl j,
      wire ∈ s.sentControl j ∨ ControlShape hmac k (s.peer j).caller wire)
    (htagged : ∀ t ∈ s'.tagged, t ∈ s.tagged ∨ Vouched k s' t) : Sound hmac k s' := by
  have hcaller : ∀ j, (s'.peer j).caller = (s.peer j).caller := fun j => (hsame j).caller
  refine ⟨fun j => (h.holds j).same (hsame j), fun j => ?_, hkeys, hfec, hcontrol, ?_, ?_, ?_⟩
  · rw [hcaller, hcaller]
    exact h.roles j
  · intro j e he
    rw [hcaller]
    exact (hfecShape j e he).elim (h.fecShape j e) id
  · intro j wire hwire
    rw [hcaller]
    exact (hcontrolShape j wire hwire).elim (h.controlShape j wire) id
  intro t ht
  exact (htagged t ht).elim (fun ht => (h.tagged t ht).grows hgrows hcaller) id

theorem mem_append {α : Type} {f : Bool → List α} {x y : α} {j : Bool}
    (h : y ∈ Pair.append f i x j) : y ∈ f j ∨ (j = i ∧ y = x) := by
  unfold Pair.append at h
  by_cases hj : j = i
  · subst hj
    rw [Function.update_self, mem_append, mem_singleton] at h
    exact h.imp id fun hx => ⟨rfl, hx⟩
  rw [Function.update_of_ne hj] at h
  exact .inl h

theorem subset_append {α : Type} (f : Bool → List α) (x : α) (j : Bool) :
    f j ⊆ Pair.append f i x j := by
  intro y hy
  unfold Pair.append
  by_cases hj : j = i
  · subst hj
    rw [Function.update_self]
    exact mem_append_left _ hy
  rw [Function.update_of_ne hj]
  exact hy

theorem append_self {α : Type} (f : Bool → List α) (x : α) : x ∈ Pair.append f i x i := by
  unfold Pair.append
  rw [Function.update_self]
  exact mem_append_right _ (mem_singleton.2 rfl)

theorem put_same : s.put i (s.peer i) = s := by
  unfold Pair.put
  rw [Function.update_eq_self]

section

variable (h : Sound hmac k s) (hpeer : s'.peer = Function.update s.peer i a')
include h hpeer

/-- The key channels behind a call that does not touch them. -/
theorem Sound.keys_frame (h₁ : a'.sentCounter = (s.peer i).sentCounter)
    (h₂ : a'.lastSent = (s.peer i).lastSent) (h₃ : a'.receivedCounter = (s.peer i).receivedCounter)
    (h₄ : a'.lastReceived = (s.peer i).lastReceived) (hsent : s'.sentRequests = s.sentRequests)
    (hacc : s'.acceptedRequests = s.acceptedRequests) (hres : s'.sentResponses = s.sentResponses)
    (j : Bool) : (s'.keyChannel j).Sound := by
  have hsame : s'.keyChannel j = s.keyChannel j := by
    cases i <;> cases j <;> simp_all [Pair.keyChannel]
  rw [hsame]
  exact h.keys j

theorem Sound.fec_frame (h₁ : a'.fecSentCounter = (s.peer i).fecSentCounter)
    (h₂ : a'.fecReceived = (s.peer i).fecReceived) (hsent : s'.sentFec = s.sentFec)
    (hacc : s'.acceptedFec = s.acceptedFec) (j : Bool) : (s'.fecChannel j).Sound := by
  have hsame : s'.fecChannel j = s.fecChannel j := by
    cases i <;> cases j <;> simp_all [Pair.fecChannel]
  rw [hsame]
  exact h.fec j

theorem Sound.control_frame (h₁ : a'.controlSentCounter = (s.peer i).controlSentCounter)
    (h₂ : a'.controlReceived = (s.peer i).controlReceived) (hsent : s'.sentControl = s.sentControl)
    (hacc : s'.acceptedControl = s.acceptedControl) (j : Bool) : (s'.controlChannel j).Sound := by
  have hsame : s'.controlChannel j = s.controlChannel j := by
    cases i <;> cases j <;> simp_all [Pair.controlChannel]
  rw [hsame]
  exact h.control j

end

variable {fault : Option Error} {input : Bytes}

theorem hmac_of_provided {key : Bytes} {tag : Tag}
    (h : (provided hmac fault).hmacSha256 key input = .ok tag) : tag = hmac key input := by
  unfold provided at h
  cases fault with
  | some e => cases h
  | none => exact (Except.ok.inj h).symm

theorem macInput_eq {a : SessionAuthentication} (h : Holds k a) (d : UInt8) (caller : Bool)
    (counter : Nat) (input : Bytes) :
    a.macInput d caller counter input
      = macFrame k.version d caller counter (writeU16 input.length ++ input) := by
  unfold macInput
  rw [h.version]

theorem fecMacInput_eq {a : SessionAuthentication} (h : Holds k a) (caller : Bool)
    (counter : Nat) (header parity : Bytes) :
    a.fecMacInput caller counter header parity
      = macFrame k.version 4 caller counter (writeU16 parity.length ++ (header ++ parity)) := by
  unfold fecMacInput
  rw [h.version]

theorem Grows.of_eq (h₁ : s'.sentRequests = s.sentRequests)
    (h₂ : s'.sentResponses = s.sentResponses) (h₃ : s'.sentFec = s.sentFec)
    (h₄ : s'.sentControl = s.sentControl) : Grows s s' := by
  refine ⟨?_, ?_, ?_, ?_⟩
  · exact h₁ ▸ fun _ => List.Subset.refl _
  · exact h₂ ▸ fun _ => List.Subset.refl _
  · exact h₃ ▸ fun _ => List.Subset.refl _
  · exact h₄ ▸ fun _ => List.Subset.refl _

theorem sound_handshakeProof (h : Sound hmac k s) (fault : Option Error) (caller : Bool)
    (material : Bytes) : Sound hmac k (s.step hmac (.handshakeProof i fault caller material)) := by
  unfold Pair.step
  dsimp only
  split
  · exact h
  have hvouched : ∀ s', Vouched k s' ((s.peer i).key, (s.peer i).macInput 1 caller 0 material) := by
    intro s'
    rw [(h.holds i).key, macInput_eq (h.holds i)]
    exact .proof caller _
  exact h.next (fun j => Same.refl _) (.of_eq rfl rfl rfl rfl) h.keys h.fec h.control
    (fun _ _ he => .inl he) (fun _ _ hw => .inl hw)
    (forall_mem_cons.2 ⟨.inr (hvouched _), fun _ ht => .inl ht⟩)

theorem sound_sealKeys (h : Sound hmac k s) (fault : Option Error) (response : Bool)
    (material : Bytes) (capacity : Nat) :
    Sound hmac k (s.step hmac (.sealKeys i fault response material capacity)) := by
  unfold Pair.step
  dsimp only
  rcases sealKeys_cases (provided hmac fault) (s.peer i) response material capacity
    with ⟨e, hseal⟩ | ⟨a', counter, envelope, hseal, hsealed⟩
  · rw [hseal]
    dsimp only
    rw [put_same]
    exact h
  rw [hseal]
  dsimp only
  obtain ⟨tag, hform, -⟩ := hsealed.envelope
  have hkey := (h.holds i).key
  cases response with
  | true =>
    obtain ⟨hecho, rfl⟩ := hsealed.echoes rfl
    have hreceived : (s.keyChannel !i).receivedCounter = counter := by
      rw [hecho]
      simp [Pair.keyChannel]
    have hbound : counter ≤ maximumCounter := hreceived ▸ (h.keys !i).received_le
    have hcounter : envelopeCounter envelope = counter := by
      rw [hform, envelopeCounter_envelope _ _ hbound]
    simp only [if_true, hcounter]
    rw [put_same]
    -- The peer answers the request it has accepted last.
    have hrespond := (h.keys !i).respond (by rw [hreceived]; exact hsealed.nonzero) material
    obtain ⟨q, hlast⟩ : ∃ q, (s.acceptedRequests i).getLast? = some q ∧ q.counter = counter := by
      rcases (h.keys !i).lastAccepted with ⟨hzero, -⟩ | hlast
      · exact absurd (hreceived.symm.trans hzero) hsealed.nonzero
      have hacc : (s.keyChannel !i).accepted = s.acceptedRequests i := by
        simp [Pair.keyChannel]
      exact ⟨_, hacc ▸ hlast, hreceived⟩
    refine h.next (fun j => Same.refl _) ⟨fun _ => List.Subset.refl _, subset_append _ _,
      fun _ => List.Subset.refl _, fun _ => List.Subset.refl _⟩ ?_ h.fec h.control
      (fun _ _ he => .inl he) (fun _ _ hw => .inl hw)
      (forall_mem_cons.2 ⟨.inr ?_, fun _ ht => .inl ht⟩)
    · refine Lts.forall_side i ?_ ?_
      · have hkeys := h.keys i
        cases i <;> exact hkeys
      · cases i <;> exact hrespond
    rw [hkey, macInput_eq (h.holds i), ← hlast.2, show keyDomain true = 3 from rfl]
    exact .response i rfl (r := ⟨material, _⟩) (append_self _ _) hlast.1
  | false =>
    simp only [Bool.false_eq_true, if_false]
    rcases hsealed.counts rfl with ⟨rfl, hsame, rfl⟩ | ⟨-, hroom, hnext, rfl⟩
    · have hcounter : envelopeCounter envelope = counter := by
        rw [hform, envelopeCounter_envelope _ _ (hsame ▸ (h.keys i).bound)]
      rw [put_same, hcounter]
      have hrepeat := (h.keys i).repeat (by
        show (s.peer i).sentCounter ≠ 0
        rw [← hsame]
        exact hsealed.nonzero)
      refine h.next (fun j => Same.refl _) ⟨subset_append _ _, fun _ => List.Subset.refl _,
        fun _ => List.Subset.refl _, fun _ => List.Subset.refl _⟩ ?_ h.fec h.control
        (fun _ _ he => .inl he) (fun _ _ hw => .inl hw)
        (forall_mem_cons.2 ⟨.inr ?_, fun _ ht => .inl ht⟩)
      · rw [hsame]
        refine Lts.forall_side i ?_ ?_
        · cases i <;> exact hrepeat
        have hkeys := h.keys !i
        cases i <;> exact hkeys
      rw [hkey, macInput_eq (h.holds i), show keyDomain false = 2 from rfl]
      exact .request i rfl (r := ⟨counter, _⟩) (append_self _ _)
    have hbound : (s.peer i).sentCounter + 1 ≤ maximumCounter :=
      Nat.lt_of_le_of_ne (h.keys i).bound hroom
    have hcounter : envelopeCounter envelope = counter := by
      rw [hform, envelopeCounter_envelope _ _ (hnext ▸ hbound)]
    have hcount := (h.keys i).count hroom material
    rw [hcounter, hnext]
    refine h.next (same_put ⟨rfl, rfl, rfl, rfl, rfl, rfl⟩) ⟨subset_append _ _,
      fun _ => List.Subset.refl _, fun _ => List.Subset.refl _, fun _ => List.Subset.refl _⟩ ?_
      ?_ ?_ (fun _ _ he => .inl he) (fun _ _ hw => .inl hw)
      (forall_mem_cons.2 ⟨.inr ?_, fun _ ht => .inl ht⟩)
    · refine Lts.forall_side i ?_ ?_
      · cases i <;> exact hcount
      have hkeys := h.keys !i
      cases i <;> exact hkeys
    · exact h.fec_frame rfl rfl rfl rfl rfl
    · exact h.control_frame rfl rfl rfl rfl rfl
    rw [hkey, macInput_eq (h.holds i), show keyDomain false = 2 from rfl]
    exact .request i (by simp [Pair.put]) (r := ⟨_, material⟩) (append_self _ _)

/-! ### Opening -/

/-- The domain of a tagged input tells what it belongs to. -/
theorem Sound.tagged_cases (h : Sound hmac k s) {d : UInt8} {caller : Bool} {n : Nat}
    {rest : Bytes} (hn : n ≤ maximumCounter)
    (ht : (k.key, macFrame k.version d caller n rest) ∈ s.tagged) :
    d = 1
    ∨ (d = 2 ∧ ∃ j, (s.peer j).caller = caller ∧ ∃ r ∈ s.sentRequests j, r.counter = n
      ∧ rest = writeU16 r.material.length ++ r.material)
    ∨ (d = 3 ∧ ∃ j, (s.peer j).caller = caller ∧ ∃ r ∈ s.sentResponses j, ∃ q,
      r.request = some q ∧ q.counter = n
      ∧ rest = writeU16 r.material.length ++ r.material)
    ∨ (d = 4 ∧ ∃ j, (s.peer j).caller = caller ∧ n ∈ (s.fecChannel j).sent) := by
  have hvouched := h.tagged _ ht
  generalize hinput : (k.key, macFrame k.version d caller n rest) = t at hvouched
  cases hvouched with
  | proof caller' rest' =>
    have heq := (Prod.mk.inj hinput).2
    exact .inl (macFrame_injective hn (Nat.zero_le _) heq).1
  | @request j caller' hrole r hsent =>
    have heq := (Prod.mk.inj hinput).2
    have hbound := ((h.keys j).sent r hsent).2.trans (h.keys j).bound
    obtain ⟨hd, rfl, hcounter, hrest⟩ := macFrame_injective hn hbound heq
    exact .inr (.inl ⟨hd, j, hrole, r, hsent, hcounter.symm, hrest⟩)
  | @response j caller' hrole r q hsent hanswers =>
    have heq := (Prod.mk.inj hinput).2
    have hmem : r ∈ (s.keyChannel !j).responses := by simpa [Pair.keyChannel] using hsent
    obtain ⟨q', hq', hrequest⟩ := (h.keys !j).responses r hmem
    obtain rfl : q = q' := Option.some.inj (hanswers.symm.trans hrequest)
    have hbound := ((h.keys !j).sent q ((h.keys !j).accepted q hq').1).2.trans (h.keys !j).bound
    obtain ⟨hd, rfl, hcounter, hrest⟩ := macFrame_injective hn hbound heq
    exact .inr (.inr (.inl ⟨hd, j, hrole, r, hsent, q, hanswers, hcounter.symm, hrest⟩))
  | @fec j caller' hrole counter rest' hsent =>
    have heq := (Prod.mk.inj hinput).2
    obtain ⟨hd, rfl, rfl, -⟩ := macFrame_injective hn ((h.fec j).sent counter hsent).2 heq
    exact .inr (.inr (.inr ⟨hd, j, hrole, hsent⟩))
  | control j hrole hsent hsize =>
    exact absurd (Prod.mk.inj hinput).2.symm (controlLabel_ne_macFrame _ _ _ _ _ _)

/-- Only the other peer seals in the direction this one opens. -/
theorem other_of_role {j : Bool} (hrole : (s.peer j).caller = !(s.peer i).caller) : j = !i := by
  by_contra hj
  obtain rfl : j = i := by cases i <;> cases j <;> simp_all
  exact Bool.not_ne_self _ hrole.symm

theorem body_of_sized {x y : Bytes} (h : writeU16 x.length ++ x = writeU16 y.length ++ y) : x = y :=
  (append_inj h rfl).2

/-- An opened request was sealed by the other peer. -/
theorem Sound.opened_request (h : Sound hmac k s)
    (hunforged : s.Unforged hmac (.openKeys i fault false input))
    (hopen : OpenedKeys (s.peer i) (provided hmac fault) false input a') :
    ⟨envelopeCounter input, envelopeBody input⟩ ∈ s.sentRequests !i := by
  obtain ⟨tag, hhmac, htag⟩ := hopen.tag
  rw [hmac_of_provided hhmac] at htag
  have ht := hunforged htag
  rw [(h.holds i).key, macInput_eq (h.holds i)] at ht
  rcases h.tagged_cases (envelopeCounter_le input) ht with
    hd | ⟨-, j, hrole, r, hsent, hcounter, hrest⟩ | ⟨hd, -⟩ | ⟨hd, -⟩
  · exact absurd hd (by decide)
  · rw [other_of_role hrole] at hsent
    rw [body_of_sized hrest, ← hcounter]
    exact hsent
  · exact absurd hd (by decide)
  · exact absurd hd (by decide)

/-- An opened response was sealed by the other peer, behind a request with
the counter of the last one here. -/
theorem Sound.opened_response (h : Sound hmac k s)
    (hunforged : s.Unforged hmac (.openKeys i fault true input))
    (hopen : OpenedKeys (s.peer i) (provided hmac fault) true input a') :
    ∃ r ∈ s.sentResponses !i, r.material = envelopeBody input
      ∧ r.request.isSome = true ∧ r.request = (s.sentRequests i).getLast? := by
  obtain ⟨tag, hhmac, htag⟩ := hopen.tag
  rw [hmac_of_provided hhmac] at htag
  have ht := hunforged htag
  rw [(h.holds i).key, macInput_eq (h.holds i)] at ht
  rcases h.tagged_cases (envelopeCounter_le input) ht with
    hd | ⟨hd, -⟩ | ⟨-, j, hrole, r, hsent, q, hanswers, hcounter, hrest⟩ | ⟨hd, -⟩
  · exact absurd hd (by decide)
  · exact absurd hd (by decide)
  · rw [other_of_role hrole] at hsent
    refine ⟨r, hsent, (body_of_sized hrest).symm, by rw [hanswers]; rfl, ?_⟩
    have hkeys := h.keys i
    obtain ⟨q', hq', hrequest⟩ := hkeys.responses r hsent
    obtain rfl : q = q' := Option.some.inj (hanswers.symm.trans hrequest)
    -- One counter stands for one request, and the last one has this counter.
    have hlast := hkeys.last.resolve_left fun hzero =>
      hopen.nonzero ((hopen.echoes rfl).1.trans hzero.1)
    have hsame := hkeys.unique q (hkeys.accepted q hq').1 _ (mem_of_getLast? hlast)
      (hcounter.trans (hopen.echoes rfl).1)
    rw [hanswers, hsame]
    exact hlast.symm
  · exact absurd hd (by decide)

theorem sound_openKeys (h : Sound hmac k s) (fault : Option Error) (response : Bool)
    (input : Bytes) (hunforged : s.Unforged hmac (.openKeys i fault response input)) :
    Sound hmac k (s.step hmac (.openKeys i fault response input)) := by
  unfold Pair.step
  dsimp only
  rcases openKeys_cases (provided hmac fault) (s.peer i) response input
    with hopen | ⟨a', hopen, hopened⟩
  · rw [hopen]
    dsimp only
    rw [put_same]
    exact h
  rw [hopen]
  dsimp only
  cases response with
  | true =>
    obtain ⟨-, rfl⟩ := hopened.echoes rfl
    simp only [if_true]
    rw [put_same]
    exact h
  | false =>
    simp only [Bool.false_eq_true, if_false]
    obtain ⟨hle, -, rfl⟩ := hopened.counts rfl
    have hsent := h.opened_request hunforged hopened
    have haccept := (h.keys !i).accept hsent (by simpa [Pair.keyChannel] using hle)
    refine h.next (same_put ⟨rfl, rfl, rfl, rfl, rfl, rfl⟩) (.of_eq rfl rfl rfl rfl) ?_
      (h.fec_frame rfl rfl rfl rfl rfl) (h.control_frame rfl rfl rfl rfl rfl)
      (fun _ _ he => .inl he) (fun _ _ hw => .inl hw) (fun _ ht => .inl ht)
    refine Lts.forall_side i ?_ ?_
    · have hkeys := h.keys i
      cases i <;> exact hkeys
    · cases i <;> exact haccept

/-! ### Parity -/

theorem sound_sealFec (h : Sound hmac k s) (fault : Option Error) (header : DataHeader)
    (parity : Bytes) (capacity : Nat) :
    Sound hmac k (s.step hmac (.sealFec i fault header parity capacity)) := by
  unfold Pair.step
  dsimp only
  rcases sealFec_cases (provided hmac fault) (s.peer i) header parity capacity
    with ⟨e, hseal⟩ | ⟨tag, hroom, hmac', hseal⟩
  · rw [hseal]
    dsimp only
    rw [put_same]
    exact h
  rw [hseal]
  dsimp only
  have hbound : (s.peer i).fecSentCounter + 1 ≤ maximumCounter :=
    Nat.lt_of_le_of_ne (h.fec i).bound hroom
  obtain ⟨hne, hsize, hnumber, htag⟩ := fecMac_ok hmac'
  have htag := hmac_of_provided htag
  have hcounter := envelopeCounter_envelope parity tag hbound
  have hcount := (h.fec i).count hroom
  rw [hcounter]
  refine h.next (same_put ⟨rfl, rfl, rfl, rfl, rfl, rfl⟩) ⟨fun _ => List.Subset.refl _,
    fun _ => List.Subset.refl _, subset_append _ _, fun _ => List.Subset.refl _⟩
    (h.keys_frame rfl rfl rfl rfl rfl rfl rfl rfl) ?_ (h.control_frame rfl rfl rfl rfl rfl) ?_
    (fun _ _ hw => .inl hw) (forall_mem_cons.2 ⟨.inr ?_, fun _ ht => .inl ht⟩)
  · refine Lts.forall_side i ?_ ?_
    · have hchannel : ∀ sent, sent = (s.fecChannel i).sent ++ [(s.peer i).fecSentCounter + 1] →
          WindowChannel.Sound { s.fecChannel i with
            sentCounter := (s.peer i).fecSentCounter + 1, sent } := by
        rintro _ rfl
        exact hcount
      have hsent : ((s.sentFec i ++ [(header, put64 ((s.peer i).fecSentCounter + 1) ++ parity
          ++ tag.val)]).map fun e => envelopeCounter e.2)
          = (s.fecChannel i).sent ++ [(s.peer i).fecSentCounter + 1] := by
        rw [map_append, map_singleton, hcounter]
        rfl
      cases i <;> exact hchannel _ hsent
    have hfec := h.fec !i
    cases i <;> exact hfec
  · intro j e he
    rcases mem_append he with he | ⟨rfl, rfl⟩
    · exact .inl he
    refine .inr ⟨_, parity, hbound, hne, hsize, hnumber, ?_⟩
    rw [htag, (h.holds j).key, fecMacInput_eq (h.holds j)]
  rw [(h.holds i).key, fecMacInput_eq (h.holds i)]
  refine .fec i (by simp [Pair.put]) _ ?_
  have hmem := mem_map_of_mem (f := fun e : DataHeader × Bytes => envelopeCounter e.2)
    (append_self (i := i) s.sentFec
      (header, put64 ((s.peer i).fecSentCounter + 1) ++ parity ++ tag.val))
  rw [hcounter] at hmem
  exact hmem

/-- An opened parity envelope has a counter the other peer used. -/
theorem Sound.opened_fec (h : Sound hmac k s) {header : DataHeader}
    (hunforged : s.Unforged hmac (.openFec i fault header input)) {tag : Tag}
    (hmac' : (s.peer i).fecMac (provided hmac fault) (!(s.peer i).caller) (envelopeCounter input)
      header (envelopeBody input) = .ok tag) (htag : tag.val = envelopeTag input) :
    envelopeCounter input ∈ (s.fecChannel !i).sent := by
  rw [hmac_of_provided (fecMac_ok hmac').2.2.2] at htag
  have ht := hunforged htag
  rw [(h.holds i).key, fecMacInput_eq (h.holds i)] at ht
  rcases h.tagged_cases (envelopeCounter_le input) ht with
    hd | ⟨hd, -⟩ | ⟨hd, -⟩ | ⟨-, j, hrole, hsent⟩
  · exact absurd hd (by decide)
  · exact absurd hd (by decide)
  · exact absurd hd (by decide)
  rw [other_of_role hrole] at hsent
  exact hsent

theorem sound_openFec (h : Sound hmac k s) (fault : Option Error) (header : DataHeader)
    (input : Bytes) (hunforged : s.Unforged hmac (.openFec i fault header input)) :
    Sound hmac k (s.step hmac (.openFec i fault header input)) := by
  unfold Pair.step
  dsimp only
  rcases openFec_cases (provided hmac fault) (s.peer i) header input
    with hopen | ⟨-, hwindow, ⟨tag, hmac', htag⟩, hopen⟩
  · rw [hopen]
    dsimp only
    rw [put_same]
    exact h
  rw [hopen]
  dsimp only
  have haccept := (h.fec !i).accept (h.opened_fec hunforged hmac' htag)
    (by simpa [Pair.fecChannel] using hwindow)
  refine h.next (same_put ⟨rfl, rfl, rfl, rfl, rfl, rfl⟩) (.of_eq rfl rfl rfl rfl)
    (h.keys_frame rfl rfl rfl rfl rfl rfl rfl rfl) ?_ (h.control_frame rfl rfl rfl rfl rfl)
    (fun _ _ he => .inl he) (fun _ _ hw => .inl hw) (fun _ ht => .inl ht)
  refine Lts.forall_side i ?_ ?_
  · have hfec := h.fec i
    cases i <;> exact hfec
  · cases i <;> exact haccept

/-! ### Controls -/

/-- The counter of an envelope is behind the header and the version word. -/
theorem controlCounter_eq (header : ControlHeader) (payload : Bytes) :
    controlCounter (header.bytes ++ payload) = get64 ((payload.drop 4).take 8) := by
  unfold controlCounter
  have hdrop : (header.bytes ++ payload).drop 20 = payload.drop 4 := by
    rw [show 20 = packetHeaderSize + 4 from rfl, ← drop_drop, drop_left' header.bytes_length]
  rw [hdrop]

theorem sound_sealControl (h : Sound hmac k s) (fault : Option Error) (packet : Bytes)
    (capacity : Nat) : Sound hmac k (s.step hmac (.sealControl i fault packet capacity)) := by
  unfold Pair.step
  dsimp only
  rcases sealControl_cases (provided hmac fault) (s.peer i) packet capacity
    with ⟨e, hseal⟩ | ⟨inner, payload, tag, hsealed, hseal⟩
  · rw [hseal]
    dsimp only
    rw [put_same]
    exact h
  rw [hseal]
  dsimp only
  have hbound : (s.peer i).controlSentCounter + 1 ≤ maximumCounter :=
    Nat.lt_of_le_of_ne (h.control i).bound hsealed.room
  obtain ⟨hversion, htag⟩ := controlMac_ok hsealed.tag
  have htag := hmac_of_provided htag
  have hcounter : controlCounter ((outerHeader inner).bytes
      ++ envelopePayload ((s.peer i).controlSentCounter + 1) packet ++ tag.val)
      = (s.peer i).controlSentCounter + 1 := by
    rw [append_assoc, controlCounter_eq, counter_envelopePayload _ _ hbound]
  have hcount := (h.control i).count hsealed.room
  have htake : ∀ wire : Bytes, (wire ++ tag.val).take ((wire ++ tag.val).length - 32) = wire := by
    intro wire
    rw [length_append, tag.property, Nat.add_sub_cancel, take_left' rfl]
  rw [htake]
  refine h.next (same_put ⟨rfl, rfl, rfl, rfl, rfl, rfl⟩) ⟨fun _ => List.Subset.refl _,
    fun _ => List.Subset.refl _, fun _ => List.Subset.refl _, subset_append _ _⟩
    (h.keys_frame rfl rfl rfl rfl rfl rfl rfl rfl) (h.fec_frame rfl rfl rfl rfl rfl) ?_
    (fun _ _ he => .inl he) ?_ (forall_mem_cons.2 ⟨.inr ?_, fun _ ht => .inl ht⟩)
  · refine Lts.forall_side i ?_ ?_
    · have hchannel : ∀ sent,
          sent = (s.controlChannel i).sent ++ [(s.peer i).controlSentCounter + 1] →
          WindowChannel.Sound { s.controlChannel i with
            sentCounter := (s.peer i).controlSentCounter + 1, sent } := by
        rintro _ rfl
        exact hcount
      have hsent : ((s.sentControl i ++ [(outerHeader inner).bytes
          ++ envelopePayload ((s.peer i).controlSentCounter + 1) packet ++ tag.val]).map
          controlCounter)
          = (s.controlChannel i).sent ++ [(s.peer i).controlSentCounter + 1] := by
        rw [map_append, map_singleton, hcounter]
        rfl
      cases i <;> exact hchannel _ hsent
    have hcontrol := h.control !i
    cases i <;> exact hcontrol
  · intro j wire hwire
    rcases mem_append hwire with hwire | ⟨rfl, rfl⟩
    · exact .inl hwire
    have hholds := h.holds j
    refine .inr ⟨_, packet, inner, payload, hbound, ?_, hsealed.size, hsealed.decoded, ?_, ?_⟩
    · rw [← hholds.version]
      exact hversion
    · rw [← hholds.version]
      exact hsealed.carried
    · rw [htag, hholds.controlKey]
  rw [(h.holds i).controlKey]
  exact .control i (by simp [Pair.put]) (append_self _ _) tag.property

section

variable (h : Sound hmac k s)
  (hfresh : isAcp1SessionVersion k.version = true → k.controlKey true ≠ k.controlKey false)
include h hfresh

/-- An opened control envelope has a counter the other peer used. -/
theorem Sound.opened_control {header : ControlHeader} {payload : Bytes}
    (hunforged : s.Unforged hmac (.openControl i fault (.control header payload)))
    (hopen : OpenedControl (s.peer i) (provided hmac fault) header payload) :
    get64 ((payload.drop 4).take 8) ∈ (s.controlChannel !i).sent := by
  obtain ⟨wire, tag, hencode, hmac', htag⟩ := hopen.tag
  obtain ⟨hversion, hhmac⟩ := controlMac_ok hmac'
  have hlong : 64 ≤ payload.length := by
    have hshape := hopen.shape
    simp only [EnvelopeShape, not_or, Nat.not_lt] at hshape
    exact hshape.2.2.2.2.2.1
  have hbody : (payload.take (payload.length - 32)).length = payload.length - 32 := by
    rw [length_take]
    omega
  have hne : payload.take (payload.length - 32) ≠ [] := by
    intro hnil
    rw [hnil, length_nil] at hbody
    omega
  have hwire : wire = header.bytes ++ payload.take (payload.length - 32) := by
    rw [encodePacket_control hne] at hencode
    split at hencode
    · cases hencode
    · exact (Except.ok.inj hencode).symm
  rw [hmac_of_provided hhmac, hwire] at htag
  have ht := hunforged htag
  have hvouched := h.tagged _ ht
  rw [(h.holds i).controlKey] at hvouched
  generalize hinput : (k.controlKey !(s.peer i).caller, controlLabel ++ (header.bytes
    ++ payload.take (payload.length - 32))) = t at hvouched
  cases hvouched with
  | control j hrole hsent hsize =>
    next caller wire' tag' =>
    obtain ⟨hkeys, hlabelled⟩ := Prod.mk.inj hinput
    -- The two directions have different keys.
    have hcaller : caller = !(s.peer i).caller := by
      rw [(h.holds i).version] at hversion
      have hdistinct := hfresh hversion
      generalize (!(s.peer i).caller) = direction at hkeys ⊢
      cases caller <;> cases direction <;> simp_all
    rw [other_of_role (hrole.trans hcaller)] at hsent
    have hsame : header.bytes ++ payload.take (payload.length - 32) = wire' :=
      append_cancel_left hlabelled
    refine mem_map.2 ⟨_, hsent, ?_⟩
    rw [← hsame, append_assoc, controlCounter_eq]
    have hfront : ((payload.take (payload.length - 32) ++ tag').drop 4).take 8
        = (payload.drop 4).take 8 := by
      rw [drop_append_of_le_length (by omega), take_append_of_le_length, drop_take, take_take]
      · congr 1
        omega
      rw [length_drop]
      omega
    rw [hfront]
  | proof caller rest | request j hrole hsent | response j hrole hsent hanswers
  | fec j hrole rest hsent =>
    exact absurd (Prod.mk.inj hinput).2 (controlLabel_ne_macFrame _ _ _ _ _ _)

theorem sound_openControl (fault : Option Error) (envelope : PacketView)
    (hunforged : s.Unforged hmac (.openControl i fault envelope)) :
    Sound hmac k (s.step hmac (.openControl i fault envelope)) := by
  unfold Pair.step
  dsimp only
  rcases openControl_cases (provided hmac fault) (s.peer i) envelope
    with hopen | ⟨header, payload, packet, rfl, hopened, hopen⟩
  · rw [hopen]
    dsimp only
    rw [put_same]
    exact h
  rw [hopen]
  dsimp only
  have haccept := (h.control !i).accept (h.opened_control hfresh hunforged hopened)
    (by simpa [Pair.controlChannel] using hopened.window)
  refine h.next (same_put ⟨rfl, rfl, rfl, rfl, rfl, rfl⟩) (.of_eq rfl rfl rfl rfl)
    (h.keys_frame rfl rfl rfl rfl rfl rfl rfl rfl) (h.fec_frame rfl rfl rfl rfl rfl) ?_
    (fun _ _ he => .inl he) (fun _ _ hw => .inl hw) (fun _ ht => .inl ht)
  refine Lts.forall_side i ?_ ?_
  · have hcontrol := h.control i
    cases i <;> exact hcontrol
  · cases i <;> exact haccept

theorem Sound.step (e : Event) (hunforged : s.Unforged hmac e) : Sound hmac k (s.step hmac e) := by
  cases e with
  | handshakeProof i fault caller material => exact sound_handshakeProof h fault caller material
  | sealKeys i fault response material capacity =>
    exact sound_sealKeys h fault response material capacity
  | openKeys i fault response input => exact sound_openKeys h fault response input hunforged
  | sealFec i fault header parity capacity => exact sound_sealFec h fault header parity capacity
  | openFec i fault header input => exact sound_openFec h fault header input hunforged
  | sealControl i fault packet capacity => exact sound_sealControl h fault packet capacity
  | openControl i fault envelope => exact sound_openControl h hfresh fault envelope hunforged

end

end Steps

/-! ## Genuine envelopes -/

section Genuine

variable {hmac : Bytes → Bytes → Tag} {k : Keys} {a : SessionAuthentication}

/-- Only the window stands between a parity envelope and its receiver. -/
theorem openFec_genuine (h : Holds k a) {e : DataHeader × Bytes}
    (he : FecShape hmac k (!a.caller) e) (hne : envelopeCounter e.2 ≠ 0) :
    (a.openFec (provided hmac none) e.1 e.2).2.isSome = true
      ↔ a.fecReceived.refuses (envelopeCounter e.2) = false := by
  obtain ⟨header, input⟩ := e
  obtain ⟨counter, parity, hbound, hparity, hsize, hnumber, hform⟩ := he
  dsimp only at hform hne hnumber ⊢
  have hpos : 0 < parity.length := length_pos_iff.2 hparity
  have hlength : input.length = parity.length + 40 := by rw [hform, envelope_length]
  have hmac' : a.fecMac (provided hmac none) (!a.caller) (envelopeCounter input) header
      (envelopeBody input) = .ok (hmac k.key (macFrame k.version 4 (!a.caller) counter
        (writeU16 parity.length ++ (header.bytes ++ parity)))) := by
    rw [hform, envelopeCounter_envelope _ _ hbound, envelopeBody_envelope, fecMac_eq,
      fecMacInput_eq h, h.key]
    refine if_neg ?_
    simp only [not_or, Nat.not_lt, not_not]
    exact ⟨by simp [h.ready], by simpa using hparity, hsize, hnumber⟩
  have htag : (hmac k.key (macFrame k.version 4 (!a.caller) counter
      (writeU16 parity.length ++ (header.bytes ++ parity)))).val = envelopeTag input := by
    rw [hform, envelopeTag_envelope]
  have hfits : ¬ (input.length ≤ authenticatedFecOverhead
      ∨ maximumDataPayloadSize < input.length) := by
    unfold authenticatedFecOverhead maximumDataPayloadSize at *
    omega
  unfold openFec
  dsimp only
  rw [if_neg hfits, if_neg hne, hmac']
  cases hwindow : a.fecReceived.refuses (envelopeCounter input) with
  | true => simp
  | false => simp [htag]

/-- An envelope decodes to the packet that is opened, and only the window
stands between it and its receiver. -/
theorem openControl_genuine (h : Holds k a) {wire : Bytes}
    (hwire : ControlShape hmac k (!a.caller) wire) (hne : controlCounter wire ≠ 0) :
    ∃ envelope, decodePacket wire = .ok envelope
      ∧ ((a.openControl (provided hmac none) envelope).2.isSome = true
        ↔ a.controlReceived.refuses (controlCounter wire) = false) := by
  obtain ⟨counter, packet, inner, body, hbound, hversion, hsize, hdecoded, hcarried, hform⟩ := hwire
  obtain ⟨hlength, hshape⟩ := length_of_decodePacket hdecoded
  simp only [hasValidControlPayloadShape, Bool.and_eq_true, Bool.not_eq_true', beq_iff_eq,
    isEmpty_eq_false_iff] at hshape
  have hbody : 4 ≤ body.length := by
    have := length_pos_iff.2 hshape.1
    omega
  generalize htagged : hmac (k.controlKey !a.caller) (controlLabel
    ++ ((outerHeader inner).bytes ++ envelopePayload counter packet)) = tag at hform
  have hsealed : (envelopePayload counter packet ++ tag.val).length = packet.length + 44 := by
    rw [length_append, envelopePayload_length, tag.property]
  have hcounter : controlCounter wire = counter := by
    rw [hform, append_assoc, controlCounter_eq, counter_envelopePayload _ _ hbound]
  have hfront : (envelopePayload counter packet ++ tag.val).take (packet.length + 44 - 32)
      = envelopePayload counter packet :=
    take_left' (envelopePayload_length counter packet)
  have hback : (envelopePayload counter packet ++ tag.val).drop (packet.length + 44 - 32)
      = tag.val :=
    drop_left' (envelopePayload_length counter packet)
  refine ⟨.control (outerHeader inner) (envelopePayload counter packet ++ tag.val), ?_, ?_⟩
  · rw [hform, append_assoc]
    refine decodePacket_control ?_
    unfold packetHeaderSize at hlength
    simp only [hasValidControlPayloadShape, Bool.and_eq_true, Bool.not_eq_true', beq_iff_eq,
      isEmpty_eq_false_iff]
    refine ⟨fun hnil => ?_, by rw [hsealed]; omega⟩
    rw [hnil, length_nil] at hsealed
    omega
  rw [hcounter] at hne ⊢
  unfold packetHeaderSize maximumControlSize authenticatedControlOverhead at *
  have hlooked : EnvelopeShape a (outerHeader inner)
      (envelopePayload counter packet ++ tag.val) := by
    unfold EnvelopeShape
    rw [hsealed, h.ready, h.version, hversion]
    unfold packetHeaderSize maximumControlSize
    simp only [not_or, Nat.not_lt, not_not]
    exact ⟨nofun, nofun, rfl, rfl, rfl, by omega, by omega, rfl⟩
  have hinner : a.innerControl (outerHeader inner) (envelopePayload counter packet ++ tag.val)
      = some (.control inner body) := by
    unfold innerControl
    rw [hsealed, Nat.add_sub_cancel, packet_envelopePayload, hdecoded]
    dsimp only
    rw [h.version]
    exact if_pos ⟨hcarried, rfl, rfl⟩
  have hencode : encodePacket (.control (outerHeader inner) (envelopePayload counter packet))
      maximumControlSize = .ok ((outerHeader inner).bytes ++ envelopePayload counter packet) := by
    rw [encodePacket_control (by simp [envelopePayload]), envelopePayload_length]
    unfold packetHeaderSize maximumControlSize
    exact if_neg (by omega)
  have hmac' : a.controlMac (provided hmac none) (!a.caller) ((outerHeader inner).bytes
      ++ envelopePayload counter packet) = .ok tag := by
    unfold controlMac
    rw [h.ready, h.version, hversion, length_append, envelopePayload_length,
      ControlHeader.bytes_length, h.controlKey]
    unfold packetHeaderSize maximumControlSize
    rw [if_neg (by simp only [not_or, Nat.not_lt]; exact ⟨nofun, nofun, by omega⟩), ← htagged]
    rfl
  unfold openControl
  dsimp only
  unfold EnvelopeShape at hlooked
  rw [if_neg hlooked, counter_envelopePayload _ _ hbound, if_neg hne, hinner, hsealed, hfront,
    hencode, hback]
  dsimp only
  rw [hmac']
  cases hwindow : a.controlReceived.refuses counter with
  | true => simp
  | false => simp

end Genuine

/-! ## Runs -/

section Runs

variable {hmac : Bytes → Bytes → Tag} {start : Bool → SessionAuthentication} {s : Pair}

/-- The keys of a session, as the first peer holds them. -/
def keysOf (start : Bool → SessionAuthentication) : Keys where
  version := (start false).version
  key := (start false).key
  controlKey := (start false).controlKey

theorem sound_init (h : Established start) : Sound hmac (keysOf start) { peer := start } where
  holds := by
    intro i
    cases i with
    | false => exact ⟨h.ready false, rfl, rfl, fun _ => rfl⟩
    | true => exact ⟨h.ready true, h.version, h.key, h.controlKey⟩
  roles := h.roles
  keys := by
    intro j
    have hsender := h.unused j
    have hreceiver := h.unused !j
    exact {
      bound := by simp [Pair.keyChannel, hsender.1]
      sent := by simp [Pair.keyChannel]
      unique := by simp [Pair.keyChannel]
      last := .inl ⟨hsender.1, hsender.2.2.1, rfl⟩
      accepted := by simp [Pair.keyChannel]
      lastAccepted := .inl ⟨hreceiver.2.1, rfl⟩
      ordered := List.Pairwise.nil
      responses := by simp [Pair.keyChannel] }
  fec := by
    intro j
    obtain ⟨-, -, -, hsent, -⟩ := h.unused j
    obtain ⟨-, -, -, -, hwindow, -⟩ := h.unused !j
    refine ⟨by simp [Pair.fecChannel, hsent], by simp [Pair.fecChannel],
      by simp [Pair.fecChannel], nodup_nil, ?_⟩
    simpa [Pair.fecChannel, hwindow] using ReplayWindow.remembers_empty
  control := by
    intro j
    obtain ⟨-, -, -, -, -, hsent, -⟩ := h.unused j
    obtain ⟨-, -, -, -, -, -, hwindow⟩ := h.unused !j
    refine ⟨by simp [Pair.controlChannel, hsent], by simp [Pair.controlChannel],
      by simp [Pair.controlChannel], nodup_nil, ?_⟩
    simpa [Pair.controlChannel, hwindow] using ReplayWindow.remembers_empty
  fecShape := by simp
  controlShape := by simp
  tagged := by simp

theorem sound_of_reaches (hstart : Established start)
    (h : Lts.Reaches (session hmac start) (fun s e => s.Unforged hmac e) s) :
    Sound hmac (keysOf start) s := by
  refine h.invariant (fun s hs => ?_) (fun s e t _ hs hunforged hstep => ?_)
  · obtain rfl : s = _ := hs
    exact sound_init hstart
  obtain rfl : t = _ := hstep
  exact hs.step hstart.fresh e hunforged

variable {k : Keys} {i : Bool}

theorem Sound.fecWindow (h : Sound hmac k s) {e : DataHeader × Bytes} (he : e ∈ s.sentFec !i)
    (hnew : envelopeCounter e.2 ∉ s.acceptedFec i) :
    ((s.peer i).openFec (provided hmac none) e.1 e.2).2.isSome = true
      ↔ ∀ d ∈ s.acceptedFec i, d < envelopeCounter e.2 + 64 := by
  have hsound := h.fec !i
  have hsent : envelopeCounter e.2 ∈ (s.fecChannel !i).sent := mem_map_of_mem he
  have hacc : (s.fecChannel !i).accepted = s.acceptedFec i := by simp [Pair.fecChannel]
  have hwindow : (s.fecChannel !i).window = (s.peer i).fecReceived := by simp [Pair.fecChannel]
  have hshape := h.fecShape (!i) e he
  rw [h.roles i] at hshape
  rw [openFec_genuine (h.holds i) hshape (hsound.sent _ hsent).1, ← hwindow,
    hsound.refuses_iff hsent (hacc ▸ hnew), hacc]

theorem Sound.controlWindow (h : Sound hmac k s) {wire : Bytes} (hwire : wire ∈ s.sentControl !i) :
    ∃ envelope, decodePacket wire = .ok envelope ∧ (controlCounter wire ∉ s.acceptedControl i →
        (((s.peer i).openControl (provided hmac none) envelope).2.isSome = true
          ↔ ∀ d ∈ s.acceptedControl i, d < controlCounter wire + 64)) := by
  have hsound := h.control !i
  have hsent : controlCounter wire ∈ (s.controlChannel !i).sent := mem_map_of_mem hwire
  have hacc : (s.controlChannel !i).accepted = s.acceptedControl i := by
    simp [Pair.controlChannel]
  have hwindow : (s.controlChannel !i).window = (s.peer i).controlReceived := by
    simp [Pair.controlChannel]
  have hshape := h.controlShape (!i) wire hwire
  rw [h.roles i] at hshape
  obtain ⟨envelope, hdecode, hopen⟩ :=
    openControl_genuine (h.holds i) hshape (hsound.sent _ hsent).1
  refine ⟨envelope, hdecode, fun hnew => ?_⟩
  rw [hopen, ← hwindow, hsound.refuses_iff hsent (hacc ▸ hnew), hacc]

/-- What is refused leaves the object alone. -/
theorem refused_unchanged (a : SessionAuthentication) (provider : AuthenticationProvider) :
    (∀ response input, (a.openKeys provider response input).2 = none →
      (a.openKeys provider response input).1 = a)
    ∧ (∀ header input, (a.openFec provider header input).2 = none →
      (a.openFec provider header input).1 = a)
    ∧ (∀ envelope, (a.openControl provider envelope).2 = none →
      (a.openControl provider envelope).1 = a) := by
  refine ⟨fun response input hnone => ?_, fun header input hnone => ?_, fun envelope hnone => ?_⟩
  · rcases openKeys_cases provider a response input with hopen | ⟨_, hopen, -⟩
    · rw [hopen]
    rw [hopen] at hnone
    cases hnone
  · rcases openFec_cases provider a header input with hopen | ⟨-, -, -, hopen⟩
    · rw [hopen]
    rw [hopen] at hnone
    cases hnone
  rcases openControl_cases provider a envelope
    with hopen | ⟨_, _, _, -, -, hopen⟩
  · rw [hopen]
  rw [hopen] at hnone
  cases hnone

theorem Sound.protects (h : Sound hmac k s) (i : Bool) : Protected hmac s i where
  genuine := by
    intro r hr
    have hmem : r ∈ (s.keyChannel !i).accepted := by simpa [Pair.keyChannel] using hr
    exact ((h.keys !i).accepted r hmem).1
  ordered := by
    have hordered := (h.keys !i).ordered
    simpa [Pair.keyChannel] using hordered
  response := by
    intro fault input material hunforged hopen
    rcases openKeys_cases (provided hmac fault) (s.peer i) true input
      with hnone | ⟨a', hsome, hopened⟩
    · rw [hnone] at hopen
      cases hopen
    rw [hsome] at hopen
    obtain rfl := Option.some.inj hopen
    exact h.opened_response hunforged hopened
  fecOnce := by
    have hsound := h.fec !i
    refine ⟨by simpa [Pair.fecChannel] using hsound.once, fun c hc => ?_⟩
    exact mem_map.1 (hsound.accepted c (by simpa [Pair.fecChannel] using hc))
  fecWindow := fun e he hnew => h.fecWindow he hnew
  controlOnce := by
    have hsound := h.control !i
    refine ⟨by simpa [Pair.controlChannel] using hsound.once, fun c hc => ?_⟩
    exact mem_map.1 (hsound.accepted c (by simpa [Pair.controlChannel] using hc))
  controlWindow := fun wire hwire => h.controlWindow hwire
  refused := refused_unchanged (s.peer i)

end Runs

/-- The two halves of a setup meet: what `start` and `establish` leave at a
caller and at the listener that took its offer are established peers, unless
the two control keys collide. -/
theorem established_of_establish (pc pl : AuthenticationProvider)
    (hpbkdf2 : pl.pbkdf2HmacSha1 = pc.pbkdf2HmacSha1) (hhmac : pl.hmacSha256 = pc.hmacSha256)
    {version callerId listenerId callerCookie listenerCookie : Nat}
    {passphrase groupContext : Bytes} {answer : SessionAuthenticationParameters}
    {c l c' l' : SessionAuthentication}
    (hc : ({} : SessionAuthentication).start pc true version = (c, .ok ()))
    (hl : ({} : SessionAuthentication).start pl false version = (l, .ok ()))
    (hl' : l.establish pl passphrase c.parameters listenerId callerId listenerCookie callerCookie
      groupContext = (l', .ok ()))
    (hanswer : answer.listenerNonce = l'.parameters.listenerNonce)
    (hc' : c.establish pc passphrase answer callerId listenerId callerCookie listenerCookie
      groupContext = (c', .ok ()))
    (hfresh : isAcp1SessionVersion version = true → c'.callerControlKey ≠ c'.listenerControlKey) :
    Established fun i => bif i then l' else c' := by
  obtain ⟨callerNonce, rfl⟩ : ∃ nonce : Bytes, c
      = { caller := true, started := true, parameters := { version, callerNonce := nonce } } := by
    obtain ⟨nonce, hstart⟩ := start_ok pc (congrArg Prod.snd hc)
    exact ⟨nonce, (congrArg Prod.fst hc).symm.trans hstart⟩
  obtain ⟨listenerNonce, rfl⟩ : ∃ nonce : Bytes, l
      = { started := true, parameters := { version, listenerNonce := nonce } } := by
    obtain ⟨nonce, hstart⟩ := start_ok pl (congrArg Prod.snd hl)
    exact ⟨nonce, (congrArg Prod.fst hl).symm.trans hstart⟩
  obtain ⟨lp, lkey, hlnonce, hlkey, hlderived⟩ := establish_ok (congrArg Prod.snd hl')
  obtain ⟨cp, ckey, hcnonce, hckey, hcderived⟩ := establish_ok (congrArg Prod.snd hc')
  rw [hl'] at hlderived
  rw [hc'] at hcderived
  replace hlderived : KeysDerived pl _ l' := hlderived
  replace hcderived : KeysDerived pc _ c' := hcderived
  -- Both have both nonces now.
  obtain rfl : lp = { version, callerNonce, listenerNonce } := by
    unfold takePeerNonce at hlnonce
    rw [if_neg Bool.false_ne_true] at hlnonce
    split at hlnonce
    · cases hlnonce
    · exact (Option.some.inj hlnonce).symm
  have hlparameters : l'.parameters = { version, callerNonce, listenerNonce } := by
    cases hversion : isAcp1SessionVersion version with
    | false => rw [hlderived.plain hversion]
    | true =>
      obtain ⟨_, _, -, -, heq⟩ := hlderived.acp1 hversion
      rw [heq]
  obtain rfl : cp = { version, callerNonce, listenerNonce } := by
    unfold takePeerNonce at hcnonce
    rw [if_pos rfl] at hcnonce
    split at hcnonce
    · cases hcnonce
    · rw [← Option.some.inj hcnonce, hanswer, hlparameters]
  -- So they derive one key from one salt.
  obtain rfl : lkey = ckey := by
    rw [hpbkdf2] at hlkey
    exact Except.ok.inj (hlkey.symm.trans hckey)
  cases hversion : isAcp1SessionVersion version with
  | false =>
    have hlplain := hlderived.plain hversion
    have hcplain := hcderived.plain hversion
    subst hlplain hcplain
    refine ⟨?_, ?_, rfl, rfl, fun _ => rfl, ?_, ?_⟩
    · rintro (_ | _) <;> rfl
    · rintro (_ | _) <;> rfl
    · exact hfresh
    · rintro (_ | _) <;> exact ⟨rfl, rfl, rfl, rfl, rfl, rfl, rfl⟩
  | true =>
    obtain ⟨lcaller, llistener, hlc, hll, hlplain⟩ := hlderived.acp1 hversion
    obtain ⟨ccaller, clistener, hcc, hcl, hcplain⟩ := hcderived.acp1 hversion
    rw [hhmac] at hlc hll
    obtain rfl : lcaller = ccaller := Except.ok.inj (hlc.symm.trans hcc)
    obtain rfl : llistener = clistener := Except.ok.inj (hll.symm.trans hcl)
    subst hlplain hcplain
    refine ⟨?_, ?_, rfl, rfl, fun _ => rfl, ?_, ?_⟩
    · rintro (_ | _) <;> rfl
    · rintro (_ | _) <;> rfl
    · exact hfresh
    · rintro (_ | _) <;> exact ⟨rfl, rfl, rfl, rfl, rfl, rfl, rfl⟩

/-- Between two established peers, whatever an adversary that cannot forge
tags delivers: requests are the peer's own and never go back, a response
answers the last request, every parity and control counter is taken once and
within the window always, and what is refused changes nothing. -/
theorem no_rollback_and_no_replay {hmac : Bytes → Bytes → Tag}
    {start : Bool → SessionAuthentication} (hstart : Established start) {s : Pair}
    (h : Lts.Reaches (session hmac start) (fun s e => s.Unforged hmac e) s) (i : Bool) :
    Protected hmac s i :=
  (sound_of_reaches hstart h).protects i

/-! A caller and a listener of the ACP1 profile, with a checksum for the MAC:
a request and its response, a parity envelope twice, a control. -/

def checksum (key input : Bytes) : Tag :=
  let sum := (key ++ input).foldl (fun n b => (n * 31 + b.toNat) % 2 ^ 64) 7
  ⟨put64 sum ++ put64 sum ++ put64 sum ++ put64 sum, rfl⟩

def checksumProvider (nonce : UInt8) : AuthenticationProvider where
  randomBytes := .ok ⟨replicate 32 nonce, by simp⟩
  pbkdf2HmacSha1 := fun passphrase salt _ => .ok (checksum passphrase salt)
  hmacSha256 := fun key input => .ok (checksum key input)

def callerStart : SessionAuthentication :=
  (({} : SessionAuthentication).start (checksumProvider 1) true 3).1

def listenerStart : SessionAuthentication :=
  (({} : SessionAuthentication).start (checksumProvider 2) false 3).1

def listenerReady : SessionAuthentication :=
  (listenerStart.establish (checksumProvider 2) [112] callerStart.parameters 22 11 0 0 []).1

def callerReady : SessionAuthentication :=
  (callerStart.establish (checksumProvider 1) [112] listenerReady.parameters 11 22 0 0 []).1

def examplePeers (i : Bool) : SessionAuthentication := bif i then listenerReady else callerReady

theorem established_examplePeers : Established examplePeers :=
  established_of_establish (checksumProvider 1) (checksumProvider 2) rfl rfl
    (c := callerStart) (l := listenerStart) (Prod.ext rfl (by decide +kernel))
    (Prod.ext rfl (by decide +kernel)) (Prod.ext rfl (by decide +kernel)) rfl
    (Prod.ext rfl (by decide +kernel)) (fun _ => by decide +kernel)

def sealed : Except Error Bytes → Bytes
  | .ok bytes => bytes
  | .error _ => []

def exampleRequest : Bytes :=
  sealed (callerReady.sealKeys (provided checksum none) false [1, 2, 3] 100).2

def exampleResponse : Bytes :=
  sealed ((listenerReady.openKeys (provided checksum none) false exampleRequest).1.sealKeys
    (provided checksum none) true [1, 2, 3] 100).2

def exampleParity : Bytes :=
  sealed (callerReady.sealFec (provided checksum none) default [9, 9] 100).2

def exampleKeepalive : Bytes := ({ type := .keepalive } : ControlHeader).bytes ++ [0, 0, 0, 0]

def exampleControl : PacketView :=
  match decodePacket (sealed (callerReady.sealControl (provided checksum none) exampleKeepalive
    100).2) with
  | .ok envelope => envelope
  | .error _ => .data default

def exampleEvents : List Event :=
  [.sealKeys false none false [1, 2, 3] 100, .openKeys true none false exampleRequest,
    .sealKeys true none true [1, 2, 3] 100, .openKeys false none true exampleResponse,
    .sealFec false none default [9, 9] 100, .openFec true none default exampleParity,
    .openFec true none default exampleParity, .sealControl false none exampleKeepalive 100,
    .openControl true none exampleControl]

def exampleEnd : Pair := exampleEvents.foldl (Pair.step checksum) { peer := examplePeers }

theorem no_rollback_and_no_replay_exampleEvents :
    Established examplePeers
    ∧ Lts.Reaches (session checksum examplePeers) (fun s e => s.Unforged checksum e) exampleEnd
    ∧ exampleEnd.acceptedRequests true = [⟨1, [1, 2, 3]⟩]
    ∧ exampleEnd.acceptedFec true = [1] ∧ exampleEnd.acceptedControl true = [1]
    ∧ Protected checksum exampleEnd true := by
  have hadmits : Lts.Admits (fun s e => s.Unforged checksum e) (Pair.step checksum)
      { peer := examplePeers } exampleEvents := by decide +kernel
  have hreach := (Lts.Reaches.start (M := session checksum examplePeers) rfl).foldl hadmits
  exact ⟨established_examplePeers, hreach, by decide +kernel, by decide +kernel,
    by decide +kernel, no_rollback_and_no_replay established_examplePeers hreach true⟩

end Srt.Authenticated
