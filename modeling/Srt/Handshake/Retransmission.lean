/-
# `Retransmission` — what a retry repeats

One machine and everything that can happen to it.  Beside it stands what an
observer on the wire remembers: the message the machine sent when it entered the
state it is in, and the CONCLUSION a listener accepted.

The messages of a step are assembled twice, once when the step is taken and once
when it is repeated.  The two places agree except in what `Repeatable` excludes:
a listener without an encryption field of its own answers with its peer's the
first time and with its own after that, a connected listener leaves the session
authentication out, and a caller may be given a new proof between two CONCLUSIONs.
-/
import Srt.Handshake.MachineAgreement

namespace Srt.Retransmission

open HandshakeMachine

inductive Event
  | act (operation : CallerListener.Operation)
  | receive (message : HandshakeMessage)
  deriving DecidableEq, Repr

/-- A machine, the message it entered its state with, and the CONCLUSION it accepted. -/
structure Observed where
  machine : HandshakeMachine
  first : Option HandshakeMessage := none
  accepted : Option HandshakeMessage := none

def respond (m : HandshakeMachine) : Event → HandshakeMachine × List HandshakeAction
  | .act operation => CallerListener.perform m operation
  | .receive message => m.receive message

def Event.heard : Event → Option HandshakeMessage
  | .act _ => none
  | .receive message => some message

/-- The states behind an accepted CONCLUSION. -/
def accepting : HandshakeState → Bool
  | .connected | .awaitingAuthenticationConfirmation => true
  | _ => false

def note (o : Observed) (heard : Option HandshakeMessage)
    (r : HandshakeMachine × List HandshakeAction) : Observed where
  machine := r.1
  first := if r.1.state = o.machine.state then o.first else (sentMessages r.2).head?
  accepted :=
    if o.machine.state = .awaitingConclusionResponse ∧ accepting r.1.state = true then heard
    else o.accepted

def step (o : Observed) (e : Event) : Observed :=
  note o e.heard (respond o.machine e)

/-- A new machine with the configuration. -/
def runs (c : HandshakeConfiguration) : Lts.System Observed Event :=
  .ofFun (· = { machine := ofConfiguration c }) step

/-- Where the two places that assemble a message agree. -/
def Repeatable (o : Observed) : Event → Prop
  | .act (.setSessionAuthentication _) => o.machine.state ≠ .awaitingConclusionResponse
  | .act _ => True
  | .receive message =>
    o.machine.configuration.role = .listener →
      (o.machine.configuration.encryptionField = 0 → message.packet.encryptionField = 0)
        ∧ (∀ k ∈ message.keyMaterial, k.1 = .keyMaterialRequest)
        ∧ (o.machine.state = .connected →
          o.machine.configuration.requireSessionAuthentication = false)

instance (o : Observed) (e : Event) : Decidable (Repeatable o e) :=
  match e with
  | .act (.setSessionAuthentication _) => inferInstanceAs (Decidable (_ ≠ _))
  | .act .start | .act .timeout | .act (.reject _) | .act (.setKeyMaterialRequest _ _) =>
    inferInstanceAs (Decidable True)
  | .receive _ => inferInstanceAs (Decidable (_ → _ ∧ _ ∧ _))

/-- The reply of a connected listener to a CONCLUSION. -/
def repeatedResponse (m : HandshakeMachine) (msg : HandshakeMessage) : HandshakeMessage :=
  m.conclusionResponse msg { m.basePacket .conclusion with
    extensionField := (if msg.handshakeExtension.isSome then 1 else 0)
      ||| (if msg.keyMaterial.isSome then 2 else 0)
      ||| (if m.hasConfigExtension then 4 else 0) }

/-- The message of each step is the one a repetition assembles. -/
structure Repeats (o : Observed) : Prop where
  induction : o.machine.configuration.role = .caller →
    o.machine.state = .awaitingInductionResponse →
      o.first = some { packet := o.machine.basePacket .induction }
  request : o.machine.configuration.role = .caller →
    o.machine.state = .awaitingConclusionResponse → o.first = some o.machine.conclusionRequest
  response : o.machine.configuration.role = .listener →
    o.machine.state = .awaitingConclusionResponse →
      o.first = some (o.machine.inductionResponse o.machine.configuration.encryptionField)
  challenge : o.machine.state = .awaitingAuthenticationConfirmation →
    o.machine.configuration.requireSessionAuthentication = true
      ∧ ∃ c, o.first = some c ∧ o.machine.sessionChallenge = some c
  answer : o.machine.configuration.role = .listener → o.machine.state = .connected →
    o.machine.configuration.requireSessionAuthentication = false →
      ∀ msg, o.accepted = some msg → o.first = some (repeatedResponse o.machine msg)

variable {o : Observed} {m : HandshakeMachine} {msg : HandshakeMessage}
  {heard : Option HandshakeMessage}

/-- Nothing is repeated before the first step, nor after the last. -/
theorem repeats_of_silent
    (h : o.machine.state = .idle ∨ o.machine.state = .rejected ∨ o.machine.state = .failed) :
    Repeats o := by
  rcases h with h | h | h
  all_goals exact ⟨by simp [h], by simp [h], by simp [h], by simp [h], by simp [h]⟩

theorem note_self (acts : List HandshakeAction) : note o heard (o.machine, acts) = o := by
  have haccepted : ¬(o.machine.state = .awaitingConclusionResponse
      ∧ accepting o.machine.state = true) := by
    rintro ⟨hstate, haccepting⟩
    rw [hstate] at haccepting
    cases haccepting
  simp only [note, if_neg haccepted, if_true]

theorem repeats_fail (m : HandshakeMachine) : Repeats (note o heard m.fail) :=
  repeats_of_silent (.inr (.inr rfl))

theorem repeats_rejectLocally (m : HandshakeMachine) (reason : Nat) :
    Repeats (note o heard (m.rejectLocally reason)) :=
  repeats_of_silent (.inr (.inl rfl))

theorem repeats_reject (m : HandshakeMachine) (reason : Int) :
    Repeats (note o heard (m.reject reason)) := by
  unfold HandshakeMachine.reject
  split
  · exact repeats_fail m
  · exact repeats_of_silent (.inr (.inl rfl))

theorem repeats_start : Repeats (note o heard o.machine.start) := by
  unfold HandshakeMachine.start
  split
  · next hstart =>
    have hidle : o.machine.state = .idle := by
      simp only [startable, Bool.and_eq_true, beq_iff_eq] at hstart
      exact hstart.1.1.2
    exact
      { induction := fun _ _ => by
          simp only [note, hidle, reduceCtorEq, if_false]
          rfl
        request := by rintro _ ⟨⟩
        response := by rintro _ ⟨⟩
        challenge := by rintro ⟨⟩
        answer := by rintro _ ⟨⟩ }
  · exact repeats_fail _

theorem Repeats.retried (h : Repeats o) :
    Repeats { o with machine := { o.machine with retryCount := o.machine.retryCount + 1 } } :=
  ⟨h.induction, h.request, h.response, h.challenge, h.answer⟩

theorem Repeats.timeout (h : Repeats o) : Repeats (note o heard o.machine.timeout) := by
  unfold HandshakeMachine.timeout
  split
  · rw [note_self]
    exact h
  split
  · exact repeats_fail _
  simp only
  split
  · exact repeats_fail _
  next actions _ =>
  let retried := { o.machine with retryCount := o.machine.retryCount + 1 }
  have hnote : note { o with machine := retried } heard (retried, actions ++ [retried.armTimer])
      = { o with machine := retried } := note_self _
  exact hnote ▸ h.retried

/-- What an operation of the owner leaves of the configuration the first packet is made of. -/
theorem Repeats.configured {c : HandshakeConfiguration} (h : Repeats o)
    (hstate : o.machine.state = .awaitingInductionResponse)
    (hrole : c.role = o.machine.configuration.role)
    (hpacket : ({ o.machine with configuration := c } : HandshakeMachine).basePacket .induction
      = o.machine.basePacket .induction) :
    Repeats (note o heard ({ o.machine with configuration := c }, [])) where
  induction hcaller _ := by
    simp only [note, hpacket, if_true]
    exact h.induction (hrole ▸ hcaller) hstate
  request _ := by simp [note, hstate]
  response _ := by simp [note, hstate]
  challenge := by simp [note, hstate]
  answer _ := by simp [note, hstate]

theorem Repeats.act (h : Repeats o) {operation : CallerListener.Operation}
    (hguard : Repeatable o (.act operation)) :
    Repeats (note o heard (CallerListener.perform o.machine operation)) := by
  cases operation with
  | start => exact repeats_start
  | timeout => exact h.timeout
  | reject reason => exact repeats_reject _ _
  | setSessionAuthentication p =>
    simp only [CallerListener.perform]
    cases hset : o.machine.setSessionAuthentication p with
    | error e =>
      rw [CallerListener.orUnchanged, note_self]
      exact h
    | ok m =>
      obtain ⟨-, hstate, rfl⟩ := setSessionAuthentication_ok hset
      exact h.configured (hstate.resolve_right hguard) rfl rfl
  | setKeyMaterialRequest request field =>
    simp only [CallerListener.perform]
    cases hset : o.machine.setKeyMaterialRequest request field with
    | error e =>
      rw [CallerListener.orUnchanged, note_self]
      exact h
    | ok m =>
      obtain ⟨-, hstate, rfl⟩ := setKeyMaterialRequest_ok hset
      exact h.configured hstate rfl rfl

/-! ## Received messages -/

section Caller

theorem repeats_receiveInductionResponse (hrole : o.machine.configuration.role = .caller)
    (hstate : o.machine.state = .awaitingInductionResponse) (incoming : Handshake) :
    Repeats (note o heard (o.machine.receiveInductionResponse incoming)) := by
  unfold receiveInductionResponse
  split
  · exact repeats_rejectLocally _ _
  split
  · exact repeats_rejectLocally _ _
  exact
    { induction := fun _ => nofun
      request := fun _ _ => by
        simp only [note, hstate, reduceCtorEq, if_false]
        rfl
      response := fun hlistener => absurd (hrole.symm.trans hlistener) nofun
      challenge := nofun
      answer := fun _ => nofun }

theorem repeats_of_connected_caller (hrole : o.machine.configuration.role = .caller)
    (hstate : o.machine.state = .connected) : Repeats o :=
  ⟨by simp [hstate], by simp [hstate], by simp [hstate], by simp [hstate], by simp [hrole]⟩

theorem repeats_confirmSession (hrole : m.configuration.role = .caller) :
    Repeats (note o heard (m.confirmSession msg)) := by
  unfold confirmSession
  simp only
  split
  · exact repeats_rejectLocally _ _
  split
  · split
    · exact repeats_rejectLocally _ _
    · split <;> exact repeats_of_connected_caller hrole rfl
  · split <;> exact repeats_of_connected_caller hrole rfl

theorem Repeats.receiveConclusionResponse (h : Repeats o)
    (hrole : o.machine.configuration.role = .caller) :
    Repeats (note o heard (o.machine.receiveConclusionResponse msg)) := by
  unfold HandshakeMachine.receiveConclusionResponse
  split
  · exact repeats_rejectLocally _ _
  split
  · exact repeats_rejectLocally _ _
  split
  · rw [note_self]
    exact h
  split
  · exact repeats_rejectLocally _ _
  simp only
  split
  · exact repeats_rejectLocally _ _
  · exact repeats_confirmSession hrole

theorem Repeats.receiveCaller (h : Repeats o) (hrole : o.machine.configuration.role = .caller) :
    Repeats (note o heard (o.machine.receiveCaller msg)) := by
  unfold HandshakeMachine.receiveCaller
  split
  · rw [note_self]
    exact h
  · next hstate _ =>
    split
    · exact repeats_receiveInductionResponse hrole hstate _
    · exact repeats_fail _
  · split
    · exact h.receiveConclusionResponse hrole
    · exact repeats_fail _
  · exact repeats_fail _

end Caller

section Listener

theorem repeats_receiveInduction (hrole : o.machine.configuration.role = .listener)
    (hstate : o.machine.state = .idle) {incoming : Handshake}
    (hfield : o.machine.configuration.encryptionField = 0 → incoming.encryptionField = 0) :
    Repeats (note o heard (o.machine.receiveInduction incoming)) := by
  have hown : o.machine.answeredEncryptionField incoming
      = o.machine.configuration.encryptionField := by
    unfold answeredEncryptionField
    split
    · rfl
    · next hzero => rw [hfield (not_not.1 hzero), not_not.1 hzero]
  unfold receiveInduction
  split
  · exact repeats_fail _
  split
  · exact repeats_fail _
  simp only
  split
  · exact repeats_fail _
  exact
    { induction := fun _ => nofun
      request := fun hcaller => absurd (hrole.symm.trans hcaller) nofun
      response := fun _ _ => by
        simp only [note, hstate, reduceCtorEq, if_false]
        exact congrArg some (congrArg (inductionResponse _) hown)
      challenge := nofun
      answer := fun _ => nofun }

theorem isSome_of_checkConclusion {f : PacketFilterConfiguration}
    (h : m.checkConclusion msg = .ok f) : msg.handshakeExtension.isSome = true := by
  cases hext : msg.handshakeExtension with
  | some _ => rfl
  | none =>
    simp only [checkConclusion, HandshakeMessage.handshakeRequest, hext, bind, Except.bind] at h
    split at h <;> cases h

/-- The first answer and the repeated one are assembled alike. -/
theorem firstResponse_eq (hext : msg.handshakeExtension.isSome = true)
    (hfield : m.configuration.encryptionField = 0 → msg.packet.encryptionField = 0)
    (hkeys : ∀ k ∈ msg.keyMaterial, k.1 = .keyMaterialRequest) :
    m.firstResponse msg = repeatedResponse m msg := by
  have hown : m.answeredEncryptionField msg.packet
      = (m.basePacket .conclusion).encryptionField := by
    unfold answeredEncryptionField
    split
    · rfl
    next hzero =>
    rw [hfield (not_not.1 hzero)]
    exact (not_not.1 hzero).symm
  have hrequests : (msg.keyMaterial.any fun k => k.1 == .keyMaterialRequest)
      = msg.keyMaterial.isSome := by
    cases hkey : msg.keyMaterial with
    | none => rfl
    | some k => simp [hkeys k hkey]
  unfold firstResponse repeatedResponse
  simp only [hown, hrequests, conclusionField, hext, if_true]

theorem repeats_answerConclusion (hstate : o.machine.state = .awaitingConclusionResponse)
    (hresponse : m.firstResponse msg = repeatedResponse m msg) :
    Repeats (note o (some msg) (m.answerConclusion msg)) := by
  unfold answerConclusion
  simp only
  split
  · next hrequired =>
    exact
      { induction := fun _ => nofun
        request := fun _ => nofun
        response := fun _ => nofun
        challenge := fun _ =>
          ⟨hrequired, _, by simp only [note, hstate, reduceCtorEq, if_false]; rfl, rfl⟩
        answer := fun _ => nofun }
  exact
    { induction := fun _ => nofun
      request := fun _ => nofun
      response := fun _ => nofun
      challenge := nofun
      answer := fun _ _ _ accepted haccepted => by
        have hmsg : msg = accepted := by
          simpa only [note, hstate, accepting, and_self, if_true, Option.some.injEq]
            using haccepted
        subst hmsg
        simp only [note, hstate, reduceCtorEq, if_false]
        exact congrArg some hresponse }

theorem repeats_receiveConclusion (hrole : o.machine.configuration.role = .listener)
    (hstate : o.machine.state = .awaitingConclusionResponse)
    (hguard : Repeatable o (.receive msg)) :
    Repeats (note o (some msg) (o.machine.receiveConclusion msg)) := by
  obtain ⟨hfield, hkeys, -⟩ := hguard hrole
  unfold receiveConclusion
  split
  · exact repeats_reject _ _
  next filter hcheck =>
  simp only
  split
  · exact repeats_reject _ _
  exact repeats_answerConclusion hstate
    (firstResponse_eq (isSome_of_checkConclusion hcheck) hfield hkeys)

theorem Repeats.receiveConfirmation (h : Repeats o)
    (hstate : o.machine.state = .awaitingAuthenticationConfirmation) :
    Repeats (note o heard (o.machine.receiveConfirmation msg)) := by
  have hrequired := (h.challenge hstate).1
  unfold HandshakeMachine.receiveConfirmation
  simp only
  split
  · rw [note_self]
    exact h
  split
  · exact
      { induction := fun _ => nofun
        request := fun _ => nofun
        response := fun _ => nofun
        challenge := nofun
        answer := fun _ _ hnone => absurd (hrequired.symm.trans hnone) nofun }
  split
  all_goals
    rw [note_self]
    exact h

theorem Repeats.repeatConclusion (h : Repeats o) :
    Repeats (note o heard (o.machine.repeatConclusion msg)) := by
  unfold HandshakeMachine.repeatConclusion
  split
  all_goals
    rw [note_self]
    exact h

theorem Repeats.receiveListener (h : Repeats o) (hrole : o.machine.configuration.role = .listener)
    (hguard : Repeatable o (.receive msg)) :
    Repeats (note o (some msg) (o.machine.receiveListener msg)) := by
  unfold HandshakeMachine.receiveListener
  split
  · next hstate => exact h.receiveConfirmation hstate
  · next hstate _ => exact repeats_receiveInduction hrole hstate (hguard hrole).1
  · next hstate _ =>
    split
    · exact repeats_receiveConclusion hrole hstate hguard
    · exact repeats_fail _
  · split
    · exact h.repeatConclusion
    · exact repeats_fail _
  · exact repeats_fail _

end Listener

theorem Repeats.receive (h : Repeats o) (hguard : Repeatable o (.receive msg)) :
    Repeats (note o (some msg) (o.machine.receive msg)) := by
  unfold HandshakeMachine.receive
  split
  · exact repeats_fail _
  split
  · rw [note_self]
    exact h
  split
  · exact repeats_rejectLocally _ _
  split
  · next hrole => exact h.receiveListener hrole hguard
  · next hrole => exact h.receiveCaller hrole

theorem Repeats.step {e : Event} (h : Repeats o) (hguard : Repeatable o e) :
    Repeats (Retransmission.step o e) := by
  cases e with
  | act operation => exact h.act hguard
  | receive message => exact h.receive hguard

theorem repeats_of_reaches {c : HandshakeConfiguration}
    (h : Lts.Reaches (runs c) Repeatable o) : Repeats o := by
  refine Lts.Reaches.invariant ?_ ?_ h
  · rintro o rfl
    exact repeats_of_silent (.inl rfl)
  rintro o e _ - ho hguard rfl
  exact ho.step hguard

/-! ## What is sent again -/

/-- A timeout sends what a repetition assembles. -/
theorem Repeats.timeout_sends (h : Repeats o) (hsend : .send msg ∈ o.machine.timeout.2) :
    o.first = some msg := by
  unfold HandshakeMachine.timeout at hsend
  split at hsend
  · cases hsend
  split at hsend
  · simp [fail] at hsend
  simp only at hsend
  split at hsend
  · simp [fail] at hsend
  next actions hretry =>
  have hmem : .send msg ∈ actions := by simpa [armTimer] using hsend
  unfold retryActions at hretry
  split at hretry
  case h_5 => cases hretry
  all_goals
    rename_i hrole hstate
    obtain rfl := Option.some.inj hretry
  case h_1 => exact HandshakeAction.send.inj (List.mem_singleton.1 hmem) ▸ h.induction hrole hstate
  case h_2 => exact HandshakeAction.send.inj (List.mem_singleton.1 hmem) ▸ h.request hrole hstate
  case h_3 =>
    obtain ⟨-, c, hfirst, hchallenge⟩ := h.challenge hstate
    rw [show o.machine.sessionChallenge = some c from hchallenge] at hmem
    exact HandshakeAction.send.inj (List.mem_singleton.1 hmem) ▸ hfirst
  case h_4 => exact HandshakeAction.send.inj (List.mem_singleton.1 hmem) ▸ h.response hrole hstate

theorem Repeats.confirmation_sends {reply : HandshakeMessage} (h : Repeats o)
    (hstate : o.machine.state = .awaitingAuthenticationConfirmation)
    (hsend : .send reply ∈ (o.machine.receiveConfirmation msg).2) : o.first = some reply := by
  obtain ⟨-, c, hfirst, hchallenge⟩ := h.challenge hstate
  have hmem : .send reply ∈ (o.machine.sessionChallenge.map HandshakeAction.send).toList := by
    unfold HandshakeMachine.receiveConfirmation at hsend
    simp only at hsend
    split at hsend
    · cases hsend
    split at hsend
    · simpa using hsend
    split at hsend
    · exact hsend
    · cases hsend
  rw [hchallenge] at hmem
  obtain rfl := HandshakeAction.send.inj (List.mem_singleton.1 hmem)
  exact hfirst

theorem Repeats.duplicate_sends {reply : HandshakeMessage} (h : Repeats o)
    (hrole : o.machine.configuration.role = .listener) (hstate : accepting o.machine.state = true)
    (haccepted : o.accepted = some msg) (hguard : Repeatable o (.receive msg))
    (hsend : .send reply ∈ (o.machine.receive msg).2) : o.first = some reply := by
  unfold HandshakeMachine.receive at hsend
  split at hsend
  · simp [fail] at hsend
  split at hsend
  · cases hsend
  split at hsend
  · simp [rejectLocally] at hsend
  simp only [hrole] at hsend
  unfold HandshakeMachine.receiveListener at hsend
  split at hsend
  · next hauth => exact h.confirmation_sends hauth hsend
  · next hidle _ => rw [hidle] at hstate; cases hstate
  · next hawait _ => rw [hawait] at hstate; cases hstate
  · next hconnected _ =>
    split at hsend
    · unfold HandshakeMachine.repeatConclusion at hsend
      split at hsend
      · cases hsend
      obtain rfl := HandshakeAction.send.inj (List.mem_singleton.1 hsend)
      exact h.answer hrole hconnected ((hguard hrole).2.2 hconnected) msg haccepted
    · simp [fail] at hsend
  · simp [fail] at hsend

/-- In every run whose events are all repeatable, a timeout sends the message its step began with,
and so does a listener that hears the CONCLUSION it accepted again. -/
theorem retransmissions_repeat_the_first (c : HandshakeConfiguration) (o : Observed)
    (h : Lts.Reaches (runs c) Repeatable o) :
    (∀ msg, .send msg ∈ (respond o.machine (.act .timeout)).2 → o.first = some msg)
      ∧ (o.machine.configuration.role = .listener → accepting o.machine.state = true →
        ∀ msg reply, o.accepted = some msg → Repeatable o (.receive msg) →
          .send reply ∈ (respond o.machine (.receive msg)).2 → o.first = some reply) :=
  ⟨fun _ => (repeats_of_reaches h).timeout_sends,
    fun hrole hstate _ _ => (repeats_of_reaches h).duplicate_sends hrole hstate⟩

/-- A listener that encrypts with 128 bits, and a caller's two messages. -/
def exampleListener : HandshakeConfiguration :=
  { role := .listener, localSocketId := 7, encryptionField := 2
    cookieGenerator := some fun _ => 9 }

def exampleInduction (encryptionField : Nat) : HandshakeMessage :=
  { packet := { version := handshakeVersion4, request := .induction, socketId := 3
                encryptionField } }

def exampleConclusion : HandshakeMessage :=
  { packet := { version := handshakeVersion5, request := .conclusion, socketId := 3, synCookie := 9
                encryptionField := 2 }
    handshakeExtension := some (.handshakeRequest, {}) }

/-- The listener behind a list of events. -/
def exampleRun (c : HandshakeConfiguration) (es : List Event) : Observed :=
  es.foldl step { machine := ofConfiguration c }

theorem retransmissions_repeat_the_first_exampleListener :
    ∃ reply, (exampleRun exampleListener
        [.receive (exampleInduction 0), .receive exampleConclusion]).first = some reply
      ∧ .send reply ∈ (respond (exampleRun exampleListener
        [.receive (exampleInduction 0), .receive exampleConclusion]).machine
          (.receive exampleConclusion)).2 := by
  have hstart : Lts.Reaches (runs exampleListener) Repeatable (exampleRun exampleListener []) :=
    .start rfl
  have hreached : Lts.Reaches (runs exampleListener) Repeatable (exampleRun exampleListener
      [.receive (exampleInduction 0), .receive exampleConclusion]) :=
    hstart.foldl (by decide +kernel)
  refine ⟨_, ?_, List.mem_singleton.2 rfl⟩
  exact (retransmissions_repeat_the_first exampleListener _ hreached).2 rfl (by decide +kernel)
    exampleConclusion _ (by decide +kernel) (by decide +kernel) (List.mem_singleton.2 rfl)

/-- Without a field of its own the listener first answers with its peer's, and repeats neither
its INDUCTION response nor its CONCLUSION response. -/
theorem retry_drops_the_encryption_field :
    (∃ first reply, (exampleRun { exampleListener with encryptionField := 0 }
          [.receive (exampleInduction 2)]).first = some first
        ∧ .send reply ∈ (respond (exampleRun { exampleListener with encryptionField := 0 }
          [.receive (exampleInduction 2)]).machine (.act .timeout)).2
        ∧ first.packet.encryptionField = 2 ∧ reply.packet.encryptionField = 0)
      ∧ ∃ first reply, (exampleRun { exampleListener with encryptionField := 0 }
          [.receive (exampleInduction 2), .receive exampleConclusion]).first = some first
        ∧ .send reply ∈ (respond (exampleRun { exampleListener with encryptionField := 0 }
          [.receive (exampleInduction 2), .receive exampleConclusion]).machine
            (.receive exampleConclusion)).2
        ∧ first.packet.encryptionField = 2 ∧ reply.packet.encryptionField = 0 :=
  ⟨⟨_, _, rfl, List.mem_cons_self, rfl, rfl⟩, ⟨_, _, rfl, List.mem_cons_self, rfl, rfl⟩⟩

end Srt.Retransmission
