/-
# `Crypto.Acknowledged` — which keys DATA may leave under

A peer that returns a KMREQ byte for byte has the keys it carries.  The
session does not store which keys have been returned; it infers it from the
sender state and the flags of the pending rotation.  `Confirmed` says what
those flags stand for.

The inference breaks in two places: a rotation prepared before the first key
was returned makes the session ready to send, and a four-byte status response
that reports SECURED is believed.  Runs without these two keep `Confirmed`.
-/
import Srt.Lib.System
import Srt.Crypto.Sender

namespace Srt

open Fallible CryptoSession

/-! ## Exchanges -/

/-- The key is one of those the message carries. -/
def Contains (P : CryptoProvider) (message key : Bytes) : Prop :=
  ∃ keys primary plaintext, Announces P message keys primary plaintext
    ∧ ∃ i, (i, key) ∈ announcedSelectors keys plaintext primary.key.length

/-- A session and the responses it has accepted. -/
structure Exchange where
  session : CryptoSession
  accepted : List Bytes := []

namespace Exchange

variable (P : CryptoProvider)

/-- A response is accepted when the session remembers it as acknowledged. -/
def step (x : Exchange) (c : CryptoCall) : Exchange :=
  let t := x.session.after P c
  match c with
  | .acknowledgeKeyMaterial response _ =>
    if response ∈ t.acknowledgedKeyMaterialHistory then
      { session := t, accepted := response :: x.accepted }
    else { x with session := t }
  | _ => { x with session := t }

/-- The sessions with a passphrase. -/
def system : Lts.System Exchange CryptoCall :=
  .ofFun (fun x => ∃ c, (ofConfiguration P c).enabled = true
    ∧ x = { session := ofConfiguration P c }) (step P)

/-- The peer is never given up, and positions do not decrease. -/
def Cooperates (x : Exchange) : CryptoCall → Prop
  | .continueWithoutPeerKey _ => False
  | .prepareDataPacket position => ∀ p ∈ x.session.preparedSequencePosition, p ≤ position
  | _ => True

/-- A four-byte response that reports SECURED comes only when it changes
nothing. -/
def Unclaimed (x : Exchange) : CryptoCall → Prop
  | .acknowledgeKeyMaterial response _ =>
    response.length = 4 → decodeKeyMaterialState response = some .secured →
      x.session.preservesSecuredState = true
  | _ => True

/-- No rotation falls due before the announced key is returned, and no status
response claims that it was. -/
def Settles (x : Exchange) (c : CryptoCall) : Prop :=
  x.Cooperates c ∧ x.Unclaimed c
    ∧ (x.session.senderState = .securing → x.session.rotationPrepared = false →
      ¬x.session.rotationDue c)

instance (x : Exchange) (c : CryptoCall) : Decidable (x.Cooperates c) :=
  match c with
  | .continueWithoutPeerKey _ => .isFalse not_false
  | .prepareDataPacket position =>
    inferInstanceAs (Decidable (∀ p ∈ x.session.preparedSequencePosition, p ≤ position))
  | .startInitiator | .acceptKeyMaterial _ _ | .acknowledgeKeyMaterial _ _ | .prepareRotation
  | .setPreannouncementFloor _ | .noteDataPacketSent | .encrypt _ _ | .sealPacket _ _
  | .decrypt _ _ _ | .openPacket _ _ _ | .noteAcceptedReceiveSequence _ => .isTrue trivial

instance (x : Exchange) (c : CryptoCall) : Decidable (x.Unclaimed c) :=
  match c with
  | .acknowledgeKeyMaterial response _ =>
    inferInstanceAs (Decidable (response.length = 4 →
      decodeKeyMaterialState response = some .secured → x.session.preservesSecuredState = true))
  | .continueWithoutPeerKey _ | .prepareDataPacket _ | .startInitiator | .acceptKeyMaterial _ _
  | .prepareRotation | .setPreannouncementFloor _ | .noteDataPacketSent | .encrypt _ _
  | .sealPacket _ _ | .decrypt _ _ _ | .openPacket _ _ _ | .noteAcceptedReceiveSequence _ =>
    .isTrue trivial

instance (x : Exchange) (c : CryptoCall) : Decidable (x.Settles c) :=
  inferInstanceAs (Decidable (_ ∧ _ ∧ _))

end Exchange

/-! ## What the flags stand for -/

/-- The keys behind the flags of a transmit half. -/
structure Confirmed (P : CryptoProvider) (accepted : List Bytes) (v : Sender) : Prop where
  /-- A session that is ready has an active key that was returned. -/
  active : v.state = .secured ∨ v.state = .securing ∧ v.rotationPrepared = true →
    ∀ k ∈ v.transmit.get v.active, ∃ r ∈ accepted, Contains P r k.key
  /-- So has an acknowledged rotation its next key. -/
  next : v.rotationPrepared = true → v.pendingAcknowledged = true →
    ∀ k ∈ v.transmit.get v.active.other, ∃ r ∈ accepted, Contains P r k.key
  history : ∀ r ∈ v.acknowledged, r ∈ accepted
  /-- A pending message that was not returned carries the keys in use. -/
  pending : v.pending ≠ [] → v.pending ∉ v.acknowledged →
    (∀ k ∈ v.transmit.get v.active, Contains P v.pending k.key)
      ∧ (v.rotationPrepared = true →
        ∀ k ∈ v.transmit.get v.active.other, Contains P v.pending k.key)
  state : v.rotationPrepared = true → v.state = .securing ∨ v.state = .secured
  empty : v.transmit = ⟨none, none⟩ → v.pending = [] ∨ v.pending ∈ v.acknowledged
  secured : v.state = .secured → v.transmit ≠ ⟨none, none⟩
  acknowledging : v.unacknowledgedSending = false

section Confirmed

variable {P : CryptoProvider} {accepted accepted' : List Bytes} {v : Sender}
  {s₀ s t : CryptoSession} {c : CryptoCall}

theorem Confirmed.mono (h : Confirmed P accepted v) (hsub : accepted ⊆ accepted') :
    Confirmed P accepted' v where
  active hv k hk := (h.active hv k hk).imp fun _ hr => ⟨hsub hr.1, hr.2⟩
  next hp ha k hk := (h.next hp ha k hk).imp fun _ hr => ⟨hsub hr.1, hr.2⟩
  history r hr := hsub (h.history r hr)
  pending := h.pending
  state := h.state
  empty := h.empty
  secured := h.secured
  acknowledging := h.acknowledging

/-- The message of a first key carries it. -/
theorem contains_first {message : Bytes} {k : TrafficKey}
    (h : Announces P message .even k k.key) : Contains P message k.key :=
  ⟨.even, k, k.key, h, .even, by simp [announcedSelectors]⟩

/-- The message of a rotation carries both keys. -/
theorem contains_rotation {message : Bytes} {i : KeySelector} {current k : TrafficKey}
    (hlength : k.key.length = current.key.length)
    (h : Announces P message .reserved (i.arrange current k).even
      ((i.arrange current k).even.key ++ (i.arrange current k).odd.key)) :
    Contains P message current.key ∧ Contains P message k.key := by
  cases i with
  | even =>
    refine ⟨⟨_, _, _, h, .even, ?_⟩, ⟨_, _, _, h, .odd, ?_⟩⟩
    · simp [KeySelector.arrange, announcedSelectors]
    · simp [KeySelector.arrange, announcedSelectors, ← hlength]
  | odd =>
    refine ⟨⟨_, _, _, h, .odd, ?_⟩, ⟨_, _, _, h, .even, ?_⟩⟩
    · simp [KeySelector.arrange, announcedSelectors, hlength]
    · simp [KeySelector.arrange, announcedSelectors]

theorem Confirmed.same {w : Sender} (h : Confirmed P accepted v)
    (htransmit : w.transmit = v.transmit) (hactive : w.active = v.active)
    (hstate : w.state = v.state)
    (hprepared : w.rotationPrepared = v.rotationPrepared) (hpending : w.pending = v.pending)
    (hacknowledged : w.pendingAcknowledged = v.pendingAcknowledged)
    (hhistory : w.acknowledged = v.acknowledged)
    (hsending : w.unacknowledgedSending = v.unacknowledgedSending) : Confirmed P accepted w where
  active := by rw [htransmit, hactive, hstate, hprepared]; exact h.active
  next := by rw [htransmit, hactive, hprepared, hacknowledged]; exact h.next
  history := by rw [hhistory]; exact h.history
  pending := by rw [htransmit, hactive, hprepared, hpending, hhistory]; exact h.pending
  state := by rw [hprepared, hstate]; exact h.state
  empty := by rw [htransmit, hpending, hhistory]; exact h.empty
  secured := by rw [htransmit, hstate]; exact h.secured
  acknowledging := hsending.trans h.acknowledging

/-- A session that is not secured, nor about to rotate, vouches for no key. -/
theorem Confirmed.unsecured (h : Confirmed P accepted v) (hrot : v.rotationPrepared = false)
    {state : CryptoState} (hstate : state ≠ .secured) {acknowledged : Bool} :
    Confirmed P accepted { v with state, pendingAcknowledged := acknowledged } := by
  have hnever : ¬v.rotationPrepared = true := by simp [hrot]
  exact ⟨fun hv => (hv.elim hstate fun hp => hnever hp.2).elim, fun hp => absurd hp hnever,
    h.history, h.pending, fun hp => absurd hp hnever, h.empty, fun hs => absurd hs hstate,
    h.acknowledging⟩

theorem set_ne_empty (p : BySelector (Option TrafficKey)) (i : KeySelector) (k : TrafficKey) :
    p.set i (some k) ≠ ⟨none, none⟩ := by
  cases i <;> simp [BySelector.set]

theorem Confirmed.step (hw : SenderWellFormed s) (hs : Confirmed P accepted s.sender)
    (h : SenderStep P s₀ c s t) (hsub : accepted ⊆ accepted')
    (hhistory : ∀ r ∈ t.sender.acknowledged, r ∈ accepted')
    (hpeer : ∀ reported, c ≠ .continueWithoutPeerKey reported)
    (hsettled : s₀.senderState = .securing → s₀.rotationPrepared = false → ¬s₀.rotationDue c)
    (hreported : ∀ response clone, c = .acknowledgeKeyMaterial response clone → response.length = 4
      → decodeKeyMaterialState response = some .secured → s₀.preservesSecuredState = true) :
    Confirmed P accepted' t.sender := by
  have hs := hs.mono hsub
  cases h with
  | quiet h => rw [h.sender]; exact hs
  | consume h | exhaust h | arrive _ h | skip _ _ h =>
    rw [h.sender]; exact hs.same rfl rfl rfl rfl rfl rfl rfl rfl
  | leave reported _ call => exact absurd call (hpeer reported)
  | rotateAlone _ _ _ _ _ _ alone => cases hs.acknowledging.symm.trans alone
  | erase h reset =>
    rw [h.sender]
    refine ⟨nofun, nofun, hs.history, fun _ _ => ⟨nofun, nofun⟩, nofun, ?_, nofun, hs.acknowledging⟩
    intro _
    rcases reset with hempty | hacknowledged
    · exact hs.empty hempty
    · exact .inr hacknowledged
  | discard h inactive =>
    have hempty := (hw.active inactive).1
    rw [h.sender]
    exact ⟨nofun, nofun, hs.history, fun _ _ => ⟨nofun, nofun⟩, hs.state, fun _ => hs.empty hempty,
      fun hsecured => absurd hempty (hs.secured hsecured), hs.acknowledging⟩
  | initial k _ _ h empty even =>
    have hrot : s.rotationPrepared = false := hw.empty (by rw [empty, even]; rfl)
    rw [h.sender]
    refine ⟨?_, ?_, hs.history, ?_, hs.state, nofun, nofun, hs.acknowledging⟩
    · rintro (hsecured | ⟨-, hprepared⟩)
      · exact absurd empty (hs.secured hsecured)
      · cases hrot.symm.trans hprepared
    · intro hprepared
      cases hrot.symm.trans hprepared
    intro hnonempty hfresh
    exact ((hs.empty empty).elim hnonempty hfresh).elim
  | announce k message announces h first even =>
    have hodd : s.transmit.get s.activeSenderKey.other = none := by rw [first, even]; rfl
    rw [h.sender]
    refine ⟨hs.active, hs.next, hs.history, ?_, hs.state, ?_, hs.secured, hs.acknowledging⟩
    · intro _ _
      refine ⟨?_, ?_⟩
      · intro k' hk'
        have hk : s.transmit.get s.activeSenderKey = some k := by rw [first, even]; rfl
        cases hk.symm.trans hk'
        exact contains_first announces
      intro _ k' hk'
      cases hodd.symm.trans hk'
    intro hempty
    cases first.symm.trans hempty
  | unannounce h =>
    rw [h.sender]
    exact ⟨hs.active, hs.next, hs.history, fun hne => absurd rfl hne, hs.state, fun _ => .inl rfl,
      hs.secured, hs.acknowledging⟩
  | settle state acknowledged h unsecured single =>
    have hrot : s.rotationPrepared = false := by
      by_contra hrot
      obtain ⟨hactive, hother⟩ := hw.prepared (by simpa using hrot)
      cases hselector : s.activeSenderKey with
      | even =>
        rw [hselector, show s.transmit.get KeySelector.even.other = none from single] at hother
        cases hother
      | odd =>
        rw [hselector, show s.transmit.get .odd = none from single] at hactive
        cases hactive
    rw [h.sender]
    exact hs.unsecured hrot unsecured
  | stage current k _ h ready same unprepared =>
    have hactive : (s.transmit.set s.activeSenderKey.other (some k)).get s.activeSenderKey
        = s.transmit.get s.activeSenderKey := BySelector.get_other_set _ _ _
    rw [h.sender]
    refine ⟨?_, ?_, hs.history, ?_, hs.state, fun hempty => absurd hempty (set_ne_empty _ _ _),
      fun _ => set_ne_empty _ _ _, hs.acknowledging⟩
    · intro hv k' hk'
      exact hs.active hv k' (hactive.symm.trans hk')
    · intro hprepared
      cases unprepared.symm.trans hprepared
    intro hnonempty hfresh
    refine ⟨fun k' hk' => (hs.pending hnonempty hfresh).1 k' (hactive.symm.trans hk'), ?_⟩
    intro hprepared
    cases unprepared.symm.trans hprepared
  | rotate current k message _ h ready same length announces _ unprepared state origin
      unprepared₀ due =>
    have hsecured : s.senderState = .secured := by
      refine state.resolve_right fun hsecuring => ?_
      exact hsettled (origin.trans hsecuring) unprepared₀ due
    have hactive : (s.transmit.set s.activeSenderKey.other (some k)).get s.activeSenderKey
        = some current := (BySelector.get_other_set _ _ _).trans ready
    have hother : (s.transmit.set s.activeSenderKey.other (some k)).get s.activeSenderKey.other
        = some k := BySelector.get_set_self _ _ _
    obtain ⟨hcurrent, hk⟩ := contains_rotation length announces
    rw [h.sender]
    refine ⟨?_, nofun, hs.history, ?_, fun _ => .inl rfl,
      fun hempty => absurd hempty (set_ne_empty _ _ _), nofun, hs.acknowledging⟩
    · intro _ k' hk'
      cases hactive.symm.trans hk'
      exact hs.active (.inl hsecured) current ready
    intro _ _
    refine ⟨fun k' hk' => ?_, fun _ k' hk' => ?_⟩
    · cases hactive.symm.trans hk'
      exact hcurrent
    cases hother.symm.trans hk'
    exact hk
  | switch h _ prepared acknowledged =>
    rw [h.sender]
    refine ⟨fun _ => hs.next prepared acknowledged, nofun, hs.history, ?_, nofun, hs.empty, ?_,
      hs.acknowledging⟩
    · intro hnonempty hfresh
      exact ⟨(hs.pending hnonempty hfresh).2 prepared, nofun⟩
    intro _ hempty
    have hslot := (hw.prepared prepared).1
    rw [show s.transmit = ⟨none, none⟩ from hempty] at hslot
    cases hselector : s.activeSenderKey <;> rw [hselector] at hslot <;> cases hslot
  | demote response clone state call h unsecured origin reported =>
    have hunsecured : state ≠ .secured := by
      intro hsecured
      obtain ⟨hlength, hdecode⟩ := reported hsecured
      cases origin.symm.trans (hreported response clone call hlength hdecode)
    have hrot : s.rotationPrepared = false := by
      by_contra hrot
      have hrot : s.rotationPrepared = true := by simpa using hrot
      have hpreserves : s.preservesSecuredState = true := by
        unfold CryptoSession.preservesSecuredState
        rcases hs.state hrot with hstate | hstate
        · rw [show s.senderState = .securing from hstate, hrot]; rfl
        · rw [show s.senderState = .secured from hstate]; rfl
      cases unsecured.symm.trans hpreserves
    rw [h.sender]
    exact hs.unsecured hrot hunsecured
  | confirm response clone call h pending nonempty fresh =>
    subst pending
    have hmem : s.pendingKeyMaterial
        ∈ rememberKeyMaterial s.acknowledgedKeyMaterialHistory s.pendingKeyMaterial :=
      List.mem_cons_self
    obtain ⟨hactive, hother⟩ := hs.pending nonempty fresh
    rw [h.sender] at hhistory ⊢
    refine ⟨?_, ?_, hhistory, ?_, fun _ => .inr rfl, fun _ => .inr hmem, ?_, hs.acknowledging⟩
    · intro _ k hk
      exact ⟨_, hhistory _ hmem, hactive k hk⟩
    · intro hprepared _ k hk
      exact ⟨_, hhistory _ hmem, hother hprepared k hk⟩
    · intro _ hfresh
      exact absurd hmem hfresh
    intro _ hempty
    exact (hs.empty hempty).elim nonempty fresh
  | reverse h acknowledged =>
    rw [h.sender]
    refine ⟨?_, hs.next, hs.history, hs.pending, fun _ => .inl rfl, hs.empty, nofun,
      hs.acknowledging⟩
    rintro (hsecured | ⟨-, hprepared⟩)
    · cases hsecured
    refine hs.active ?_
    rcases hs.state hprepared with hstate | hstate
    · exact .inr ⟨hstate, hprepared⟩
    · exact .inl hstate

/-- Only a confirmed response is remembered. -/
theorem SenderStep.acknowledged (h : SenderStep P s₀ c s t) :
    t.sender.acknowledged = s.sender.acknowledged
      ∨ ∃ response clone, c = .acknowledgeKeyMaterial response clone
        ∧ t.sender.acknowledged = rememberKeyMaterial s.sender.acknowledged response := by
  cases h
  case confirm response clone call h _ _ _ =>
    exact .inr ⟨response, clone, call, congrArg Sender.acknowledged h.sender⟩
  all_goals
    left
    rw [‹Leads s t _›.sender]

theorem mem_of_remembered {history : List Bytes} {material r : Bytes}
    (h : r ∈ rememberKeyMaterial history material) : r = material ∨ r ∈ history :=
  List.mem_cons.1 (List.mem_of_mem_take h)

/-! ## DATA operations -/

/-- What a DATA operation that succeeds has found. -/
structure Sends (s : CryptoSession) : Prop where
  ready : s.readyToSendData = true
  active : (s.transmit.get s.activeSenderKey).isSome

theorem encrypt_sends (henabled : s.enabled = true) (sequence : SequenceNumber)
    (plaintext : Bytes) :
    Ensures (encrypt P sequence plaintext) s (fun _ _ => Sends s) (fun _ _ => True) := by
  unfold encrypt
  rw [ensures_get_bind]
  split
  · next h => cases h.symm.trans henabled
  split
  · trivial
  split
  · trivial
  next k hk =>
  split
  · trivial
  split
  · trivial
  next hready =>
  rw [ensures_bind]
  exact ensures_provided (fun _ _ => ⟨by simpa using hready, by rw [hk]; rfl⟩) (fun _ _ => trivial)

theorem sealPacket_sends (header : DataHeader) (plaintext : Bytes) :
    Ensures (sealPacket P header plaintext) s (fun _ _ => Sends s) (fun _ _ => True) := by
  unfold sealPacket
  rw [ensures_get_bind]
  split
  · trivial
  split
  · trivial
  next hready =>
  split
  · trivial
  next k hk =>
  split
  · trivial
  rw [ensures_bind]
  exact ensures_provided (fun _ _ => ⟨by simpa using hready, by rw [hk]; rfl⟩) (fun _ _ => trivial)

/-- Readiness, as far as the sender state goes. -/
theorem ready_state (henabled : s.enabled = true) (hsending : s.unacknowledgedSending = false)
    (h : s.readyToSendData = true) :
    s.senderState = .secured ∨ s.senderState = .securing ∧ s.rotationPrepared = true := by
  unfold CryptoSession.readyToSendData at h
  rw [if_neg (by rw [henabled]; decide)] at h
  split at h
  · cases h
  rw [if_neg (by rw [hsending]; decide)] at h
  split at h
  · cases h
  next hstate =>
  split at h
  · cases h
  next hprepared =>
  by_cases hsecured : s.senderState = .secured
  · exact .inl hsecured
  have hsecuring : s.senderState = .securing := by
    by_contra hne
    exact hstate ⟨hsecured, hne⟩
  refine .inr ⟨hsecuring, ?_⟩
  by_contra hne
  exact hprepared ⟨hsecuring, by simpa using hne⟩

end Confirmed

/-! ## Runs -/

namespace Exchange

variable {P : CryptoProvider} {x : Exchange} {c : CryptoCall}

structure Sound (P : CryptoProvider) (x : Exchange) : Prop where
  wellFormed : SenderWellFormed x.session
  enabled : x.session.enabled = true
  confirmed : Confirmed P x.accepted x.session.sender

/-- Along the steps of one call: the account with the response it may have
accepted. -/
theorem Sound.after (hx : Sound P x) (hc : x.Settles c) :
    Confirmed P x.accepted (x.session.after P c).sender
      ∨ ∃ response clone, c = .acknowledgeKeyMaterial response clone
        ∧ response ∈ (x.session.after P c).acknowledgedKeyMaterialHistory
        ∧ Confirmed P (response :: x.accepted) (x.session.after P c).sender := by
  obtain ⟨hcooperates, hunclaimed, hsettled⟩ := hc
  have hpeer : ∀ reported, c ≠ .continueWithoutPeerKey reported := by
    rintro reported rfl
    exact hcooperates
  have hreported : ∀ response clone, c = .acknowledgeKeyMaterial response clone →
      response.length = 4 → decodeKeyMaterialState response = some .secured →
      x.session.preservesSecuredState = true := by
    rintro response clone rfl
    exact hunclaimed
  have hsteps := after_steps (P := P) hx.wellFormed c
  generalize x.session.after P c = t at hsteps ⊢
  induction hsteps with
  | refl => exact .inl hx.confirmed
  | @tail u w hpath hstep ih =>
    have hw := SenderSteps.wellFormed hpath hx.wellFormed
    rcases hstep.acknowledged with hsame | ⟨response, clone, rfl, hnew⟩
    · rcases ih with hconfirmed | ⟨response, clone, rfl, hmem, hconfirmed⟩
      · exact .inl (hconfirmed.step hw hstep (List.Subset.refl _)
          (hsame ▸ hconfirmed.history) hpeer hsettled hreported)
      refine .inr ⟨response, clone, rfl, ?_, ?_⟩
      · show response ∈ w.sender.acknowledged
        rw [hsame]
        exact hmem
      exact hconfirmed.step hw hstep (List.Subset.refl _)
        (hsame ▸ hconfirmed.history) hpeer hsettled hreported
    have hconfirmed : Confirmed P (response :: x.accepted) u.sender := by
      rcases ih with hconfirmed | ⟨response', _, heq, -, hconfirmed⟩
      · exact hconfirmed.mono (List.subset_cons_self _ _)
      cases heq
      exact hconfirmed
    refine .inr ⟨response, clone, rfl, ?_, ?_⟩
    · show response ∈ w.sender.acknowledged
      rw [hnew]
      exact List.mem_cons_self
    refine hconfirmed.step hw hstep (List.Subset.refl _) ?_ hpeer hsettled hreported
    intro r hr
    rw [hnew] at hr
    rcases mem_of_remembered hr with rfl | hr
    · exact List.mem_cons_self
    · exact hconfirmed.history r hr

theorem Sound.step (hx : Sound P x) (hc : x.Settles c) : Sound P (x.step P c) := by
  have hw : SenderWellFormed (x.session.after P c) :=
    SenderSteps.wellFormed (after_steps hx.wellFormed c) hx.wellFormed
  have henabled : (x.session.after P c).enabled = true :=
    (after_later hx.wellFormed c).enabled.trans hx.enabled
  rcases hx.after hc with hconfirmed | ⟨response, clone, rfl, hmem, hconfirmed⟩
  · have hsame : Sound P { x with session := x.session.after P c } := ⟨hw, henabled, hconfirmed⟩
    cases c with
    | acknowledgeKeyMaterial response clone =>
      unfold Exchange.step
      dsimp only
      split
      · exact ⟨hw, henabled, hconfirmed.mono (List.subset_cons_self _ _)⟩
      · exact hsame
    | _ => exact hsame
  unfold Exchange.step
  dsimp only
  rw [if_pos hmem]
  exact ⟨hw, henabled, hconfirmed⟩

theorem sound_of_reaches (h : Lts.Reaches (system P) Settles x) : Sound P x := by
  refine h.invariant ?_ ?_
  · rintro _ ⟨c, henabled, rfl⟩
    refine ⟨senderWellFormed_ofConfiguration P c, henabled, ?_⟩
    unfold ofConfiguration
    split <;>
      exact ⟨nofun, nofun, nofun, fun h => absurd rfl h, nofun, fun _ => .inl rfl, nofun, rfl⟩
  rintro x c _ _ hx hc rfl
  exact hx.step hc

/-- In such a run DATA leaves only under a key that a returned message
carries. -/
theorem data_under_acknowledged_key (P : CryptoProvider) (x : Exchange)
    (h : Lts.Reaches (system P) Settles x) (c : CryptoCall)
    (hdata : (∃ sequence plaintext, c = .encrypt sequence plaintext)
      ∨ ∃ header plaintext, c = .sealPacket header plaintext)
    (hok : x.session.succeeds P c = true) :
    ∃ k, x.session.transmit.get x.session.activeSenderKey = some k
      ∧ ∃ r ∈ x.accepted, Contains P r k.key := by
  have hx := sound_of_reaches h
  have hsends : Sends x.session := by
    rcases hdata with ⟨sequence, plaintext, rfl⟩ | ⟨header, plaintext, rfl⟩
    · exact after_of_succeeds (c := .encrypt sequence plaintext)
        (ensures_discard.2 (encrypt_sends hx.enabled sequence plaintext)) hok
    exact after_of_succeeds (c := .sealPacket header plaintext)
      (ensures_discard.2 (sealPacket_sends header plaintext)) hok
  obtain ⟨k, hk⟩ := Option.isSome_iff_exists.1 hsends.active
  refine ⟨k, hk, hx.confirmed.active ?_ k hk⟩
  exact ready_state hx.enabled hx.confirmed.acknowledging hsends.ready

def exampleStart : Exchange :=
  { session := ofConfiguration (exampleProvider []) exampleConfiguration }

/-- The first key is returned before a position is prepared. -/
def settledRun : Exchange :=
  [CryptoCall.startInitiator, .acknowledgeKeyMaterial exampleRequest false,
    .prepareDataPacket 5].foldl (step (exampleProvider [])) exampleStart

theorem data_under_acknowledged_key_settledRun :
    settledRun.session.succeeds (exampleProvider []) (.encrypt (.ofNat 5) [1]) = true
      ∧ ∃ k, settledRun.session.transmit.get settledRun.session.activeSenderKey = some k
        ∧ ∃ r ∈ settledRun.accepted, Contains (exampleProvider []) r k.key := by
  have hstart : Lts.Reaches (system (exampleProvider [])) Settles exampleStart :=
    .start ⟨exampleConfiguration, by decide +kernel, rfl⟩
  have hok : settledRun.session.succeeds (exampleProvider []) (.encrypt (.ofNat 5) [1]) = true := by
    decide +kernel
  exact ⟨hok, data_under_acknowledged_key (exampleProvider []) settledRun
    (hstart.foldl (by decide +kernel)) _ (.inl ⟨_, _, rfl⟩) hok⟩

/-- The positions skipped behind the first one reach the announcement point
before the first key is returned. -/
def skippedRun : Exchange :=
  [CryptoCall.startInitiator, .prepareDataPacket 0, .prepareDataPacket 16773120].foldl
    (step (exampleProvider [])) exampleStart

/-- A status response reports SECURED. -/
def claimedRun : Exchange :=
  [CryptoCall.startInitiator, .acknowledgeKeyMaterial [2, 0, 0, 0] false,
    .prepareDataPacket 0].foldl (step (exampleProvider [])) exampleStart

/-- In both runs DATA leaves and no response was accepted. -/
theorem data_without_acknowledged_key :
    (Lts.Reaches (system (exampleProvider [])) Cooperates skippedRun ∧ skippedRun.accepted = []
        ∧ skippedRun.session.succeeds (exampleProvider []) (.encrypt (.ofNat 16773120) [1]) = true)
      ∧ Lts.Reaches (system (exampleProvider [])) Cooperates claimedRun ∧ claimedRun.accepted = []
        ∧ claimedRun.session.succeeds (exampleProvider []) (.encrypt (.ofNat 0) [1]) = true := by
  have hstart : Lts.Reaches (system (exampleProvider [])) Cooperates exampleStart :=
    .start ⟨exampleConfiguration, by decide +kernel, rfl⟩
  exact ⟨⟨hstart.foldl (by decide +kernel), by decide +kernel, by decide +kernel⟩,
    hstart.foldl (by decide +kernel), by decide +kernel, by decide +kernel⟩

end Exchange

end Srt
