/-
# `Crypto.Downgrade` — plaintext is not reached again

Five members decide whether a session may still fall back to plaintext, and
the operations clear them one at a time.  `RatchetStep` lists what a call can
do to them: whatever clears one member sets another.

The exception is `start_initiator`, which refuses a session with a transmit
key but otherwise writes the sender state without looking at it.  A status
response can have set that state to SECURED before there was a key.
-/
import Srt.Crypto.Receiver

namespace Srt

open Fallible CryptoSession

/-! ## The ratchet -/

/-- The members `allows_plaintext_fallback` reads. -/
structure Ratchet where
  unacknowledgedSending : Bool
  directionalKeyPending : Bool
  rotationPrepared : Bool
  sender : CryptoState
  receiver : CryptoState
  deriving DecidableEq, Repr

def CryptoSession.ratchet (s : CryptoSession) : Ratchet where
  unacknowledgedSending := s.unacknowledgedSending
  directionalKeyPending := s.directionalKeyPending
  rotationPrepared := s.rotationPrepared
  sender := s.senderState
  receiver := s.receiverState

namespace Ratchet

/-- Plaintext is excluded. -/
def Locked (r : Ratchet) : Prop :=
  r.unacknowledgedSending = true ∨ r.directionalKeyPending = true ∨ r.rotationPrepared = true
    ∨ r.sender = .secured ∨ r.receiver = .secured ∨ r.receiver = .securing

end Ratchet

theorem allowsPlaintextFallback_eq_false {s : CryptoSession} :
    s.allowsPlaintextFallback = false ↔ s.ratchet.Locked := by
  simp only [allowsPlaintextFallback, Ratchet.Locked, CryptoSession.ratchet,
    Bool.and_eq_false_iff, Bool.not_eq_false', bne_eq_false_iff_eq]
  tauto

/-- What a call other than `start_initiator` can do to the ratchet. -/
inductive RatchetStep (r : Ratchet) : Ratchet → Prop
  /-- A request is refused before any was accepted. -/
  | refuse (state : CryptoState) (hsecured : r.receiver ≠ .secured)
      (hsecuring : r.receiver ≠ .securing) : RatchetStep r { r with receiver := state }
  | accept : RatchetStep r { r with receiver := .secured }
  /-- A transmit key of its own is prepared behind the exchange. -/
  | direct : RatchetStep r { r with
      sender := .securing, directionalKeyPending := true, rotationPrepared := false }
  | reverse : RatchetStep r { r with sender := .securing, directionalKeyPending := true }
  | rotate : RatchetStep r { r with sender := .securing, rotationPrepared := true }
  | switch : RatchetStep r { r with sender := .secured, rotationPrepared := false }
  | leave (state : CryptoState) : RatchetStep r { r with
      sender := state
      unacknowledgedSending := true
      directionalKeyPending := false
      rotationPrepared := false }
  | demote (state : CryptoState) (hsecured : r.sender ≠ .secured) :
      RatchetStep r { r with sender := state }
  | confirm : RatchetStep r { r with sender := .secured, directionalKeyPending := false }

abbrev RatchetSteps : Ratchet → Ratchet → Prop := Relation.ReflTransGen RatchetStep

section Steps

variable {r r' : Ratchet}

theorem RatchetStep.locked (h : RatchetStep r r') (hr : r.Locked) : r'.Locked := by
  unfold Ratchet.Locked at hr ⊢
  cases h <;> tauto

theorem RatchetStep.secured (h : RatchetStep r r') (hr : r.receiver = .secured) :
    r'.receiver = .secured := by
  cases h with
  | refuse state hsecured => exact absurd hr hsecured
  | accept => rfl
  | _ => exact hr

theorem RatchetSteps.locked (h : RatchetSteps r r') (hr : r.Locked) : r'.Locked := by
  induction h with
  | refl => exact hr
  | tail _ hstep ih => exact hstep.locked ih

theorem RatchetSteps.secured (h : RatchetSteps r r') (hr : r.receiver = .secured) :
    r'.receiver = .secured := by
  induction h with
  | refl => exact hr
  | tail _ hstep ih => exact hstep.secured ih

end Steps

/-! ## The operations -/

section Operations

variable {P : CryptoProvider} {s : CryptoSession}

theorem ignoresKeys_ratchet : IgnoresKeys ratchet := fun _ _ _ _ _ _ _ _ _ => rfl

/-- A program that moves the ratchet only as the operations may. -/
def Ratchets {α : Type} (x : CryptoM α) (s : CryptoSession) : Prop :=
  Ensures x s (fun _ t => RatchetSteps s.ratchet t.ratchet)
    (fun _ t => RatchetSteps s.ratchet t.ratchet)

section Rules

variable {α β : Type} {x : CryptoM α}

theorem Ratchets.of_keeps (h : Keeps ratchet x) (s : CryptoSession) : Ratchets x s :=
  (h s).mono (fun _ _ ht => ht ▸ .refl) (fun _ _ ht => ht ▸ .refl)

theorem Ratchets.pure {a : α} : Ratchets (pure a) s := .refl

theorem Ratchets.throw {e : Error} : Ratchets (throw e : CryptoM α) s := .refl

theorem Ratchets.modify {f : CryptoSession → CryptoSession}
    (h : RatchetSteps s.ratchet (f s).ratchet) : Ratchets (modify f) s := h

theorem Ratchets.get {f : CryptoSession → CryptoM β} (h : Ratchets (f s) s) :
    Ratchets (get >>= f) s := by
  unfold Ratchets
  rw [ensures_get_bind]
  exact h

theorem Ratchets.bind (hx : Ratchets x s) {f : α → CryptoM β} (hf : ∀ a t, Ratchets (f a) t) :
    Ratchets (x >>= f) s := by
  unfold Ratchets
  rw [ensures_bind]
  refine hx.mono ?_ (fun _ _ h => h)
  intro a t ht
  exact (hf a t).mono (fun _ _ h => ht.trans h) (fun _ _ h => ht.trans h)

theorem Ratchets.tryCatch (hx : Ratchets x s) {h : Error → CryptoM α}
    (hh : ∀ e t, Ratchets (h e) t) : Ratchets (tryCatch x h) s := by
  unfold Ratchets
  rw [ensures_tryCatch]
  refine hx.mono (fun _ _ h => h) ?_
  intro e t ht
  exact (hh e t).mono (fun _ _ h => ht.trans h) (fun _ _ h => ht.trans h)

theorem Ratchets.ite {c : Prop} [Decidable c] {y : CryptoM α} (hx : Ratchets x s)
    (hy : Ratchets y s) : Ratchets (if c then x else y) s := by
  split
  · exact hx
  · exact hy

end Rules

/-- `start_initiator` may write any sender state. -/
theorem startInitiator_ratchet (hs : s.enabled = true) :
    Ensures (startInitiator P) s
      (fun _ t => ∃ state, t.ratchet = { s.ratchet with sender := state })
      (fun _ t => ∃ state, t.ratchet = { s.ratchet with sender := state }) := by
  unfold startInitiator
  rw [ensures_get_bind]
  split
  · rw [ensures_modify_bind]
    split
    · exact ⟨_, rfl⟩
    · exact ⟨s.senderState, rfl⟩
  split
  · next hdisabled => exact absurd hs (by rw [hdisabled]; decide)
  split
  · exact ⟨s.senderState, rfl⟩
  rw [ensures_modify_bind, ensures_bind, ensures_tryCatch]
  generalize hu : CryptoSession.mk .. = u
  have hu : u.ratchet = s.ratchet := by
    subst hu
    rfl
  have hprepare : Keeps ratchet (do
      generateInitialSenderKey P s.configuredKeyLength
      modify fun s => { s with activeSenderKey := .even }
      buildSenderKeyMaterial P .even) :=
    .bind (keeps_generateInitialSenderKey ignoresKeys_ratchet _) fun _ =>
      .bind (.modify (by intro; rfl)) fun _ => keeps_buildSenderKeyMaterial ignoresKeys_ratchet _
  refine (hprepare u).mono ?_ ?_
  · intro _ t ht
    rw [ensures_modify]
    refine ⟨.securing, ?_⟩
    rw [← hu, ← ht]
    rfl
  intro e t ht
  exact ⟨if e = .unsupported then .badCryptoMode else .noSecret, by rw [← hu, ← ht]; rfl⟩

theorem prepareBidirectionalSender_ratchets (size : Nat) :
    Ratchets (prepareBidirectionalSender P size) s :=
  .bind (.modify (.single .direct)) fun _ t => .of_keeps
    (.bind (keeps_generateInitialSenderKey ignoresKeys_ratchet _) fun _ =>
      keeps_buildSenderKeyMaterial ignoresKeys_ratchet _) t

theorem prepareRotation_ratchets : Ratchets (prepareRotation P) s :=
  .get (.ite .pure (.ite .pure (.ite .throw (.ite .pure
    (.bind (.of_keeps (keeps_generateNextSenderKey ignoresKeys_ratchet) s) fun _ t =>
      .bind (.of_keeps (keeps_buildSenderKeyMaterial ignoresKeys_ratchet _) t) fun _ _ =>
        .modify (.single .rotate))))))

theorem continueWithoutPeerKey_ratchets (reported : CryptoState) :
    Ratchets (continueWithoutPeerKey P reported) s := by
  refine .get (.ite .throw ?_)
  split
  · exact .throw
  have hmode : Keeps ratchet (modify fun s : CryptoSession => if s.effectiveMode = .automatic then
      { s with effectiveMode := if s.configuredMode = .automatic then .aesCtr
          else s.configuredMode }
      else s : CryptoM Unit) := by
    refine .modify fun s => ?_
    split <;> rfl
  have hlocal : Keeps ratchet (ensureLocalKey P) :=
    .bind .get fun _ => .ite .pure (.bind (.modify (by intro; rfl)) fun _ =>
      keeps_generateInitialSenderKey ignoresKeys_ratchet _)
  exact .bind (.of_keeps hmode s) fun _ t => .bind (.of_keeps hlocal t) fun _ _ =>
    .modify (.single (.leave _))

theorem noteDataPacketSent_ratchets : Ratchets (noteDataPacketSent P) s :=
  .get (.ite .pure (.bind (.modify .refl) fun _ _ => .get (.ite .throw
    (.bind (.modify .refl) fun _ _ => .get (.ite .pure (.ite
      (.bind (.of_keeps (keeps_generateNextSenderKey ignoresKeys_ratchet) _) fun _ _ =>
        .modify .refl)
      (.ite .pure (.modify (.single .switch)))))))))

theorem prepareDataPacket_ratchets (position : Nat) :
    Ratchets (prepareDataPacket P position) s := by
  refine .get (.ite .pure ?_)
  split
  · exact .bind (.modify .refl) fun _ _ => prepareRotation_ratchets
  exact .ite .throw (.ite .pure (.ite .throw (.bind (.modify .refl) fun _ _ =>
    prepareRotation_ratchets)))

theorem rejectKeyMaterial_ratchets {α : Type} (e : Error) (state : CryptoState) :
    Ratchets (rejectKeyMaterial e state : CryptoM α) s := by
  refine .bind (.modify ?_) fun _ _ => .throw
  split
  · exact .refl
  next h =>
  obtain ⟨hsecured, hsecuring⟩ := not_or.1 h
  exact .single (.refuse state hsecured hsecuring)

theorem openKeyMaterial_ratchets (request : Bytes) : Ratchets (openKeyMaterial P request) s := by
  refine .get ?_
  split
  · exact rejectKeyMaterial_ratchets _ _
  split
  · exact rejectKeyMaterial_ratchets _ _
  refine .tryCatch (.of_keeps ?_ s) fun _ _ => rejectKeyMaterial_ratchets _ _
  exact .bind (keeps_deriveKeyEncryptionKey ignoresKeys_ratchet _ _ _ _) fun _ =>
    .bind (keeps_provided ignoresKeys_ratchet _) fun _ => .ite .pure .throw

theorem keeps_installReceiveKeys (salt : Bytes) (mode : CryptoMode) :
    ∀ keys : List (KeySelector × Bytes), Keeps ratchet (installReceiveKeys P salt mode keys)
  | [] => .pure
  | (_, _) :: keys =>
    .bind (.bind .get fun _ => .ite .pure (.bind (keeps_makeKey ignoresKeys_ratchet _ _ _) fun _ =>
      .modify (by intro; rfl))) fun _ => keeps_installReceiveKeys salt mode keys

theorem acceptKeyMaterial_ratchets (hs : s.enabled = true) (request : Bytes) (clone : Bool) :
    Ratchets (acceptKeyMaterial P request clone) s := by
  refine .get ?_
  split
  · exact rejectKeyMaterial_ratchets _ _
  split
  · next hdisabled => exact absurd hs (by rw [hdisabled]; decide)
  refine .ite (.modify .refl) (.bind (openKeyMaterial_ratchets request) fun m t => .get ?_)
  refine .ite (rejectKeyMaterial_ratchets _ _) ?_
  refine .bind (.tryCatch (.of_keeps (keeps_installReceiveKeys _ _ _) t) fun _ _ =>
    rejectKeyMaterial_ratchets _ _) fun _ _ => .bind (.modify (.single .accept)) fun _ _ =>
      .bind (.get (.ite (prepareBidirectionalSender_ratchets _) .pure)) fun _ _ => .modify .refl

theorem acknowledgeKeyMaterial_ratchets (response : Bytes) (clone : Bool) :
    Ratchets (acknowledgeKeyMaterial P response clone) s := by
  have hdemote (state : CryptoState) : RatchetSteps s.ratchet (s.demote state).ratchet := by
    unfold demote
    split
    · exact .refl
    next h =>
    refine .single (.demote state ?_)
    intro hsecured
    exact h (by simp [preservesSecuredState, show s.senderState = .secured from hsecured])
  have hclone (i : KeySelector) : Keeps ratchet (cloneToReceive P i) := by
    refine .bind .get fun t => ?_
    split
    · exact .modify (by intro; rfl)
    · exact .bind (keeps_makeKey ignoresKeys_ratchet _ _ _) fun _ => .modify (by intro; rfl)
  refine .get (.ite (.bind (.modify (by exact hdemote _)) fun _ _ => .throw) (.ite .pure
    (.ite (.bind (.modify (by exact hdemote _)) fun _ _ => .throw) (.ite .pure ?_))))
  refine .bind (.modify (.single .confirm)) fun _ _ => .get (.ite ?_ .pure)
  exact .bind (.modify (.single .reverse)) fun _ _ => .get (.bind (.bind (.modify .refl) fun _ _ =>
    .bind (.of_keeps (hclone _) _) fun _ _ => .bind (.of_keeps (hclone _) _) fun _ _ =>
      .modify (.single .accept)) fun _ _ => .bind (.modify .refl) fun _ _ =>
        prepareBidirectionalSender_ratchets _)

/-- A packet that is decrypted or opened does not move the ratchet. -/
theorem keeps_decrypt (key : EncryptionKey) (sequence : SequenceNumber) (ciphertext : Bytes) :
    Keeps ratchet (decrypt P key sequence ciphertext) := by
  refine .bind .get fun t => .ite (.ite .throw .pure) (.ite .throw ?_)
  split
  · exact .throw
  refine .ite .throw (.bind (keeps_provided ignoresKeys_ratchet _) fun _ =>
    .bind (.modify fun u => ?_) fun _ => .pure)
  unfold markReceived
  split <;> rfl

theorem ratchet_noteAuthenticatedReceiveSequence (sequence : SequenceNumber) :
    (s.noteAuthenticatedReceiveSequence sequence).ratchet = s.ratchet := by
  unfold noteAuthenticatedReceiveSequence
  split
  · rfl
  dsimp only
  split
  · split <;> rfl
  · rfl

theorem keeps_openPacket (header : DataHeader) (ciphertext tag : Bytes) :
    Keeps ratchet (openPacket P header ciphertext tag) := by
  refine .bind .get fun t => .ite .throw ?_
  split
  · exact .throw
  refine .ite .throw (.bind (keeps_provided ignoresKeys_ratchet _) fun _ =>
    .bind (.modify fun u => ?_) fun _ => .pure)
  rw [ratchet_noteAuthenticatedReceiveSequence]
  unfold markReceived
  split <;> rfl

/-- Every call but `start_initiator`. -/
theorem after_ratchet (hs : s.enabled = true) {c : CryptoCall} (hc : c ≠ .startInitiator) :
    RatchetSteps s.ratchet (s.after P c).ratchet := by
  refine after_of_ensures (Q := fun t => RatchetSteps s.ratchet t.ratchet) ?_
  have hkeeps (h : Keeps ratchet (perform P c)) : Ratchets (perform P c) s := .of_keeps h s
  cases c with
  | startInitiator => exact absurd rfl hc
  | acceptKeyMaterial request clone => exact acceptKeyMaterial_ratchets hs request clone
  | acknowledgeKeyMaterial response clone => exact acknowledgeKeyMaterial_ratchets response clone
  | continueWithoutPeerKey reported => exact continueWithoutPeerKey_ratchets reported
  | prepareRotation => exact prepareRotation_ratchets
  | setPreannouncementFloor positions => exact hkeeps (.modify (by intro; rfl))
  | prepareDataPacket position => exact prepareDataPacket_ratchets position
  | noteDataPacketSent => exact noteDataPacketSent_ratchets
  | encrypt sequence plaintext => exact hkeeps (.discard (keeps_encrypt ignoresKeys_ratchet _ _))
  | sealPacket header plaintext =>
    exact hkeeps (.discard (keeps_sealPacket ignoresKeys_ratchet _ _))
  | decrypt key sequence ciphertext => exact hkeeps (.discard (keeps_decrypt _ _ _))
  | openPacket header ciphertext tag => exact hkeeps (.discard (keeps_openPacket _ _ _))
  | noteAcceptedReceiveSequence sequence =>
    exact hkeeps (.modify fun _ => ratchet_noteAuthenticatedReceiveSequence sequence)

end Operations

/-! ## Runs -/

/-- The runs from a session. -/
def CryptoSession.runsFrom (P : CryptoProvider) (s : CryptoSession) :
    Lts.System CryptoSession CryptoCall :=
  .ofFun (· = s) (after P)

/-- `start_initiator` is not called on a session that counts as secured and
has no transmit key ready. -/
def CryptoSession.StartsUnsecured (s : CryptoSession) (c : CryptoCall) : Prop :=
  c = .startInitiator → s.senderState = .secured →
    s.transmit.even.isSome ∨ s.transmit.odd.isSome

instance (s : CryptoSession) (c : CryptoCall) : Decidable (s.StartsUnsecured c) :=
  inferInstanceAs (Decidable (_ → _ → _))

section Runs

variable {P : CryptoProvider} {s t : CryptoSession}

/-- What every run from `s` keeps. -/
structure Locks (s t : CryptoSession) : Prop where
  wellFormed : SenderWellFormed t
  enabled : t.enabled = true
  secured : s.receiverState = .secured → t.receiverState = .secured

theorem after_startInitiator_ratchet (ht : t.enabled = true) :
    ∃ state, (t.after P .startInitiator).ratchet = { t.ratchet with sender := state } :=
  after_of_ensures (c := .startInitiator)
    (Q := fun u => ∃ state, u.ratchet = { t.ratchet with sender := state })
    (startInitiator_ratchet ht)

theorem Locks.after (h : Locks s t) (c : CryptoCall) : Locks s (t.after P c) := by
  refine ⟨SenderSteps.wellFormed (after_steps h.wellFormed c) h.wellFormed,
    (after_later h.wellFormed c).enabled.trans h.enabled, ?_⟩
  intro hs
  by_cases hstart : c = .startInitiator
  · subst hstart
    obtain ⟨state, hstate⟩ := after_startInitiator_ratchet (P := P) h.enabled
    exact (congrArg Ratchet.receiver hstate).trans (h.secured hs)
  exact (after_ratchet h.enabled hstart).secured (h.secured hs)

/-- A session that has a transmit key refuses to start, and stays as it is. -/
theorem after_startInitiator_ready (h : SenderWellFormed t)
    (hready : t.transmit.even.isSome ∨ t.transmit.odd.isSome) : t.after P .startInitiator = t := by
  have hactive : (t.transmit.get t.activeSenderKey).isSome := by
    by_contra hnone
    rw [Bool.not_eq_true, Option.isSome_eq_false_iff, Option.isNone_iff_eq_none] at hnone
    rw [(h.active hnone).1] at hready
    simp at hready
  obtain ⟨henabled, hconfiguration⟩ := h.operational hactive
  refine after_of_ensures (c := .startInitiator) (Q := fun u => u = t) ?_
  show Ensures (startInitiator P) t _ _
  unfold startInitiator
  rw [ensures_get_bind, hconfiguration]
  dsimp only
  rw [henabled, if_neg (by decide), if_pos hready]
  rfl

/-- Short of such a start a lock stays. -/
theorem Locks.locked (h : Locks s t) {c : CryptoCall} (hc : t.StartsUnsecured c)
    (hlocked : t.ratchet.Locked) : (t.after P c).ratchet.Locked := by
  by_cases hstart : c = .startInitiator
  · by_cases hsecured : t.senderState = .secured
    · rw [hstart, after_startInitiator_ready h.wellFormed (hc hstart hsecured)]
      exact hlocked
    obtain ⟨state, hstate⟩ := after_startInitiator_ratchet (P := P) h.enabled
    have hsender : t.ratchet.sender ≠ .secured := hsecured
    rw [hstart, hstate]
    unfold Ratchet.Locked at hlocked ⊢
    tauto
  exact (after_ratchet h.enabled hstart).locked hlocked

theorem locks_of_reaches {guard : CryptoSession → CryptoCall → Prop}
    (hs : Lts.Reachable (runs P) s) (henabled : s.enabled = true)
    (ht : Lts.Reaches (runsFrom P s) guard t) : Locks s t := by
  refine ht.invariant ?_ ?_
  · rintro _ rfl
    exact ⟨senderWellFormed_of_reachable hs, henabled, id⟩
  rintro t c _ _ hlocks _ rfl
  exact hlocks.after c

theorem encrypt_key_ne_none (hs : s.enabled = true) (sequence : SequenceNumber)
    (plaintext : Bytes) :
    Ensures (encrypt P sequence plaintext) s (fun r _ => r.1 ≠ .none) (fun _ _ => True) := by
  have hkey (i : KeySelector) : i.key ≠ .none := by cases i <;> exact nofun
  unfold encrypt
  rw [ensures_get_bind]
  split
  · next hdisabled => exact absurd hs (by rw [hdisabled]; decide)
  split
  · trivial
  split
  · trivial
  split
  · trivial
  split
  · trivial
  rw [ensures_bind]
  exact ensures_provided (fun _ _ => hkey _) (fun _ _ => trivial)

theorem sealPacket_key_ne_none (header : DataHeader) (plaintext : Bytes) :
    Ensures (sealPacket P header plaintext) s (fun r _ => r.1 ≠ .none) (fun _ _ => True) := by
  have hkey (i : KeySelector) : i.key ≠ .none := by cases i <;> exact nofun
  unfold sealPacket
  rw [ensures_get_bind]
  split
  · trivial
  split
  · trivial
  split
  · trivial
  split
  · trivial
  rw [ensures_bind]
  exact ensures_provided (fun _ _ => hkey _) (fun _ _ => trivial)

/-- Behind a session `s` with a passphrase: plaintext that was excluded in `s`
stays excluded unless a session that counts as secured is started without a
key; in every run a secured receiver stays secured and takes no plaintext, and
nothing is encrypted or sealed without a key. -/
theorem no_downgrade (P : CryptoProvider) (s t : CryptoSession) (hs : Lts.Reachable (runs P) s)
    (henabled : s.enabled = true) (ht : Lts.Reachable (runsFrom P s) t) :
    (s.allowsPlaintextFallback = false → Lts.Reaches (runsFrom P s) StartsUnsecured t →
        t.allowsPlaintextFallback = false)
      ∧ (s.receiverState = .secured → t.receiverState = .secured
        ∧ ∀ sequence ciphertext, ∃ e u, decrypt P .none sequence ciphertext t = .error e u)
      ∧ (∀ sequence plaintext key ciphertext u,
        encrypt P sequence plaintext t = .ok (key, ciphertext) u → key ≠ .none)
      ∧ ∀ header plaintext key payload u,
        sealPacket P header plaintext t = .ok (key, payload) u → key ≠ .none := by
  have hlocks : Locks s t := locks_of_reaches hs henabled ht
  refine ⟨?_, ?_, ?_, ?_⟩
  · intro hexcluded hguarded
    rw [allowsPlaintextFallback_eq_false] at hexcluded ⊢
    refine hguarded.invariant (I := fun t => t.ratchet.Locked) ?_ ?_
    · rintro _ rfl
      exact hexcluded
    rintro t c _ hreached hlocked hc rfl
    exact (locks_of_reaches hs henabled hreached).locked hc hlocked
  · intro hsecured
    refine ⟨hlocks.secured hsecured, ?_⟩
    intro sequence ciphertext
    refine ⟨.cryptographicFailure, t, ?_⟩
    show (if t.enabled = true ∧ t.receiverState = .secured then _ else _ : CryptoM Bytes) t = _
    rw [if_pos ⟨hlocks.enabled, hlocks.secured hsecured⟩]
    rfl
  · intro sequence plaintext key ciphertext u hrun
    have hkey := encrypt_key_ne_none (P := P) hlocks.enabled sequence plaintext
    unfold Ensures at hkey
    rw [hrun] at hkey
    exact hkey
  intro header plaintext key payload u hrun
  have hkey := sealPacket_key_ne_none (P := P) (s := t) header plaintext
  unfold Ensures at hkey
  rw [hrun] at hkey
  exact hkey

end Runs

def exampleSession : CryptoSession := ofConfiguration (exampleProvider []) exampleConfiguration

/-- The first key is returned. -/
def securedSession : CryptoSession :=
  [CryptoCall.startInitiator, .acknowledgeKeyMaterial exampleRequest false].foldl
    (after (exampleProvider [])) exampleSession

theorem no_downgrade_securedSession :
    securedSession.allowsPlaintextFallback = false
      ∧ (securedSession.after (exampleProvider [])
        (.acknowledgeKeyMaterial [3, 0, 0, 0] false)).allowsPlaintextFallback = false
      ∧ (securedSession.after (exampleProvider []) .startInitiator).allowsPlaintextFallback
        = false := by
  have hstart : Lts.Reachable (runs (exampleProvider [])) exampleSession :=
    .start ⟨exampleConfiguration, rfl⟩
  have hlocked : securedSession.allowsPlaintextFallback = false := by decide +kernel
  have hreached : Lts.Reachable (runs (exampleProvider [])) securedSession :=
    hstart.foldl (by decide +kernel)
  refine ⟨hlocked, ?_, ?_⟩
  · exact (no_downgrade (exampleProvider []) securedSession _ hreached (by decide +kernel)
      (.next (.start rfl) trivial rfl)).1 hlocked (.next (.start rfl) (by decide +kernel) rfl)
  exact (no_downgrade (exampleProvider []) securedSession _ hreached (by decide +kernel)
    (.next (.start rfl) trivial rfl)).1 hlocked (.next (.start rfl) (by decide +kernel) rfl)

/-- A status response reports SECURED before anything was started. -/
def claimedSession : CryptoSession :=
  exampleSession.after (exampleProvider []) (.acknowledgeKeyMaterial [2, 0, 0, 0] false)

/-- There `start_initiator` allows plaintext again. -/
theorem start_allows_plaintext_again :
    Lts.Reachable (runs (exampleProvider [])) claimedSession ∧ claimedSession.enabled = true
      ∧ claimedSession.allowsPlaintextFallback = false
      ∧ Lts.Reachable (runsFrom (exampleProvider []) claimedSession)
        (claimedSession.after (exampleProvider []) .startInitiator)
      ∧ (claimedSession.after (exampleProvider []) .startInitiator).allowsPlaintextFallback
        = true := by
  refine ⟨?_, by decide +kernel, by decide +kernel, ?_, by decide +kernel⟩
  · exact .next (.start ⟨exampleConfiguration, rfl⟩) trivial rfl
  · exact .next (.start rfl) trivial rfl

end Srt
