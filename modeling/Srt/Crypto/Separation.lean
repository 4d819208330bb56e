/-
# `Crypto.Separation` — no key in both directions

A transmit key is drawn from the random source, and a receive key comes from
a request or is the copy of a transmit key that the exchange in the other
direction makes.  The copy is made while both slots hold the key, and the
transmit slots are erased before the call returns; a request for a key that a
transmit slot holds is refused.  So between calls no key is on both sides,
and a key that was copied once never transmits again.
-/
import Srt.Crypto.Atomicity

namespace Srt

open Fallible CryptoSession

variable {j : KeySelector} {x : TrafficKey}

/-- No key of a transmit slot is current or retired on the receive side. -/
def Separate (s : CryptoSession) : Prop :=
  ∀ i, ∀ k ∈ s.transmit.get i, ∀ j, ∀ x ∈ s.receiver.known j, x.key ≠ k.key

/-- The keys that a call draws are none that it has met: neither known on the
receive side nor announced by the request it handles. -/
def DrawsFresh (P : CryptoProvider) (s : CryptoSession) (c : CryptoCall) : Prop :=
  ∀ key, Drew P s (s.after P c) key →
    (∀ j, ∀ x ∈ s.receiver.known j, x.key ≠ key)
      ∧ ∀ request clone m u, c = .acceptKeyMaterial request clone →
        openKeyMaterial P request s = .ok m u → ∀ k ∈ m.keys, k.2 ≠ key

/-- No cipher construction fails. -/
def CryptoProvider.MakesCiphers (P : CryptoProvider) : Prop :=
  ∀ call key, P.makeAesCtrCipher call key = .ok true ∧ P.makeAesGcmCipher call key = .ok true

/-! ## Transmit keys can be made again -/

/-- The tests of `install_key` on a key. -/
structure Makeable (P : CryptoProvider) (k : TrafficKey) : Prop where
  size : validAesKeySize k.key.length = true
  suite : cryptoSuiteForMode k.mode ≠ none
  supported : ¬ (k.mode = .aesGcm ∧ P.supportsAesGcm = false)

def SlotsMakeable (P : CryptoProvider) (s : CryptoSession) : Prop :=
  ∀ i, ∀ k ∈ s.transmit.get i, Makeable P k

section Makeable

variable {P : CryptoProvider} {s t : CryptoSession} {α : Type}

theorem makeKey_makeable (key salt : Bytes) (mode : CryptoMode) :
    Ensures (makeKey P key salt mode) s
      (fun k t => k = { salt, key, mode } ∧ Makeable P k ∧ t.transmit = s.transmit)
      (fun _ t => t.transmit = s.transmit) := by
  refine (makeKey_cases key salt mode).mono ?_ ?_
  · rintro _ _ ⟨⟨hsize, hsuite, hsupported, -⟩, rfl, rfl⟩
    refine ⟨rfl, ⟨hsize, hsuite, fun hgcm => ?_⟩, rfl⟩
    rw [hsupported hgcm.1] at hgcm
    cases hgcm.2
  rintro _ _ ⟨-, n, rfl⟩
  rfl

/-- A makeable key is made where no cipher fails. -/
theorem Makeable.makeKey {k : TrafficKey} (h : Makeable P k) (hmakes : P.MakesCiphers) :
    Ensures (makeKey P k.key k.salt k.mode) s (fun _ _ => True) (fun _ _ => False) := by
  refine (makeKey_cases k.key k.salt k.mode).mono (fun _ _ _ => trivial) ?_
  rintro _ _ ⟨hno, -⟩
  refine hno ⟨h.size, h.suite, fun hgcm => ?_, ?_⟩
  · exact (Bool.not_eq_false _).mp fun hfalse => h.supported ⟨hgcm, hfalse⟩
  split
  · exact (hmakes _ _).1
  · exact (hmakes _ _).2

theorem SlotsMakeable.same (h : SlotsMakeable P s) (htransmit : t.transmit = s.transmit) :
    SlotsMakeable P t := by
  intro i k hk
  rw [htransmit] at hk
  exact h i k hk

theorem SlotsMakeable.none (htransmit : t.transmit = ⟨none, none⟩) : SlotsMakeable P t := by
  intro i k hk
  rw [htransmit] at hk
  cases i <;> cases hk

/-- A program that leaves the transmit half alone. -/
theorem preserves_of_quiet {x : CryptoM α}
    (hx : ∀ s, Ensures x s (fun _ t => Quiet s t) (fun _ t => Quiet s t)) :
    Preserves (SlotsMakeable P) x := by
  intro s hs
  refine (hx s).mono ?_ ?_
  · exact fun _ t ht => hs.same (congrArg Sender.transmit ht.sender)
  · exact fun _ t ht => hs.same (congrArg Sender.transmit ht.sender)

theorem preserves_installTransmitKey (i : KeySelector) (key salt : Bytes) (mode : CryptoMode) :
    Preserves (SlotsMakeable P) (installTransmitKey P i key salt mode) := by
  intro s hs
  unfold installTransmitKey
  rw [ensures_bind]
  refine (makeKey_makeable key salt mode).mono ?_ (fun _ t ht => hs.same ht)
  rintro k t ⟨-, hmakeable, ht⟩
  intro j x hx
  change x ∈ (t.transmit.set i (some k)).get j at hx
  by_cases hj : j = i
  · rw [hj, BySelector.get_set_self] at hx
    cases hx
    exact hmakeable
  rw [BySelector.get_set_of_ne _ _ hj, ht] at hx
  exact hs j x hx

theorem spared_slotsMakeable : Spared P (SlotsMakeable P) where
  same hs htransmit _ := hs.same htransmit
  empty _ htransmit _ := .none htransmit
  install := preserves_installTransmitKey

theorem preserves_rejectKeyMaterial (e : Error) (state : CryptoState) :
    Preserves (SlotsMakeable P) (rejectKeyMaterial e state : CryptoM α) :=
  preserves_of_quiet fun _ => (rejectKeyMaterial_spec e state).mono (fun _ _ h => h.elim)
    (fun _ _ h => h)

theorem preserves_acceptKeyMaterial (request : Bytes) (clone : Bool) :
    Preserves (SlotsMakeable P) (acceptKeyMaterial P request clone) := by
  refine .bind .get fun s => ?_
  split
  · exact preserves_rejectKeyMaterial _ _
  refine .ite (.bind (.modify (by exact fun _ h => h)) fun _ => .throw)
    (.ite (.modify (by exact fun _ h => h)) ?_)
  refine .bind (preserves_of_quiet fun _ => openKeyMaterial_spec request) fun m =>
    .bind .get fun t => .ite (preserves_rejectKeyMaterial _ _) ?_
  refine .bind (.tryCatch (preserves_of_quiet fun _ => installReceiveKeys_spec _ _ _ _) fun _ =>
    preserves_rejectKeyMaterial _ _) fun _ => .bind (.modify (by exact fun _ h => h)) fun _ =>
      .bind ?_ fun _ => .modify (by exact fun _ h => h)
  exact .bind .get fun _ => .ite (spared_slotsMakeable.prepareBidirectionalSender _) .pure

theorem preserves_acknowledgeKeyMaterial (response : Bytes) (clone : Bool) :
    Preserves (SlotsMakeable P) (acknowledgeKeyMaterial P response clone) := by
  have hdemote : ∀ (s : CryptoSession) state, SlotsMakeable P s →
      SlotsMakeable P (s.demote state) := by
    intro s state hs
    unfold demote
    split <;> exact hs
  refine .bind .get fun _ => .ite (.bind (.modify fun s hs => hdemote s _ hs) fun _ => .throw)
    (.ite .pure (.ite (.bind (.modify fun s hs => hdemote s _ hs) fun _ => .throw) (.ite .pure ?_)))
  refine .bind (.modify (by exact fun _ h => h)) fun _ => .bind .get fun _ => .ite ?_ .pure
  exact .bind (.modify (by exact fun _ h => h)) fun _ => .bind .get fun _ =>
    .bind (preserves_of_quiet fun _ => cloneTransmitKeysToReceive_spec) fun _ =>
      .bind (.modify (by exact fun _ h => h)) fun _ =>
        spared_slotsMakeable.prepareBidirectionalSender _

theorem SlotsMakeable.after (hs : SlotsMakeable P s) (c : CryptoCall) :
    SlotsMakeable P (s.after P c) := by
  refine after_of_ensures ?_
  cases c with
  | startInitiator => exact spared_slotsMakeable.startInitiator s hs
  | acceptKeyMaterial request clone => exact preserves_acceptKeyMaterial request clone s hs
  | acknowledgeKeyMaterial response clone =>
    exact preserves_acknowledgeKeyMaterial response clone s hs
  | continueWithoutPeerKey reported =>
    exact spared_slotsMakeable.continueWithoutPeerKey reported s hs
  | prepareRotation => exact spared_slotsMakeable.prepareRotation s hs
  | setPreannouncementFloor positions => exact hs
  | prepareDataPacket position => exact spared_slotsMakeable.prepareDataPacket position s hs
  | noteDataPacketSent => exact spared_slotsMakeable.noteDataPacketSent s hs
  | encrypt sequence plaintext =>
    exact (preserves_of_quiet fun _ => encrypt_quiet sequence plaintext).discard s hs
  | sealPacket header plaintext =>
    exact (preserves_of_quiet fun _ => sealPacket_quiet header plaintext).discard s hs
  | decrypt key sequence ciphertext =>
    exact (preserves_of_quiet fun _ => decrypt_quiet key sequence ciphertext).discard s hs
  | openPacket header ciphertext tag =>
    exact (preserves_of_quiet fun _ => openPacket_quiet header ciphertext tag).discard s hs
  | noteAcceptedReceiveSequence sequence =>
    exact hs.same (congrArg Sender.transmit
      (quiet_noteAuthenticatedReceiveSequence s sequence).sender)

end Makeable

/-! ## Where keys come from -/

section Sources

variable {P : CryptoProvider} {s t : CryptoSession} {c : CryptoCall}

/-- A key behind a call was there before it, or was drawn by it. -/
theorem after_transmit (hs : SenderWellFormed s) (c : CryptoCall) {i : KeySelector}
    {k : TrafficKey} (hk : k ∈ (s.after P c).transmit.get i) :
    k ∈ s.transmit.get i ∨ Drew P s (s.after P c) k.key := by
  have hsteps := after_steps (P := P) hs c
  generalize s.after P c = t at hsteps hk
  induction hsteps generalizing i k with
  | refl => exact .inl hk
  | @tail u t hsteps hstep ih =>
    have hlater : Later s u := by
      clear ih hk hstep
      induction hsteps with
      | refl => exact Later.refl s
      | tail _ hstep ih => exact ih.trans hstep.later
    have hold {j : KeySelector} {x : TrafficKey} (hx : x ∈ u.transmit.get j) :
        x ∈ s.transmit.get j ∨ Drew P s t x.key :=
      (ih hx).imp_right fun h => h.mono le_rfl hstep.later.calls
    rcases hstep.transmit_cases with htransmit | htransmit | ⟨j, x, hdrew, htransmit, -⟩
    · rw [htransmit] at hk
      exact hold hk
    · rw [htransmit] at hk
      cases i <;> cases hk
    rw [htransmit] at hk
    by_cases hj : i = j
    · rw [hj, BySelector.get_set_self] at hk
      cases hk
      exact .inr (hdrew.mono hlater.calls le_rfl)
    rw [BySelector.get_set_of_ne _ _ hj] at hk
    exact hold hk

/-- Behind `prepare_bidirectional_sender` every transmit key is new. -/
theorem prepareBidirectionalSender_drew (size : Nat) : Ensures (prepareBidirectionalSender P size) s
      (fun _ t => Later s t ∧ ∀ i, ∀ k ∈ t.transmit.get i, Drew P s t k.key)
      (fun _ t => Later s t ∧ ∀ i, ∀ k ∈ t.transmit.get i, Drew P s t k.key) := by
  unfold prepareBidirectionalSender
  rw [ensures_modify_bind, ensures_bind]
  generalize hu : CryptoSession.mk .. = u
  have hcalls : u.providerCalls = s.providerCalls := by subst hu; rfl
  have hlater : Later s u := by subst hu; exact ⟨le_rfl, rfl, rfl⟩
  have hempty : u.transmit = ⟨none, none⟩ := by subst hu; rfl
  refine (generateInitialSenderKey_spec size).mono ?_ ?_
  · rintro _ t ⟨k, hdrew, -, hlead⟩
    have hnew : ∀ v : CryptoSession, Later t v → v.transmit = t.transmit → Later s v
        ∧ ∀ i, ∀ x ∈ v.transmit.get i, Drew P s v x.key := by
      intro v hv hsame
      refine ⟨hlater.trans (hlead.later.trans hv), ?_⟩
      intro i x hx
      have htransmit : t.transmit = u.transmit.set .even (some k) :=
        congrArg Sender.transmit hlead.sender
      rw [hsame, htransmit, hempty] at hx
      cases i with
      | even =>
        cases hx
        exact hdrew.mono (Nat.le_of_eq hcalls.symm) hv.calls
      | odd => cases hx
    refine (buildSenderKeyMaterial_spec .even).mono ?_ ?_
    · rintro _ v ⟨_, _, _, -, -, hv⟩
      exact hnew v hv.later (congrArg Sender.transmit hv.sender)
    rintro _ v (hv | hv)
    · exact hnew v hv.later (congrArg Sender.transmit hv.sender)
    · exact hnew v hv.later (congrArg Sender.transmit hv.sender)
  intro _ t ht
  refine ⟨hlater.trans ht.later, ?_⟩
  intro i x hx
  rw [show t.transmit = u.transmit from congrArg Sender.transmit ht.sender, hempty] at hx
  cases i <;> cases hx

section

variable (hmakes : P.MakesCiphers) (hs : SlotsMakeable P s)
include hmakes hs

/-- Copying a transmit slot does not fail where no cipher fails. -/
theorem cloneToReceive_succeeds (i : KeySelector) :
    Ensures (cloneToReceive P i) s (fun _ t => SlotsMakeable P t) (fun _ _ => False) := by
  unfold cloneToReceive
  rw [ensures_get_bind]
  split
  · exact hs
  next source hsource =>
  rw [ensures_bind]
  refine (((hs i source hsource).makeKey hmakes).and (makeKey_makeable _ _ _)).mono ?_
    (fun _ _ h => h.1)
  rintro k t ⟨-, -, -, ht⟩
  exact hs.same ht

theorem cloneTransmitKeysToReceive_succeeds :
    Ensures (cloneTransmitKeysToReceive P) s (fun _ _ => True) (fun _ _ => False) := by
  unfold cloneTransmitKeysToReceive
  rw [ensures_modify_bind, ensures_bind]
  refine (cloneToReceive_succeeds hmakes (by exact hs) .even).mono ?_ (fun _ _ h => h)
  intro _ t ht
  rw [ensures_bind]
  exact (cloneToReceive_succeeds hmakes ht .odd).mono (fun _ _ _ => trivial) (fun _ _ h => h)

/-- A response that copies the transmit keys leaves only new ones to transmit
with. -/
theorem acknowledgeKeyMaterial_drew (response : Bytes) (clone : Bool) :
    Ensures (acknowledgeKeyMaterial P response clone) s
      (fun _ t => t.receiver = s.receiver ∨ ∀ i, ∀ k ∈ t.transmit.get i, Drew P s t k.key)
      (fun _ t => t.receiver = s.receiver ∨ ∀ i, ∀ k ∈ t.transmit.get i, Drew P s t k.key) := by
  have hdemote (state : CryptoState) : (s.demote state).receiver = s.receiver := by
    unfold demote
    split <;> rfl
  unfold acknowledgeKeyMaterial
  rw [ensures_get_bind]
  split
  · exact .inl (hdemote _)
  split
  · exact .inl rfl
  split
  · exact .inl (hdemote _)
  split
  · exact .inl rfl
  unfold confirmPending
  rw [ensures_modify_bind, ensures_get_bind]
  split
  · unfold reverseDirections
    rw [ensures_modify_bind, ensures_get_bind, ensures_bind]
    refine ((cloneTransmitKeysToReceive_succeeds hmakes (by exact hs)).and
      cloneTransmitKeysToReceive_spec).mono ?_ (fun _ _ h => h.1.elim)
    rintro _ t ⟨-, ht⟩
    rw [ensures_modify_bind]
    have hcalls : s.providerCalls ≤ t.providerCalls := ht.later.calls
    refine (prepareBidirectionalSender_drew _).mono ?_ ?_
    · rintro _ u ⟨-, hu⟩
      exact .inr fun i k hk => (hu i k hk).mono hcalls le_rfl
    rintro _ u ⟨-, hu⟩
    exact .inr fun i k hk => (hu i k hk).mono hcalls le_rfl
  · exact .inl rfl

end

/-- A request that was opened and found unacceptable installs nothing. -/
theorem acceptKeyMaterial_unacceptable {request : Bytes} {m : OpenedKeyMaterial} {u : CryptoSession}
    (hopen : openKeyMaterial P request s = .ok m u) (hbad : u.acceptable m = false) (clone : Bool) :
    Ensures (acceptKeyMaterial P request clone) s (fun _ t => t.receiver = s.receiver)
      (fun _ t => t.receiver = s.receiver) := by
  have hu : u.receiver = s.receiver := by
    have hspec := openKeyMaterial_receiver (P := P) (s := s) request
    unfold Ensures at hspec
    rw [hopen] at hspec
    exact hspec.1
  unfold acceptKeyMaterial
  rw [ensures_get_bind]
  split
  · exact (rejectKeyMaterial_receiver _ _).mono (fun _ _ h => h.elim) (fun _ _ h => h)
  split
  · rfl
  split
  · rfl
  rw [ensures_bind]
  unfold Ensures
  rw [hopen]
  show Ensures _ u _ _
  rw [ensures_get_bind, if_pos hbad]
  exact (rejectKeyMaterial_receiver _ _).mono (fun _ _ h => h.elim) (fun _ _ h => h.trans hu)

/-- An acceptable request announces no key of the transmit slots. -/
theorem acceptable_unreflected {m : OpenedKeyMaterial} (h : s.acceptable m = true)
    {k : KeySelector × Bytes} (hk : k ∈ m.keys) {i : KeySelector} (hx : x ∈ s.transmit.get i) :
    k.2 ≠ x.key := by
  unfold acceptable at h
  simp only [Bool.and_eq_true, Bool.not_eq_true'] at h
  have hnot := List.any_eq_false.1 h.1.1.1.1 k hk
  intro heq
  apply hnot
  have hslot : (s.transmit.get i).any (·.key == k.2) = true := by
    rw [hx]
    simp [heq]
  unfold reflectsTransmitKey
  cases i with
  | even =>
    rw [show s.transmit.even.any _ = true from hslot]
    rfl
  | odd =>
    rw [show s.transmit.odd.any _ = true from hslot]
    simp

theorem known_installAll {keys : List (KeySelector × TrafficKey)} {v : Receiver}
    (hx : x ∈ (v.installAll keys).known j) : x ∈ v.known j ∨ (j, x) ∈ keys := by
  induction keys generalizing v with
  | nil => exact .inl hx
  | cons k keys ih =>
    rcases ih (v := v.install k.1 k.2) hx with hold | hnew
    · rcases Receiver.known_install hold with ⟨rfl, rfl⟩ | hold
      · exact .inr List.mem_cons_self
      · exact .inl hold
    · exact .inr (List.mem_cons_of_mem _ hnew)

end Sources

/-! ## Runs -/

section Runs

variable {P : CryptoProvider} {s : CryptoSession}

/-- Calls other than a response copy no transmit key. -/
theorem after_known_cases (c : CryptoCall) (hx : x ∈ (s.after P c).receiver.known j) :
    (∃ y ∈ s.receiver.known j, y.key = x.key)
      ∨ (∃ request clone m u first, c = .acceptKeyMaterial request clone
        ∧ openKeyMaterial P request s = .ok m u ∧ first <+: m.slots ∧ (j, x) ∈ first)
      ∨ ∃ response clone, c = .acknowledgeKeyMaterial response clone := by
  have hkeep (h : (s.after P c).receiver = s.receiver) : ∃ y ∈ s.receiver.known j, y.key = x.key :=
    ⟨x, h ▸ hx, rfl⟩
  have hkeeps (h : Keeps receiver (perform P c)) : ∃ y ∈ s.receiver.known j, y.key = x.key :=
    hkeep (after_of_ensures (Q := fun t => t.receiver = s.receiver) (h s))
  have hmarked {i : KeySelector} {place : ReceivePlace}
      (h : (s.after P c).receiver.known j = (s.receiver.mark i place).known j) :
      ∃ y ∈ s.receiver.known j, y.key = x.key := by
    rw [h] at hx
    have hidentity := List.mem_map_of_mem (f := TrafficKey.identity) hx
    rw [Receiver.known_mark place j] at hidentity
    obtain ⟨y, hy, heq⟩ := List.mem_map.1 hidentity
    exact ⟨y, hy, TrafficKey.key_of_identity heq⟩
  cases c with
  | startInitiator => exact .inl (hkeeps (keeps_receiver Spared.startInitiator))
  | continueWithoutPeerKey reported =>
    exact .inl (hkeeps (keeps_receiver (Spared.continueWithoutPeerKey · _)))
  | prepareRotation => exact .inl (hkeeps (keeps_receiver Spared.prepareRotation))
  | setPreannouncementFloor positions => exact .inl (hkeeps (.modify (by intro; rfl)))
  | prepareDataPacket position =>
    exact .inl (hkeeps (keeps_receiver (Spared.prepareDataPacket · _)))
  | noteDataPacketSent => exact .inl (hkeeps (keeps_receiver Spared.noteDataPacketSent))
  | encrypt sequence plaintext =>
    exact .inl (hkeeps (.discard (keeps_encrypt ignoresKeys_receiver _ _)))
  | sealPacket header plaintext =>
    exact .inl (hkeeps (.discard (keeps_sealPacket ignoresKeys_receiver _ _)))
  | acknowledgeKeyMaterial response clone => exact .inr (.inr ⟨response, clone, rfl⟩)
  | noteAcceptedReceiveSequence sequence =>
    have hnote : (s.after P (.noteAcceptedReceiveSequence sequence)).receiver
        = s.receiver.note sequence := noteAuthenticatedReceiveSequence_receiver sequence
    rw [hnote, Receiver.known_note] at hx
    exact .inl ⟨x, hx, rfl⟩
  | decrypt key sequence ciphertext =>
    have hend : (s.after P (.decrypt key sequence ciphertext)).receiver = s.receiver
        ∨ ∃ i place, (s.after P (.decrypt key sequence ciphertext)).receiver
          = s.receiver.mark i place := by
      refine after_of_ensures (Q := fun t => t.receiver = s.receiver
        ∨ ∃ i place, t.receiver = s.receiver.mark i place) (ensures_discard.2
          ((decrypt_receiver key sequence ciphertext).mono ?_ (fun _ _ h => .inl h)))
      rintro _ t (⟨-, h⟩ | ⟨i, place, -, -, h⟩)
      · exact .inl h
      · exact .inr ⟨i, place, h⟩
    rcases hend with h | ⟨i, place, h⟩
    · exact .inl (hkeep h)
    · exact .inl (hmarked (congrArg (Receiver.known · j) h))
  | openPacket header ciphertext tag =>
    have hend : (s.after P (.openPacket header ciphertext tag)).receiver = s.receiver
        ∨ ∃ i place, (s.after P (.openPacket header ciphertext tag)).receiver
          = (s.receiver.mark i place).note header.sequence := by
      refine after_of_ensures (Q := fun t => t.receiver = s.receiver
        ∨ ∃ i place, t.receiver = (s.receiver.mark i place).note header.sequence) (ensures_discard.2
            ((openPacket_receiver header ciphertext tag).mono ?_ (fun _ _ h => .inl h)))
      rintro _ t ⟨i, place, -, -, h⟩
      exact .inr ⟨i, place, h⟩
    rcases hend with h | ⟨i, place, h⟩
    · exact .inl (hkeep h)
    · exact .inl (hmarked ((congrArg (Receiver.known · j) h).trans (Receiver.known_note _ j)))
  | acceptKeyMaterial request clone =>
    have hinstalled : (s.after P (.acceptKeyMaterial request clone)).receiver = s.receiver
        ∨ ∃ m u first, openKeyMaterial P request s = .ok m u ∧ first <+: m.slots
          ∧ (s.after P (.acceptKeyMaterial request clone)).receiver.known j
            = (s.receiver.installAll first).known j := by
      refine after_of_ensures (Q := fun t => t.receiver = s.receiver ∨ ∃ m u first,
        openKeyMaterial P request s = .ok m u ∧ first <+: m.slots
          ∧ t.receiver.known j = (s.receiver.installAll first).known j)
        ((acceptKeyMaterial_receiver request clone).mono ?_ ?_)
      · rintro _ t (⟨-, h⟩ | ⟨-, m, u, hopened, -, h⟩)
        · exact .inl h
        · exact .inr ⟨m, u, m.slots, hopened, List.prefix_rfl, by rw [h]; rfl⟩
      rintro _ t (h | ⟨-, m, u, first, hopened, -, hfirst, h⟩)
      · exact .inl h
      · exact .inr ⟨m, u, first, hopened, hfirst, by rw [h]⟩
    rcases hinstalled with h | ⟨m, u, first, hopened, hfirst, h⟩
    · exact .inl (hkeep h)
    rw [h] at hx
    rcases known_installAll hx with hold | hnew
    · exact .inl ⟨x, hold, rfl⟩
    · exact .inr (.inl ⟨request, clone, m, u, first, rfl, hopened, hfirst, hnew⟩)

/-- What is known behind a call: an old key, a key that its request announces
and no transmit slot holds, or the copy of a transmit key, with nothing but
new keys left to transmit with. -/
theorem after_known (hmakes : P.MakesCiphers) (hs : SlotsMakeable P s) (c : CryptoCall)
    (hx : x ∈ (s.after P c).receiver.known j) :
    (∃ y ∈ s.receiver.known j, y.key = x.key)
      ∨ (∃ request clone m u, c = .acceptKeyMaterial request clone
        ∧ openKeyMaterial P request s = .ok m u ∧ (∃ k ∈ m.keys, k.2 = x.key)
        ∧ ∀ i, ∀ k ∈ s.transmit.get i, x.key ≠ k.key)
      ∨ (∃ i, ∃ k ∈ s.transmit.get i, k.key = x.key)
        ∧ ∀ i, ∀ k ∈ (s.after P c).transmit.get i, Drew P s (s.after P c) k.key := by
  rcases after_known_cases c hx with hold | ⟨request, clone, m, u, first, rfl, hopened, hfirst,
    hnew⟩ | ⟨response, clone, rfl⟩
  · exact .inl hold
  · cases hacceptable : u.acceptable m with
    | false =>
      have hkept : (s.after P (.acceptKeyMaterial request clone)).receiver = s.receiver :=
        after_of_ensures (Q := fun t => t.receiver = s.receiver)
          (acceptKeyMaterial_unacceptable hopened hacceptable clone)
      exact .inl ⟨x, hkept ▸ hx, rfl⟩
    | true =>
      obtain ⟨k, hk, heq⟩ := List.mem_map.1 (hfirst.subset hnew)
      have hkey : k.2 = x.key := by
        cases heq
        rfl
      have htransmit : u.transmit = s.transmit := by
        have hspec := openKeyMaterial_spec (P := P) (s := s) request
        unfold Ensures at hspec
        rw [hopened] at hspec
        exact congrArg Sender.transmit hspec.sender
      refine .inr (.inl ⟨request, clone, m, u, rfl, hopened, ⟨k, hk, hkey⟩, ?_⟩)
      intro i y hy
      rw [← hkey]
      exact acceptable_unreflected hacceptable hk (htransmit ▸ hy)
  generalize ht : s.after P (.acknowledgeKeyMaterial response clone) = t at hx ⊢
  have hdrew : t.receiver = s.receiver ∨ ∀ i, ∀ k ∈ t.transmit.get i, Drew P s t k.key := by
    rw [← ht]
    exact after_of_ensures (Q := fun t => t.receiver = s.receiver
        ∨ ∀ i, ∀ k ∈ t.transmit.get i, Drew P s t k.key)
      (acknowledgeKeyMaterial_drew hmakes hs response clone)
  have hcloned : t.receiver = s.receiver
      ∨ s.receive = ⟨none, none⟩ ∧ Cloned s.transmit t.receiver := by
    rw [← ht]
    exact after_of_ensures (Q := fun t => t.receiver = s.receiver
        ∨ s.receive = ⟨none, none⟩ ∧ Cloned s.transmit t.receiver)
      (acknowledgeKeyMaterial_receiver response clone)
  rcases hdrew with hkept | hdrew
  · exact .inl ⟨x, hkept ▸ hx, rfl⟩
  rcases hcloned with hkept | ⟨-, hcloned⟩
  · exact .inl ⟨x, hkept ▸ hx, rfl⟩
  rw [hcloned.known, Option.mem_toList] at hx
  obtain ⟨source, hsource, -, rfl⟩ := hcloned.source j x hx
  exact .inr (.inr ⟨⟨j, source, hsource, rfl⟩, hdrew⟩)

/-- What the runs keep. -/
structure Apart (P : CryptoProvider) (s : CryptoSession) : Prop where
  wellFormed : SenderWellFormed s
  makeable : SlotsMakeable P s
  drawn : SlotsKnown P s
  separate : Separate s

theorem Apart.after (hfresh : FreshKeys P) (hmakes : P.MakesCiphers) (hs : Apart P s)
    {c : CryptoCall} (hc : DrawsFresh P s c) : Apart P (s.after P c) := by
  refine ⟨SenderSteps.wellFormed (after_steps hs.wellFormed c) hs.wellFormed,
    hs.makeable.after c, hs.drawn.after hs.wellFormed c, ?_⟩
  intro i k hk j x hx
  have hsource := after_transmit hs.wellFormed c hk
  rcases after_known hmakes hs.makeable c hx with ⟨y, hy, hkey⟩ |
    ⟨request, clone, m, u, rfl, hopened, ⟨key, hmem, hkey⟩, hunreflected⟩ |
    ⟨⟨i', k', hk', hkey⟩, hnew⟩
  · rw [← hkey]
    rcases hsource with hold | hdrew
    · exact hs.separate i k hold j y hy
    · exact (hc k.key hdrew).1 j y hy
  · rcases hsource with hold | hdrew
    · exact hunreflected i k hold
    rw [← hkey]
    exact (hc k.key hdrew).2 request clone m u rfl hopened key hmem
  rw [← hkey]
  exact (hnew i k hk).ne hfresh (hs.drawn i' k' hk').drawn

theorem apart_of_reaches (hfresh : FreshKeys P) (hmakes : P.MakesCiphers)
    (h : Lts.Reaches (runs P) (DrawsFresh P) s) : Apart P s := by
  refine h.invariant ?_ ?_
  · rintro _ ⟨c, rfl⟩
    have htransmit := (ofConfiguration_keys P c).1
    refine ⟨senderWellFormed_ofConfiguration P c, .none htransmit, ?_, ?_⟩
    · intro i k hk
      rw [htransmit] at hk
      cases i <;> cases hk
    intro i k hk
    rw [htransmit] at hk
    cases i <;> cases hk
  rintro s c _ _ hs hc rfl
  exact hs.after hfresh hmakes hc

/-- A key that was drawn and is in no transmit slot never comes back. -/
theorem drawn_key_stays_out (hfresh : FreshKeys P) (hs : SenderWellFormed s) {key : Bytes}
    (hdrawn : DrawnBefore P s.providerCalls key) (hout : ∀ i, ∀ k ∈ s.transmit.get i, k.key ≠ key)
    {guard : CryptoSession → CryptoCall → Prop} {t : CryptoSession}
    (ht : Lts.Reaches (runsFrom P s) guard t) : ∀ i, ∀ k ∈ t.transmit.get i, k.key ≠ key := by
  suffices hall : SenderWellFormed t ∧ DrawnBefore P t.providerCalls key
      ∧ ∀ i, ∀ k ∈ t.transmit.get i, k.key ≠ key from hall.2.2
  refine ht.invariant (I := fun t => SenderWellFormed t ∧ DrawnBefore P t.providerCalls key
    ∧ ∀ i, ∀ k ∈ t.transmit.get i, k.key ≠ key) ?_ ?_
  · rintro _ rfl
    exact ⟨hs, hdrawn, hout⟩
  rintro u c _ _ ⟨hw, hd, ho⟩ - rfl
  refine ⟨SenderSteps.wellFormed (after_steps hw c) hw, hd.mono (after_later hw c).calls, ?_⟩
  intro i k hk
  rcases after_transmit hw c hk with hold | hdrew
  · exact ho i k hold
  · exact (hdrew.ne hfresh hd).symm

/-- No key is in a transmit slot and on the receive side, and a transmit key
that a call leaves on the receive side is never in a transmit slot again. -/
theorem directions_never_share_a_key (P : CryptoProvider) (hfresh : FreshKeys P)
    (hmakes : P.MakesCiphers) (s : CryptoSession) (hs : Lts.Reaches (runs P) (DrawsFresh P) s) :
    (∀ i, ∀ k ∈ s.transmit.get i, ∀ j, ∀ x ∈ s.receiver.known j, x.key ≠ k.key)
      ∧ ∀ c, DrawsFresh P s c → ∀ i, ∀ k ∈ s.transmit.get i,
        ∀ j, ∀ x ∈ (s.after P c).receiver.known j, x.key = k.key →
        ∀ t, Lts.Reaches (runsFrom P (s.after P c)) (DrawsFresh P) t →
          ∀ i, ∀ k ∈ t.transmit.get i, k.key ≠ x.key := by
  have hapart := apart_of_reaches hfresh hmakes hs
  refine ⟨hapart.separate, ?_⟩
  intro c hc i k hk j x hx hkey t ht
  have hnext := hapart.after hfresh hmakes hc
  refine drawn_key_stays_out hfresh hnext.wellFormed ?_ ?_ ht
  · rw [hkey]
    exact (hapart.drawn i k hk).drawn.mono (after_later hapart.wellFormed c).calls
  intro i' k' hk'
  exact (hnext.separate i' k' hk' j x hx).symm

/-- A session with its handshake key. -/
def startedSession : CryptoSession :=
  (ofConfiguration (exampleProvider []) exampleConfiguration).after (exampleProvider [])
    .startInitiator

/-- The response that copies it. -/
def exampleResponse : CryptoCall := .acknowledgeKeyMaterial exampleRequest true

/-- The handshake key of the example. -/
def handshakeKey : TrafficKey :=
  { salt := List.replicate 16 0, key := exampleKey 1, mode := .aesCtr }

/-- Nothing is known yet, so whatever is drawn is new. -/
theorem drawsFresh_of_unknown {c : CryptoCall} (hknown : ∀ j, s.receiver.known j = [])
    (hc : ∀ request clone, c ≠ .acceptKeyMaterial request clone) : DrawsFresh P s c := by
  intro key _
  refine ⟨?_, fun request clone _ _ h => absurd h (hc request clone)⟩
  intro j x hx
  rw [hknown j] at hx
  cases hx

theorem directions_never_share_a_key_startedSession :
    startedSession.transmit.even = some handshakeKey
      ∧ (startedSession.after (exampleProvider []) exampleResponse).receive.even = some handshakeKey
      ∧ (∀ i, ∀ k ∈ startedSession.transmit.get i, ∀ j, ∀ x ∈ startedSession.receiver.known j,
        x.key ≠ k.key)
      ∧ ∀ t, Lts.Reaches
          (runsFrom (exampleProvider []) (startedSession.after (exampleProvider [])
            exampleResponse)) (DrawsFresh (exampleProvider [])) t →
        ∀ i, ∀ k ∈ t.transmit.get i, k.key ≠ handshakeKey.key := by
  have hknown : ∀ j, startedSession.receiver.known j = [] := by
    intro j
    cases j <;> decide +kernel
  have hstart : Lts.Reaches (runs (exampleProvider [])) (DrawsFresh (exampleProvider []))
      startedSession := by
    refine .next (.start ⟨exampleConfiguration, rfl⟩) (drawsFresh_of_unknown ?_ ?_) rfl
    · intro j
      cases j <;> decide +kernel
    · exact fun _ _ => nofun
  have htransmit : startedSession.transmit.even = some handshakeKey := by decide +kernel
  have hreceive : (startedSession.after (exampleProvider []) exampleResponse).receive.even
      = some handshakeKey := by decide +kernel
  have hmem : handshakeKey
      ∈ (startedSession.after (exampleProvider []) exampleResponse).receiver.known .even := by
    refine List.mem_append_left _ ?_
    show handshakeKey ∈ (startedSession.after (exampleProvider [])
      exampleResponse).receive.even.toList
    rw [hreceive]
    exact List.mem_singleton_self _
  have hresponse : ∀ request clone, exampleResponse ≠ .acceptKeyMaterial request clone := by
    intro request clone
    unfold exampleResponse
    exact nofun
  obtain ⟨hseparate, hnever⟩ := directions_never_share_a_key (exampleProvider [])
    (exampleProvider_freshKeys []) (fun _ _ => ⟨rfl, rfl⟩) startedSession hstart
  exact ⟨htransmit, hreceive, hseparate, hnever exampleResponse
    (drawsFresh_of_unknown hknown hresponse) .even handshakeKey htransmit .even handshakeKey
    hmem rfl⟩

end Runs

end Srt
