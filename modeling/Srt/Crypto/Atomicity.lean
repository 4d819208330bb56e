/-
# `Crypto.Atomicity` — what a refused request leaves behind

`accept_key_material` decodes, unwraps and judges a request before it touches
a key, so a request refused up to there changes nothing but the state of a
receiver that was never secured.  Behind that point it installs the announced
keys one after the other and may prepare a sender of its own, and a failure of
the provider in the middle keeps what was done before it: the first key of two,
or both keys and the mode.
-/
import Srt.Crypto.Replay
import Srt.Crypto.Downgrade

namespace Srt

open Fallible CryptoSession

/-- The members a request changes only by being accepted. -/
structure Established where
  receive : BySelector (Option TrafficKey)
  history : BySelector ReceiveKeyHistory
  transmit : BySelector (Option TrafficKey)
  effectiveMode : CryptoMode
  remembered : List Bytes
  deriving DecidableEq, Repr

namespace CryptoSession

def established (s : CryptoSession) : Established where
  receive := s.receive
  history := s.receiveHistory
  transmit := s.transmit
  effectiveMode := s.effectiveMode
  remembered := s.receivedKeyMaterialHistory

/-- The provider was called, and nothing else happened. -/
def Waited (s t : CryptoSession) : Prop :=
  ∃ n, t = { s with providerCalls := s.providerCalls + n }

/-- A receiver that is not secured may change its state. -/
structure Refused (s t : CryptoSession) : Prop where
  established : t.established = s.established
  receiverState : s.receiverState = .secured → t.receiverState = .secured

end CryptoSession

namespace CryptoProvider

variable (P : CryptoProvider) (mode : CryptoMode)

/-- The call with this number makes the cipher of a key. -/
def Makes (key : Bytes) (call : Nat) : Prop :=
  validAesKeySize key.length = true ∧ cryptoSuiteForMode mode ≠ none
    ∧ (mode = .aesGcm → P.supportsAesGcm = true)
    ∧ (if mode = .aesCtr then P.makeAesCtrCipher call key else P.makeAesGcmCipher call key)
      = .ok true

instance instDecidableMakes (key : Bytes) (call : Nat) : Decidable (P.Makes mode key call) :=
  inferInstanceAs (Decidable (_ ∧ _ ∧ _ ∧ _))

/-- Consecutive calls make the ciphers of all keys. -/
def MakesAll : Nat → List Bytes → Prop
  | _, [] => True
  | call, key :: keys => P.Makes mode key call ∧ MakesAll (call + 1) keys

instance instDecidableMakesAll : ∀ call keys, Decidable (P.MakesAll mode call keys)
  | _, [] => instDecidableTrue
  | call, _ :: keys =>
    haveI := instDecidableMakesAll (call + 1) keys
    inferInstanceAs (Decidable (_ ∧ _))

/-- The first transmit key, drawn from the call with this number on. -/
def senderKey (size call : Nat) : Option TrafficKey :=
  match P.randomBytes call srtSaltSize, P.randomBytes (call + 1) size with
  | .ok salt, .ok key =>
    if P.Makes mode key.val (call + 2) then some { salt := salt.val, key := key.val, mode }
    else none
  | _, _ => none

end CryptoProvider

namespace CryptoSession

variable (P : CryptoProvider) (s : CryptoSession)

/-- The keys whose ciphers are still to be made. -/
def missing (salt : Bytes) (mode : CryptoMode) (keys : List (KeySelector × Bytes)) : List Bytes :=
  (keys.filter fun k => !s.isCurrentReceiveKey k.1 k.2 salt mode).map Prod.snd

/-- The size of the key in a slot, once the keys of a request are in theirs. -/
def sizeBehind (m : OpenedKeyMaterial) (i : KeySelector) : Option Nat :=
  ((m.keys.find? (·.1 == i)).map (·.2.length)).or ((s.receive.get i).map (·.key.length))

/-- The size of a transmit key that is prepared behind a request. -/
def keyLengthBehind (m : OpenedKeyMaterial) : Nat :=
  ((s.sizeBehind m .even).or (s.sizeBehind m .odd)).getD s.configuredKeyLength

/-- The key that wraps `k`, and the number of the next call. -/
def wrappingKey (k : TrafficKey) (call : Nat) : Option (Bytes × Nat) :=
  let salt := k.salt.drop (srtSaltSize - pbkdf2SaltSize)
  match s.transmitKek.filter (fun kek => kek.key.length == k.key.length && kek.salt == salt) with
  | some kek => some (kek.key, call)
  | none =>
    match P.pbkdf2HmacSha1 call s.passphrase salt srtPbkdf2Iterations k.key.length with
    | .ok kek => some (kek.val, call + 1)
    | .error _ => none

/-- Whether a KMREQ for `k` can be built. -/
def announceable (k : TrafficKey) (call : Nat) : Bool :=
  (s.wrappingKey P k call).any fun kek =>
    match cryptoSuiteForMode k.mode, P.wrapKey kek.2 kek.1 k.key with
    | some suite, .ok wrapped =>
      (encodeKeyMaterial
        { keys := .even
          cipher := suite.cipher
          authentication := suite.authentication
          salt := k.salt
          keyLength := k.key.length
          wrappedKeys := wrapped } maximumKeyMaterialSize).isOk
    | _, _ => false

/-- The first cipher fails or none does. -/
def InstallsWhole (m : OpenedKeyMaterial) (call : Nat) : Prop :=
  match s.missing m.salt m.mode m.keys with
  | [] => True
  | key :: keys => P.Makes m.mode key call → P.MakesAll m.mode (call + 1) keys

/-- The transmit side can be prepared and announced; or no key can be drawn
for it, and the request says nothing new. -/
def PreparesWhole (m : OpenedKeyMaterial) (call : Nat) : Prop :=
  let missing := s.missing m.salt m.mode m.keys
  match P.senderKey m.mode (s.keyLengthBehind m) (call + missing.length) with
  | some k => s.announceable P k (call + missing.length + 3) = true
  | none => missing = [] ∧ s.effectiveMode = m.mode

instance instDecidableInstallsWhole (m : OpenedKeyMaterial) (call : Nat) :
    Decidable (s.InstallsWhole P m call) := by
  unfold InstallsWhole
  split <;> infer_instance

instance instDecidablePreparesWhole (m : OpenedKeyMaterial) (call : Nat) :
    Decidable (s.PreparesWhole P m call) := by
  unfold PreparesWhole
  dsimp only
  split <;> infer_instance

/-- What is written behind the last check of a request stays only if the
request is accepted. -/
def AcceptsWhole (m : OpenedKeyMaterial) (call : Nat) (clone : Bool) : Prop :=
  s.InstallsWhole P m call
    ∧ (clone = true → s.transmit = ⟨none, none⟩ →
      P.MakesAll m.mode call (s.missing m.salt m.mode m.keys) → s.PreparesWhole P m call)

instance instDecidableAcceptsWhole (m : OpenedKeyMaterial) (call : Nat) (clone : Bool) :
    Decidable (s.AcceptsWhole P m call clone) :=
  inferInstanceAs (Decidable (_ ∧ _))

/-- A request that is not refused before the first key is installed is not
refused in the middle. -/
def RefusesWhole (request : Bytes) (clone : Bool) : Prop :=
  s.configurationError = none → s.enabled = true → request ∉ s.receivedKeyMaterialHistory →
    match openKeyMaterial P request s with
    | .error _ _ => True
    | .ok m t => s.acceptable m = true → s.AcceptsWhole P m t.providerCalls clone

instance instDecidableRefusesWhole (request : Bytes) (clone : Bool) :
    Decidable (s.RefusesWhole P request clone) := by
  unfold RefusesWhole
  cases openKeyMaterial P request s <;> infer_instance

end CryptoSession

section Steps

variable {P : CryptoProvider} {s t u : CryptoSession}

theorem CryptoSession.Waited.refl (s : CryptoSession) : Waited s s := ⟨0, rfl⟩

theorem CryptoSession.Waited.trans (h : Waited s t) (h' : Waited t u) : Waited s u := by
  obtain ⟨n, rfl⟩ := h
  obtain ⟨m, rfl⟩ := h'
  exact ⟨n + m, by simp [Nat.add_assoc]⟩

theorem waited_called (s : CryptoSession) : Waited s s.called := ⟨1, rfl⟩

theorem CryptoSession.Waited.refused_iff (h : Waited s t) : Refused s u ↔ Refused t u := by
  obtain ⟨n, rfl⟩ := h
  exact ⟨fun h => ⟨h.established, h.receiverState⟩, fun h => ⟨h.established, h.receiverState⟩⟩

theorem rejectKeyMaterial_refused {α : Type} (e : Error) (state : CryptoState) :
    Ensures (rejectKeyMaterial e state : CryptoM α) s (fun _ _ => False)
      (fun _ t => Refused s t) := by
  unfold rejectKeyMaterial
  rw [ensures_modify_bind, ensures_throw]
  split
  · exact ⟨rfl, fun hsecured => hsecured⟩
  · next hopen => exact ⟨rfl, fun hsecured => absurd (.inl hsecured) hopen⟩

/-- A key derived for one request is not remembered. -/
theorem deriveKeyEncryptionKey_waited (use : KeyEncryptionKeyUse) (salt : Bytes) (size : Nat) :
    Ensures (deriveKeyEncryptionKey P use salt size false) s (fun _ t => Waited s t)
      (fun _ t => Waited s t) := by
  unfold deriveKeyEncryptionKey
  rw [ensures_get_bind]
  split
  · exact Waited.refl s
  rw [ensures_bind]
  exact ensures_provided (fun _ _ => waited_called s) (fun _ _ => waited_called s)

/-- The selectors a request announces are different ones. -/
theorem announcedSelectors_nodup (keys : EncryptionKey) (plaintext : Bytes) (size : Nat) :
    ((announcedSelectors keys plaintext size).map Prod.fst).Nodup := by
  cases keys <;> simp [announcedSelectors]

theorem openKeyMaterial_refused (request : Bytes) :
    Ensures (openKeyMaterial P request) s
      (fun m t => Waited s t ∧ (m.keys.map Prod.fst).Nodup) (fun _ t => Refused s t) := by
  have hreject (t : CryptoSession) (ht : Waited s t) (e : Error) (state : CryptoState) :
      Ensures (rejectKeyMaterial e state : CryptoM OpenedKeyMaterial) t
        (fun m u => Waited s u ∧ (m.keys.map Prod.fst).Nodup) (fun _ u => Refused s u) :=
    (rejectKeyMaterial_refused e state).mono (fun _ _ h => h.elim) (fun _ _ h => ht.refused_iff.2 h)
  unfold openKeyMaterial
  rw [ensures_get_bind]
  split
  · exact hreject s (.refl s) _ _
  split
  · exact hreject s (.refl s) _ _
  dsimp only
  rw [ensures_tryCatch, ensures_bind]
  refine (deriveKeyEncryptionKey_waited _ _ _).mono ?_ (fun _ t ht => hreject t ht _ _)
  intro kek t ht
  have hcalled := ht.trans (waited_called t)
  rw [ensures_bind]
  refine ensures_provided (fun plaintext _ => ?_) (fun _ _ => hreject _ hcalled _ _)
  split
  · exact ⟨hcalled, announcedSelectors_nodup _ _ _⟩
  · exact hreject _ hcalled .cryptographicFailure .badSecret

/-! ## Installing the keys -/

theorem makeKey_cases (key salt : Bytes) (mode : CryptoMode) :
    Ensures (makeKey P key salt mode) s
      (fun k t => P.Makes mode key s.providerCalls ∧ k = { salt, key, mode } ∧ t = s.called)
      (fun _ t => ¬ P.Makes mode key s.providerCalls ∧ Waited s t) := by
  unfold makeKey
  split
  · next hbad =>
    refine ⟨?_, .refl s⟩
    rintro ⟨hsize, hsuite, -, -⟩
    rcases hbad with hbad | hbad
    · rw [hbad] at hsize
      cases hsize
    · exact hsuite hbad
  next hgood =>
  split
  · next hbad =>
    refine ⟨?_, .refl s⟩
    rintro ⟨-, -, hsupport, -⟩
    rw [hsupport hbad.1] at hbad
    cases hbad.2
  next hsupport =>
  rw [ensures_bind]
  refine ensures_provided (fun made hcipher => ?_) (fun e hcipher => ?_)
  · split
    · next hmade =>
      subst hmade
      refine ⟨⟨by simpa using (not_or.1 hgood).1, (not_or.1 hgood).2, ?_, ?_⟩, rfl, rfl⟩
      · intro hgcm
        simpa [hgcm] using hsupport
      split at hcipher <;> next hmode => simpa [hmode] using hcipher
    · next hmade =>
      refine ⟨?_, waited_called s⟩
      rintro ⟨-, -, -, hok⟩
      split at hcipher <;> next hmode =>
        simp only [hmode, if_true, if_false, hcipher] at hok
        exact hmade (Except.ok.inj hok)
  refine ⟨?_, waited_called s⟩
  rintro ⟨-, -, -, hok⟩
  split at hcipher <;> next hmode =>
    simp only [hmode, if_true, if_false, hcipher] at hok
    cases hok

/-- The receive slots and their histories change, and provider calls pass. -/
def CryptoSession.Reseated (s t : CryptoSession) : Prop :=
  ∃ receive history calls,
    t = { s with receive, receiveHistory := history, providerCalls := calls }

theorem CryptoSession.Reseated.refl (s : CryptoSession) : Reseated s s := ⟨_, _, _, rfl⟩

theorem CryptoSession.Reseated.trans (h : Reseated s t) (h' : Reseated t u) : Reseated s u := by
  obtain ⟨_, _, _, rfl⟩ := h
  obtain ⟨_, _, _, rfl⟩ := h'
  exact ⟨_, _, _, rfl⟩

/-- One key: behind it the key is the current one of its selector, and the
other selector keeps its own. -/
structure Installed (P : CryptoProvider) (s t : CryptoSession) (i : KeySelector)
    (key salt : Bytes) (mode : CryptoMode) : Prop where
  frame : Reseated s t
  current : t.isCurrentReceiveKey i key salt mode = true
  other : ∀ j, j ≠ i → t.receive.get j = s.receive.get j
  cases : s.isCurrentReceiveKey i key salt mode = true ∧ t = s
    ∨ s.isCurrentReceiveKey i key salt mode = false ∧ P.Makes mode key s.providerCalls
      ∧ t.providerCalls = s.providerCalls + 1

theorem installReceiveKey_cases (i : KeySelector) (key salt : Bytes) (mode : CryptoMode) :
    Ensures (installReceiveKey P i key salt mode) s
      (fun _ t => Installed P s t i key salt mode)
      (fun _ t => s.isCurrentReceiveKey i key salt mode = false
        ∧ ¬ P.Makes mode key s.providerCalls ∧ Waited s t) := by
  unfold installReceiveKey
  rw [ensures_get_bind]
  split
  · next hcurrent => exact ⟨.refl s, hcurrent, fun _ _ => rfl, .inl ⟨hcurrent, rfl⟩⟩
  next hcurrent =>
  rw [Bool.not_eq_true] at hcurrent
  rw [ensures_bind]
  refine (makeKey_cases key salt mode).mono ?_ (fun _ _ h => ⟨hcurrent, h⟩)
  rintro _ _ ⟨hmakes, rfl, rfl⟩
  refine ⟨⟨_, _, _, rfl⟩, ?_, fun j hj => ?_, .inr ⟨hcurrent, hmakes, rfl⟩⟩
  · show (((s.called.replaceReceiveKey i { salt, key, mode }).receive.get i).any _) = true
    simp [replaceReceiveKey, TrafficKey.is]
  exact BySelector.get_set_of_ne _ _ hj

/-- Whether a key is current is a matter of its slot. -/
theorem isCurrentReceiveKey_congr {i : KeySelector} (h : t.receive.get i = s.receive.get i)
    (key salt : Bytes) (mode : CryptoMode) :
    t.isCurrentReceiveKey i key salt mode = s.isCurrentReceiveKey i key salt mode := by
  unfold isCurrentReceiveKey
  rw [h]

theorem missing_congr {salt : Bytes} {mode : CryptoMode} {keys : List (KeySelector × Bytes)}
    (h : ∀ k ∈ keys, t.receive.get k.1 = s.receive.get k.1) :
    t.missing salt mode keys = s.missing salt mode keys := by
  unfold missing
  refine congrArg (List.map Prod.snd) (List.filter_congr fun k hk => ?_)
  rw [isCurrentReceiveKey_congr (h k hk)]

/-- All keys: every one is current, and the slots that none names stay. -/
structure InstalledAll (P : CryptoProvider) (s t : CryptoSession) (salt : Bytes)
    (mode : CryptoMode) (keys : List (KeySelector × Bytes)) : Prop where
  frame : Reseated s t
  made : P.MakesAll mode s.providerCalls (s.missing salt mode keys)
  calls : t.providerCalls = s.providerCalls + (s.missing salt mode keys).length
  current : ∀ k ∈ keys, t.isCurrentReceiveKey k.1 k.2 salt mode = true
  other : ∀ i, i ∉ keys.map Prod.fst → t.receive.get i = s.receive.get i
  same : s.missing salt mode keys = [] → t = s

/-- A key that was not current is current now. -/
theorem receive_ne_of_current {i : KeySelector} {key salt : Bytes} {mode : CryptoMode}
    (hold : s.isCurrentReceiveKey i key salt mode = false)
    (hnew : t.isCurrentReceiveKey i key salt mode = true) : t.receive ≠ s.receive := by
  intro heq
  rw [isCurrentReceiveKey_congr (congrArg (BySelector.get · i) heq), hold] at hnew
  cases hnew

/-- A failure keeps what was installed in front of it. -/
theorem installReceiveKeys_cases {salt : Bytes} {mode : CryptoMode}
    (keys : List (KeySelector × Bytes)) (s : CryptoSession) (hnodup : (keys.map Prod.fst).Nodup) :
    Ensures (installReceiveKeys P salt mode keys) s
      (fun _ t => InstalledAll P s t salt mode keys)
      (fun _ t => (∀ i, i ∉ keys.map Prod.fst → t.receive.get i = s.receive.get i)
        ∧ ∃ key rest, s.missing salt mode keys = key :: rest
          ∧ (¬ P.Makes mode key s.providerCalls ∧ Waited s t
            ∨ P.Makes mode key s.providerCalls
              ∧ ¬ P.MakesAll mode (s.providerCalls + 1) rest ∧ t.receive ≠ s.receive)) := by
  induction keys generalizing s with
  | nil => exact ⟨.refl s, trivial, rfl, by simp, fun _ _ => rfl, fun _ => rfl⟩
  | cons head keys ih =>
    obtain ⟨i, key⟩ := head
    rw [List.map_cons, List.nodup_cons] at hnodup
    obtain ⟨hnew, hnodup⟩ := hnodup
    unfold installReceiveKeys
    rw [ensures_bind]
    refine (installReceiveKey_cases i key salt mode).mono ?_ ?_
    · intro _ t ht
      have hrest : t.missing salt mode keys = s.missing salt mode keys := by
        refine missing_congr fun k hk => ht.other k.1 ?_
        rintro rfl
        exact hnew (List.mem_map.2 ⟨k, hk, rfl⟩)
      have hkept (u : CryptoSession) (hu : ∀ j, j ∉ keys.map Prod.fst →
          u.receive.get j = t.receive.get j) : ∀ j, j ∉ ((i, key) :: keys).map Prod.fst →
            u.receive.get j = s.receive.get j := by
        intro j hj
        rw [List.map_cons, List.mem_cons, not_or] at hj
        rw [hu j hj.2, ht.other j hj.1]
      refine (ih t hnodup).mono ?_ ?_
      · intro _ u hu
        have hcurrent : ∀ k ∈ (i, key) :: keys, u.isCurrentReceiveKey k.1 k.2 salt mode = true := by
          intro k hk
          rcases List.mem_cons.1 hk with rfl | hk
          · rw [isCurrentReceiveKey_congr (hu.other _ hnew)]
            exact ht.current
          · exact hu.current k hk
        have hmade := hu.made
        have hcalls := hu.calls
        rw [hrest] at hmade hcalls
        rcases ht.cases with ⟨hold, rfl⟩ | ⟨hold, hmakes, hcount⟩
        · have hsame : t.missing salt mode ((i, key) :: keys) = t.missing salt mode keys := by
            simp [missing, hold]
          exact ⟨hu.frame, hsame ▸ hu.made, hsame ▸ hu.calls, hcurrent, hkept u hu.other,
            fun hnone => hu.same (hsame ▸ hnone)⟩
        have hcons : s.missing salt mode ((i, key) :: keys) = key :: s.missing salt mode keys := by
          simp [missing, hold]
        rw [hcount] at hmade hcalls
        refine ⟨ht.frame.trans hu.frame, hcons ▸ ⟨hmakes, hmade⟩, ?_, hcurrent,
          hkept u hu.other, ?_⟩
        · rw [hcons, hcalls, List.length_cons]
          omega
        · rw [hcons]
          exact fun hnone => absurd hnone (List.cons_ne_nil _ _)
      rintro _ u ⟨hother, key', rest, hmissing, hend⟩
      rw [hrest] at hmissing
      refine ⟨hkept u hother, ?_⟩
      rcases ht.cases with ⟨hold, rfl⟩ | ⟨hold, hmakes, hcount⟩
      · refine ⟨key', rest, ?_, hend⟩
        rw [← hmissing]
        simp [missing, hold]
      refine ⟨key, key' :: rest, by simp [missing, hold, ← hmissing], .inr ⟨hmakes, ?_, ?_⟩⟩
      · rintro ⟨hhead, htail⟩
        rw [← hcount] at hhead htail
        rcases hend with ⟨hno, -⟩ | ⟨-, hno, -⟩
        · exact hno hhead
        · exact hno htail
      refine receive_ne_of_current hold ?_
      rw [isCurrentReceiveKey_congr (hother _ hnew)]
      exact ht.current
    rintro _ t ⟨hold, hno, hwaited⟩
    refine ⟨fun j _ => ?_, key, s.missing salt mode keys, by simp [missing, hold],
      .inl ⟨hno, hwaited⟩⟩
    obtain ⟨n, rfl⟩ := hwaited
    rfl

/-! ## A session without a passphrase -/

/-- It never becomes secured. -/
def NeverSecured (s : CryptoSession) : Prop :=
  s.enabled = false → s.receiverState ≠ .secured ∧ s.receiverState ≠ .securing

theorem neverSecured_call (hs : SenderWellFormed s) (hdisabled : s.enabled = false)
    (h : s.receiverState ≠ .secured ∧ s.receiverState ≠ .securing) (c : CryptoCall) :
    (s.after P c).receiverState ≠ .secured ∧ (s.after P c).receiverState ≠ .securing := by
  refine after_of_ensures
    (Q := fun t => t.receiverState ≠ .secured ∧ t.receiverState ≠ .securing) ?_
  have hkeeps {x : CryptoM Unit} (hx : Keeps ratchet x) : Ensures x s
      (fun _ t => t.receiverState ≠ .secured ∧ t.receiverState ≠ .securing)
      (fun _ t => t.receiverState ≠ .secured ∧ t.receiverState ≠ .securing) := by
    refine (hx s).mono ?_ ?_ <;> intro _ t ht <;>
      rwa [show t.receiverState = s.receiverState from congrArg Ratchet.receiver ht]
  cases c with
  | startInitiator =>
    unfold perform startInitiator
    rw [ensures_get_bind]
    split
    · rw [ensures_modify_bind, ensures_throw]
      split <;> exact h
    rw [if_pos hdisabled]
    exact ⟨nofun, nofun⟩
  | acceptKeyMaterial request clone =>
    unfold perform acceptKeyMaterial
    rw [ensures_get_bind]
    split
    · unfold rejectKeyMaterial
      rw [ensures_modify_bind, ensures_throw]
      split
      · exact h
      · split <;> exact ⟨nofun, nofun⟩
    rw [if_pos hdisabled]
    exact ⟨nofun, nofun⟩
  | acknowledgeKeyMaterial response clone =>
    have hpending : s.pendingKeyMaterial.isEmpty = true := by
      by_contra hne
      have henabled := (hs.pending (by simpa using hne)).1
      rw [hdisabled] at henabled
      cases henabled
    have hdemote : ∀ state, (s.demote state).receiverState = s.receiverState := by
      intro state
      unfold demote
      split <;> rfl
    unfold perform acknowledgeKeyMaterial
    rw [ensures_get_bind]
    split
    · rw [ensures_modify_bind, ensures_throw, hdemote]
      exact h
    split
    · exact h
    rw [if_pos (.inl hpending), ensures_modify_bind, ensures_throw, hdemote]
    exact h
  | setPreannouncementFloor positions => exact h
  | continueWithoutPeerKey _ | prepareRotation | prepareDataPacket _ | noteDataPacketSent =>
    simp only [perform, continueWithoutPeerKey, prepareRotation, prepareDataPacket,
      noteDataPacketSent]
    rw [ensures_get_bind, if_pos hdisabled]
    exact h
  | encrypt sequence plaintext => exact hkeeps (.discard (keeps_encrypt ignoresKeys_ratchet _ _))
  | sealPacket header plaintext =>
    exact hkeeps (.discard (keeps_sealPacket ignoresKeys_ratchet _ _))
  | decrypt key sequence ciphertext => exact hkeeps (.discard (keeps_decrypt _ _ _))
  | openPacket header ciphertext tag => exact hkeeps (.discard (keeps_openPacket _ _ _))
  | noteAcceptedReceiveSequence sequence =>
    exact hkeeps (.modify fun _ => ratchet_noteAuthenticatedReceiveSequence sequence)

theorem neverSecured_of_reachable (h : Lts.Reachable (runs P) s) : NeverSecured s := by
  suffices hboth : SenderWellFormed s ∧ NeverSecured s from hboth.2
  refine h.invariant (I := fun s => SenderWellFormed s ∧ NeverSecured s) ?_ ?_
  · rintro _ ⟨c, rfl⟩
    refine ⟨senderWellFormed_ofConfiguration P c, fun _ => ?_⟩
    unfold ofConfiguration
    dsimp only
    split <;> exact ⟨nofun, nofun⟩
  rintro s c _ _ ⟨hw, hs⟩ - rfl
  refine ⟨SenderSteps.wellFormed (after_steps hw c) hw, fun hdisabled => ?_⟩
  have henabled : s.enabled = false := (after_later (P := P) hw c).enabled ▸ hdisabled
  exact neverSecured_call hw henabled (hs henabled) c

end Steps

/-! ## Preparing the transmit side -/

section Sender

variable {P : CryptoProvider} {s t : CryptoSession}

/-- What a request changes only by being accepted, the transmit slots apart,
and the state of the receiver. -/
def CryptoSession.reception (s : CryptoSession) : Established × CryptoState :=
  ({ s.established with transmit := ⟨none, none⟩ }, s.receiverState)

theorem ignoresKeys_reception : IgnoresKeys reception := fun _ _ _ _ _ _ _ _ _ => rfl

theorem deriveKeyEncryptionKey_wrappingKey (k : TrafficKey) :
    Ensures (deriveKeyEncryptionKey P .transmit (k.salt.drop (srtSaltSize - pbkdf2SaltSize))
        k.key.length true) s
      (fun kek t => s.wrappingKey P k s.providerCalls = some (kek, t.providerCalls)
        ∧ t.transmit = s.transmit)
      (fun _ t => s.wrappingKey P k s.providerCalls = none ∧ t.transmit = s.transmit) := by
  unfold deriveKeyEncryptionKey wrappingKey
  rw [ensures_get_bind]
  dsimp only [keyEncryptionKey]
  cases hcached : s.transmitKek.filter (fun kek => kek.key.length == k.key.length
      && kek.salt == k.salt.drop (srtSaltSize - pbkdf2SaltSize)) with
  | some kek => exact ⟨rfl, rfl⟩
  | none =>
    dsimp only
    rw [ensures_bind]
    refine ensures_provided (fun kek hkek => ?_) (fun e hkek => ?_)
    · rw [hkek]
      exact ⟨rfl, rfl⟩
    · rw [hkek]
      exact ⟨rfl, rfl⟩

/-- The KMREQ is built exactly when the provider lets it. -/
theorem buildSenderKeyMaterial_cases {k : TrafficKey} (hk : s.transmit.even = some k)
    (hsuite : cryptoSuiteForMode k.mode ≠ none) :
    Ensures (buildSenderKeyMaterial P .even) s
      (fun _ _ => s.announceable P k s.providerCalls = true)
      (fun _ t => s.announceable P k s.providerCalls = false ∧ t.transmit = s.transmit) := by
  obtain ⟨suite, hsuite⟩ := Option.ne_none_iff_exists'.1 hsuite
  have hannounced : s.announcedKeys .even = some (k, k.key) := by
    show (s.transmit.even).map _ = _
    rw [hk]
    rfl
  unfold buildSenderKeyMaterial announceable
  rw [ensures_get_bind, hannounced]
  dsimp only
  rw [hsuite]
  dsimp only
  rw [ensures_bind]
  refine (deriveKeyEncryptionKey_wrappingKey k).mono ?_ ?_
  · rintro kek t ⟨hkek, htransmit⟩
    rw [hkek, Option.any_some, ensures_bind]
    refine ensures_provided (fun wrapped hwrapped => ?_) (fun e hwrapped => ?_)
    · dsimp only
      rw [hwrapped]
      dsimp only
      split
      · next hencode =>
        rw [hencode]
        exact ⟨rfl, htransmit⟩
      · next hencode =>
        rw [hencode]
        rfl
    · dsimp only
      rw [hwrapped]
      exact ⟨rfl, htransmit⟩
  rintro e t ⟨hkek, htransmit⟩
  rw [hkek]
  exact ⟨rfl, htransmit⟩

/-- A failure is one of the key, and then the slots are empty, or one of its
announcement, and then the key stays. -/
theorem prepareBidirectionalSender_cases (size : Nat) :
    Ensures (prepareBidirectionalSender P size) s
      (fun _ _ => ∃ k, P.senderKey s.effectiveMode size s.providerCalls = some k
        ∧ s.announceable P k (s.providerCalls + 3) = true)
      (fun _ t => t.reception = s.reception
        ∧ (P.senderKey s.effectiveMode size s.providerCalls = none ∧ t.transmit = ⟨none, none⟩
          ∨ ∃ k, P.senderKey s.effectiveMode size s.providerCalls = some k
            ∧ s.announceable P k (s.providerCalls + 3) = false ∧ t.transmit.even = some k)) := by
  have hkeeps : Keeps reception (prepareBidirectionalSender P size) :=
    .bind (.modify fun _ => rfl) fun _ =>
      .bind (keeps_generateInitialSenderKey ignoresKeys_reception _) fun _ =>
        keeps_buildSenderKeyMaterial ignoresKeys_reception _
  refine ((hkeeps s).and (?_ : Ensures _ s (fun _ _ => ∃ k,
    P.senderKey s.effectiveMode size s.providerCalls = some k
      ∧ s.announceable P k (s.providerCalls + 3) = true) (fun _ t =>
      P.senderKey s.effectiveMode size s.providerCalls = none ∧ t.transmit = ⟨none, none⟩
        ∨ ∃ k, P.senderKey s.effectiveMode size s.providerCalls = some k
          ∧ s.announceable P k (s.providerCalls + 3) = false ∧ t.transmit.even = some k))).mono
    (fun _ _ h => h.2) (fun _ _ h => h)
  unfold prepareBidirectionalSender generateInitialSenderKey CryptoProvider.senderKey
  rw [ensures_modify_bind, ensures_bind, ensures_bind]
  refine ensures_provided (fun salt hsalt => ?_) (fun e hsalt => .inl ⟨?_, rfl⟩)
  · dsimp only at hsalt
    rw [hsalt, ensures_bind]
    refine ensures_provided (fun key hkey => ?_) (fun e hkey => .inl ⟨?_, rfl⟩)
    · dsimp only [called] at hkey
      rw [hkey, ensures_get_bind]
      unfold installTransmitKey
      rw [ensures_bind]
      refine (makeKey_cases key.val salt.val _).mono ?_ ?_
      · rintro _ _ ⟨hmakes, rfl, rfl⟩
        dsimp only [called] at hmakes ⊢
        rw [if_pos hmakes, ensures_modify]
        refine (buildSenderKeyMaterial_cases (k := { salt, key, mode := s.effectiveMode }) rfl
          hmakes.2.1).mono ?_ ?_
        · intro _ _ hannounced
          exact ⟨_, rfl, hannounced⟩
        · rintro _ u ⟨hannounced, htransmit⟩
          exact .inr ⟨_, rfl, hannounced, by rw [htransmit]; rfl⟩
      · rintro _ _ ⟨hno, n, rfl⟩
        dsimp only [called] at hno ⊢
        rw [if_neg hno]
        exact .inl ⟨rfl, rfl⟩
    · dsimp only [called] at hkey
      rw [hkey]
  · dsimp only at hsalt
    rw [hsalt]

/-- The size behind the installs. -/
theorem InstalledAll.keyLength {m : OpenedKeyMaterial} (h : InstalledAll P s t m.salt m.mode m.keys)
    (htransmit : s.transmit = ⟨none, none⟩) (henabled : s.enabled = true) :
    t.keyLength = s.keyLengthBehind m := by
  have hsize : ∀ i, (t.receive.get i).map (·.key.length) = s.sizeBehind m i := by
    intro i
    unfold sizeBehind
    cases hfind : m.keys.find? (·.1 == i) with
    | none =>
      rw [h.other i]
      · rfl
      rw [List.mem_map]
      rintro ⟨k, hk, rfl⟩
      exact List.find?_eq_none.1 hfind k hk (beq_self_eq_true _)
    | some k =>
      have hcurrent := h.current k (List.mem_of_find?_eq_some hfind)
      obtain rfl : k.1 = i := by simpa using List.find?_some hfind
      unfold isCurrentReceiveKey at hcurrent
      cases hslot : t.receive.get k.1 with
      | none =>
        rw [hslot] at hcurrent
        cases hcurrent
      | some current =>
        rw [hslot, Option.any_some] at hcurrent
        have hkey : current.key = k.2 := by
          simp only [TrafficKey.is, Bool.and_eq_true, beq_iff_eq] at hcurrent
          exact hcurrent.1.2
        exact congrArg (fun key : Bytes => some key.length) hkey
  have hsame : t.transmit = ⟨none, none⟩ ∧ t.enabled = true
      ∧ t.configuredKeyLength = s.configuredKeyLength := by
    obtain ⟨_, _, _, rfl⟩ := h.frame
    exact ⟨htransmit, henabled, rfl⟩
  unfold CryptoSession.keyLength keyLengthBehind
  rw [← hsize .even, ← hsize .odd, ← hsame.2.2, hsame.1, hsame.2.1]
  dsimp only [BySelector.get]
  cases t.activeSenderKey <;> cases t.receive.even <;> cases t.receive.odd <;> rfl

variable {m : OpenedKeyMaterial} {clone : Bool}

/-- A failed install is whole exactly when it failed at the first cipher. -/
theorem rejectKeyMaterial_whole {ok : Unit → CryptoSession → Prop} {key : Bytes}
    {rest : List Bytes} (e : Error) (state : CryptoState)
    (hmissing : s.missing m.salt m.mode m.keys = key :: rest)
    (h : ¬ P.Makes m.mode key s.providerCalls ∧ Waited s t
      ∨ P.Makes m.mode key s.providerCalls
        ∧ ¬ P.MakesAll m.mode (s.providerCalls + 1) rest ∧ t.receive ≠ s.receive) :
    Ensures (rejectKeyMaterial e state : CryptoM Unit) t ok
      (fun _ u => Refused s u ↔ s.AcceptsWhole P m s.providerCalls clone) := by
  refine (rejectKeyMaterial_refused e state).mono (fun _ _ h => h.elim) ?_
  intro _ u hu
  unfold AcceptsWhole InstallsWhole
  rw [hmissing]
  rcases h with ⟨hno, hwaited⟩ | ⟨hmakes, hno, hne⟩
  · refine iff_of_true (hwaited.refused_iff.2 hu) ⟨?_, ?_⟩
    · intro hmakes
      exact absurd hmakes hno
    · intro _ _ hmade
      exact absurd hmade.1 hno
  refine iff_of_false ?_ ?_
  · intro hrefused
    refine hne (Eq.trans ?_ (congrArg Established.receive hrefused.established))
    exact (congrArg Established.receive hu.established).symm
  · intro hwhole
    exact hno (hwhole.1 hmakes)

theorem InstalledAll.installsWhole (h : InstalledAll P s t m.salt m.mode m.keys) :
    s.InstallsWhole P m s.providerCalls := by
  have hmade := h.made
  unfold InstallsWhole
  split
  · trivial
  · next hmissing =>
    intro _
    rw [hmissing] at hmade
    exact hmade.2

theorem InstalledAll.missing_of_receive (h : InstalledAll P s t m.salt m.mode m.keys)
    (hsame : t.receive = s.receive) : s.missing m.salt m.mode m.keys = [] := by
  unfold missing
  rw [List.map_eq_nil_iff, List.filter_eq_nil_iff]
  intro k hk
  have hcurrent := h.current k hk
  rw [isCurrentReceiveKey_congr (congrArg (BySelector.get · k.1) hsame)] at hcurrent
  simp [hcurrent]

/-- Without a key for the transmit side the session is as before exactly when
no key was installed and the mode is the old one. -/
theorem InstalledAll.refused_iff (h : InstalledAll P s t m.salt m.mode m.keys) {u : CryptoSession}
    (hempty : s.transmit = ⟨none, none⟩) (hnone : u.transmit = ⟨none, none⟩)
    (hreception : u.reception
      = reception { t with effectiveMode := m.mode, receiverState := .secured }) :
    Refused s u ↔ s.missing m.salt m.mode m.keys = [] ∧ s.effectiveMode = m.mode := by
  constructor
  · intro hrefused
    refine ⟨h.missing_of_receive ?_, ?_⟩
    · exact (congrArg (·.1.receive) hreception).symm.trans
        (congrArg Established.receive hrefused.established)
    · exact (congrArg Established.effectiveMode hrefused.established).symm.trans
        (congrArg (·.1.effectiveMode) hreception)
  rintro ⟨hnothing, hmode⟩
  rw [h.same hnothing] at hreception
  refine ⟨?_, fun _ => congrArg Prod.snd hreception⟩
  calc u.established = { u.reception.1 with transmit := u.transmit } := rfl
    _ = { s.established with transmit := ⟨none, none⟩, effectiveMode := m.mode } := by
      rw [hreception, hnone]
      rfl
    _ = s.established := by
      rw [← hempty, ← hmode]
      rfl

/-- A failure of the transmit side is whole exactly when nothing was new. -/
theorem prepareReverseDirection_whole (h : InstalledAll P s t m.salt m.mode m.keys)
    (henabled : s.enabled = true) :
    Ensures (prepareReverseDirection P clone)
      { t with effectiveMode := m.mode, receiverState := .secured }
      (fun _ _ => s.AcceptsWhole P m s.providerCalls clone)
      (fun _ u => Refused s u ↔ s.AcceptsWhole P m s.providerCalls clone) := by
  generalize hv : ({ t with effectiveMode := m.mode, receiverState := .secured }
    : CryptoSession) = v
  have htransmit : v.transmit = s.transmit := by
    obtain ⟨_, _, _, rfl⟩ := h.frame
    subst hv
    rfl
  unfold prepareReverseDirection
  rw [ensures_get_bind]
  split
  · next hclone =>
    obtain ⟨hclone, heven, hodd⟩ := hclone
    rw [Option.isNone_iff_eq_none] at heven hodd
    have hempty : s.transmit = ⟨none, none⟩ := by
      rw [← htransmit]
      exact congrArg₂ BySelector.mk heven hodd
    have hwhole : s.AcceptsWhole P m s.providerCalls clone
        ↔ s.PreparesWhole P m s.providerCalls :=
      ⟨fun hwhole => hwhole.2 hclone hempty h.made,
        fun hprepares => ⟨h.installsWhole, fun _ _ _ => hprepares⟩⟩
    have hmode : v.effectiveMode = m.mode := by subst hv; rfl
    have hcalls : v.providerCalls = s.providerCalls + (s.missing m.salt m.mode m.keys).length := by
      subst hv
      exact h.calls
    have hsize : v.keyLength = s.keyLengthBehind m := by
      subst hv
      exact h.keyLength hempty henabled
    have hannounceable : ∀ k call, v.announceable P k call = s.announceable P k call := by
      obtain ⟨_, _, _, rfl⟩ := h.frame
      subst hv
      exact fun _ _ => rfl
    rw [hwhole, hsize]
    unfold PreparesWhole
    dsimp only
    have hprepared := prepareBidirectionalSender_cases (P := P) (s := v) (s.keyLengthBehind m)
    simp only [hannounceable, hmode, hcalls] at hprepared
    refine hprepared.mono ?_ ?_
    · rintro _ _ ⟨k, hkey, hannounced⟩
      rw [hkey]
      exact hannounced
    rintro _ u ⟨hreception, ⟨hkey, hnone⟩ | ⟨k, hkey, hannounced, hsome⟩⟩ <;> rw [hkey]
    · subst hv
      exact h.refused_iff hempty hnone hreception
    -- the key stays without its announcement
    refine iff_of_false ?_ (by simp [hannounced])
    intro hrefused
    have hold : u.transmit = s.transmit := congrArg Established.transmit hrefused.established
    rw [hold, hempty] at hsome
    cases hsome
  next hclone =>
  refine ⟨h.installsWhole, fun hyes hempty _ => absurd ⟨hyes, ?_, ?_⟩ hclone⟩ <;>
    simp [htransmit, hempty]

end Sender

/-! ## Requests that are refused -/

theorem acceptKeyMaterial_whole {P : CryptoProvider} {s : CryptoSession}
    (hs : Lts.Reachable (runs P) s) (request : Bytes) (clone : Bool) :
    Ensures (acceptKeyMaterial P request clone) s
      (fun _ _ => s.RefusesWhole P request clone)
      (fun _ t => Refused s t ↔ s.RefusesWhole P request clone) := by
  have hreject {ok : Unit → CryptoSession → Prop} (t : CryptoSession) (ht : Waited s t) (e : Error)
      (state : CryptoState) (hwhole : s.RefusesWhole P request clone) :
      Ensures (rejectKeyMaterial e state : CryptoM Unit) t ok
        (fun _ u => Refused s u ↔ s.RefusesWhole P request clone) :=
    (rejectKeyMaterial_refused e state).mono (fun _ _ h => h.elim)
      (fun _ _ h => iff_of_true (ht.refused_iff.2 h) hwhole)
  unfold acceptKeyMaterial
  rw [ensures_get_bind]
  split
  · next e hconfiguration =>
    refine hreject s (.refl s) _ _ fun hnone => ?_
    rw [hconfiguration] at hnone
    cases hnone
  split
  · next hdisabled =>
    refine iff_of_true ⟨rfl, fun hsecured => ?_⟩ fun _ henabled => ?_
    · exact absurd hsecured (neverSecured_of_reachable hs hdisabled).1
    rw [hdisabled] at henabled
    cases henabled
  next hconfiguration henabled =>
  rw [Bool.not_eq_false] at henabled
  split
  · next hremembered => exact fun _ _ hnew => absurd (List.contains_iff_mem.1 hremembered) hnew
  next hnew =>
  rw [List.contains_iff_mem] at hnew
  rw [ensures_bind]
  refine (openKeyMaterial_refused request).run.mono ?_ ?_
  · rintro m t ⟨hopened, hwaited, hnodup⟩
    have hsame : t.acceptable m = s.acceptable m ∧ t.enabled = s.enabled
        ∧ t.AcceptsWhole P m t.providerCalls clone = s.AcceptsWhole P m t.providerCalls clone := by
      obtain ⟨n, rfl⟩ := hwaited
      exact ⟨rfl, rfl, rfl⟩
    rw [ensures_get_bind, hsame.1]
    split
    · next hrefused =>
      refine hreject _ hwaited _ _ fun _ _ _ => ?_
      rw [hopened]
      intro hacceptable
      rw [hrefused] at hacceptable
      cases hacceptable
    next hacceptable =>
    rw [Bool.not_eq_false] at hacceptable
    have hwhole (u : CryptoSession) (hu : Refused t u ↔ t.AcceptsWhole P m t.providerCalls clone) :
        Refused s u ↔ s.RefusesWhole P request clone := by
      rw [hwaited.refused_iff, hu, hsame.2.2]
      unfold RefusesWhole
      rw [hopened]
      exact ⟨fun h _ _ _ _ => h, fun h => h hconfiguration henabled hnew hacceptable⟩
    rw [ensures_bind, ensures_tryCatch]
    refine (installReceiveKeys_cases m.keys t hnodup).mono ?_ ?_
    · intro _ u hu
      rw [ensures_modify_bind, ensures_bind]
      refine (prepareReverseDirection_whole hu (hsame.2.1.trans henabled)).mono ?_
        (fun _ v hv => hwhole v hv)
      intro _ _ haccepts _ _ _
      rw [hopened]
      exact fun _ => hsame.2.2 ▸ haccepts
    rintro e u ⟨-, key, rest, hmissing, hend⟩
    exact (rejectKeyMaterial_whole e _ hmissing hend).mono (fun _ _ h => h)
      (fun _ v hv => hwhole v hv)
  rintro e t ⟨hopened, hrefused⟩
  refine iff_of_true hrefused fun _ _ _ => ?_
  rw [hopened]
  trivial

/-- The ciphers of one key cannot be made. -/
def brokenKeyProvider : CryptoProvider :=
  { exampleProvider [] with
    makeAesCtrCipher := fun _ key =>
      if key = exampleKey 2 then .error .cryptographicFailure else .ok true }

end Srt
