/-
# `Crypto.Receiver` — what the operations do to the receive half

The receive slots with their histories, the receive frontier and the requests
remembered.  The operations of the transmit half leave all of it alone;
`accept_key_material` installs keys one after the other; a response that
begins the exchange in the other direction replaces everything, and can only
do so while no key has been received.
-/
import Srt.Lib.System
import Srt.Crypto.Sender

namespace Srt

open Fallible CryptoSession

/-- A key apart from the mark that it received DATA. -/
def TrafficKey.identity (k : TrafficKey) : TrafficKey := { k with receivedPayload := false }

theorem TrafficKey.is_iff {x k : TrafficKey} :
    x.is k.key k.salt k.mode = true ↔ x.identity = k.identity := by
  cases x
  cases k
  simp only [TrafficKey.is, TrafficKey.identity, Bool.and_eq_true, beq_iff_eq, mk.injEq]
  tauto

theorem TrafficKey.key_of_identity {x k : TrafficKey} (h : x.identity = k.identity) :
    x.key = k.key := by
  show x.identity.key = k.identity.key
  rw [h]

/-- The members that decide about incoming DATA. -/
structure Receiver where
  receive : BySelector (Option TrafficKey)
  history : BySelector ReceiveKeyHistory
  frontier : Option (SequenceNumber × Int)
  remembered : List Bytes
  deriving DecidableEq, Repr

namespace Receiver

variable (v : Receiver)

/-- `replaceReceiveKey` on the receive half. -/
def replace (i : KeySelector) (k : TrafficKey) : Receiver :=
  { v with
    history := v.history.set i (displaceReceiveKey (v.history.get i) (v.receive.get i) k
      (v.frontier.map Prod.snd))
    receive := v.receive.set i (some k) }

/-- `installReceiveKey` on the receive half, when the cipher can be made. -/
def install (i : KeySelector) (k : TrafficKey) : Receiver :=
  if (v.receive.get i).any (·.is k.key k.salt k.mode) then v else v.replace i k

def installAll (keys : List (KeySelector × TrafficKey)) : Receiver :=
  keys.foldl (fun v k => v.install k.1 k.2) v

/-- `remember_key_material` for requests. -/
def remember (request : Bytes) : Receiver :=
  { v with remembered := rememberKeyMaterial v.remembered request }

/-- The keys of a selector, the current one first. -/
def known (i : KeySelector) : List TrafficKey :=
  (v.receive.get i).toList ++ (v.history.get i).generations.map ReceiveKeyGeneration.slot

def isCurrent (i : KeySelector) (key salt : Bytes) (mode : CryptoMode) : Bool :=
  (v.receive.get i).any (·.is key salt mode)

def isRetired (i : KeySelector) (key salt : Bytes) (mode : CryptoMode) : Bool :=
  (v.history.get i).generations.any (·.slot.is key salt mode)

end Receiver

namespace CryptoSession

def receiver (s : CryptoSession) : Receiver where
  receive := s.receive
  history := s.receiveHistory
  frontier := s.frontier
  remembered := s.receivedKeyMaterialHistory

/-- The announced keys as slots. -/
def OpenedKeyMaterial.slots (m : OpenedKeyMaterial) : List (KeySelector × TrafficKey) :=
  m.keys.map fun k => (k.1, { salt := m.salt, key := k.2, mode := m.mode })

end CryptoSession

/-! ## The transmit half leaves it alone -/

/-- A view that sees neither the transmit keys nor what is announced, derived
or counted for them. -/
def CryptoSession.IgnoresKeys {τ : Type} (view : CryptoSession → τ) : Prop :=
  ∀ s transmit retired transmitKek receiveKek pending keyMaterialPending revision calls,
    view { s with
      transmit
      retiredTransmitKeys := retired
      transmitKek
      receiveKek
      pendingKeyMaterial := pending
      keyMaterialPending
      keyMaterialRevision := revision
      providerCalls := calls } = view s

section IgnoresKeys

variable {P : CryptoProvider} {α τ : Type} {view : CryptoSession → τ}

section

variable (hview : IgnoresKeys view)
include hview

theorem keeps_provided (f : Nat → Except Error α) : Keeps view (provided f) := by
  intro s
  have hcalled : view s.called = view s := hview s _ _ _ _ _ _ _ _
  unfold Ensures provided
  cases f s.providerCalls <;> exact hcalled

theorem keeps_makeKey (key salt : Bytes) (mode : CryptoMode) :
    Keeps view (makeKey P key salt mode) :=
  .ite .throw (.ite .throw (.bind (keeps_provided hview _) fun _ => .ite .pure .throw))

theorem keeps_installTransmitKey (i : KeySelector) (key salt : Bytes) (mode : CryptoMode) :
    Keeps view (installTransmitKey P i key salt mode) :=
  .bind (keeps_makeKey hview _ _ _) fun _ => .modify fun s => hview s _ _ _ _ _ _ _ _

theorem keeps_deriveKeyEncryptionKey (use : KeyEncryptionKeyUse) (salt : Bytes) (size : Nat)
    (cacheResult : Bool) : Keeps view (deriveKeyEncryptionKey P use salt size cacheResult) := by
  refine .bind .get fun s => ?_
  split
  · exact .pure
  refine .bind (keeps_provided hview _) fun k => .bind (.modify fun s => ?_) fun _ => .pure
  split
  · cases use <;> exact hview s _ _ _ _ _ _ _ _
  · rfl

theorem keeps_generateInitialSenderKey (size : Nat) :
    Keeps view (generateInitialSenderKey P size) :=
  .bind (keeps_provided hview _) fun _ => .bind (keeps_provided hview _) fun _ =>
    .bind .get fun _ => keeps_installTransmitKey hview _ _ _ _

theorem keeps_buildSenderKeyMaterial (keys : EncryptionKey) :
    Keeps view (buildSenderKeyMaterial P keys) := by
  refine .bind .get fun s => ?_
  split
  · exact .throw
  split
  · exact .throw
  refine .bind (keeps_deriveKeyEncryptionKey hview _ _ _ _) fun kek =>
    .bind (keeps_provided hview _) fun w => ?_
  dsimp only
  split
  · exact .bind (.modify fun s => hview s _ _ _ _ _ _ _ _) fun _ => .throw
  · exact .modify fun s => hview s _ _ _ _ _ _ _ _

theorem keeps_generateNextSenderKey : Keeps view (generateNextSenderKey P) := by
  refine .bind .get fun s => ?_
  split
  · exact .throw
  refine .bind (keeps_provided hview _) fun key => .bind (.modify fun s => ?_) fun _ =>
    keeps_installTransmitKey hview _ _ _ _
  unfold retireTransmitKey
  split
  · exact hview s _ _ _ _ _ _ _ _
  · rfl

theorem keeps_encrypt (sequence : SequenceNumber) (plaintext : Bytes) :
    Keeps view (encrypt P sequence plaintext) := by
  refine .bind .get fun s => .ite .pure (.ite .throw ?_)
  split
  · exact .throw
  · exact .ite .throw (.ite .throw (.bind (keeps_provided hview _) fun _ => .pure))

theorem keeps_sealPacket (header : DataHeader) (plaintext : Bytes) :
    Keeps view (sealPacket P header plaintext) := by
  refine .bind .get fun s => .ite .throw (.ite .throw ?_)
  split
  · exact .throw
  · exact .ite .throw (.bind (keeps_provided hview _) fun _ => .pure)

end

end IgnoresKeys

/-- `I` looks at the transmit and the receive keys only, and the transmit half
may be emptied and filled again. -/
structure Spared (P : CryptoProvider) (I : CryptoSession → Prop) : Prop where
  same : ∀ {s t}, I s → t.transmit = s.transmit → t.receiver = s.receiver → I t
  empty : ∀ {s t}, I s → t.transmit = ⟨none, none⟩ → t.receiver = s.receiver → I t
  install : ∀ i key salt mode, Preserves I (installTransmitKey P i key salt mode)

section Spared

variable {P : CryptoProvider} {I : CryptoSession → Prop} {α : Type} {x : CryptoM α}

theorem ignoresKeys_receiver : IgnoresKeys receiver := fun _ _ _ _ _ _ _ _ _ => rfl

namespace Spared

theorem provided (h : Spared P I) (f : Nat → Except Error α) : Preserves I (provided f) :=
  fun _ hs => ensures_provided (fun _ _ => h.same hs rfl rfl) (fun _ _ => h.same hs rfl rfl)

theorem generateInitialSenderKey (h : Spared P I) (size : Nat) :
    Preserves I (generateInitialSenderKey P size) :=
  .bind (h.provided _) fun _ => .bind (h.provided _) fun _ => .bind .get fun _ =>
    h.install _ _ _ _

theorem buildSenderKeyMaterial (h : Spared P I) (keys : EncryptionKey) :
    Preserves I (buildSenderKeyMaterial P keys) := by
  intro s hs
  refine ((buildSenderKeyMaterial_spec keys).and
    (keeps_buildSenderKeyMaterial ignoresKeys_receiver keys s)).mono ?_ ?_
  · rintro _ t ⟨⟨_, _, _, -, -, ht⟩, hreceiver⟩
    exact h.same hs (congrArg Sender.transmit ht.sender) hreceiver
  rintro _ t ⟨ht | ht, hreceiver⟩
  · exact h.same hs (congrArg Sender.transmit ht.sender) hreceiver
  · exact h.same hs (congrArg Sender.transmit ht.sender) hreceiver

theorem generateNextSenderKey (h : Spared P I) : Preserves I (generateNextSenderKey P) := by
  refine .bind .get fun s => ?_
  split
  · exact .throw
  refine .bind (h.provided _) fun key => .bind (.modify fun s hs => ?_) fun _ =>
    h.install _ _ _ _
  unfold retireTransmitKey
  split
  · exact h.same hs rfl rfl
  · exact hs

theorem prepareBidirectionalSender (h : Spared P I) (size : Nat) :
    Preserves I (prepareBidirectionalSender P size) :=
  .bind (.modify fun _ hs => h.empty hs rfl rfl) fun _ =>
    .bind (h.generateInitialSenderKey _) fun _ => h.buildSenderKeyMaterial _

theorem prepareRotation (h : Spared P I) : Preserves I (prepareRotation P) :=
  .bind .get fun _ => .ite .pure (.ite .pure (.ite .throw (.ite .pure
    (.bind h.generateNextSenderKey fun _ => .bind (h.buildSenderKeyMaterial _) fun _ =>
      .modify fun _ hs => h.same hs rfl rfl))))

theorem startInitiator (h : Spared P I) : Preserves I (startInitiator P) := by
  refine .bind .get fun s => ?_
  split
  · refine .bind (.modify fun s hs => ?_) fun _ => .throw
    split <;> exact h.same hs rfl rfl
  refine .ite (.modify fun _ hs => h.same hs rfl rfl) (.ite .throw ?_)
  refine .bind (.modify fun _ hs => h.same hs rfl rfl) fun _ =>
    .bind (.tryCatch ?_ fun e => ?_) fun _ => .modify fun _ hs => h.same hs rfl rfl
  · exact .bind (h.generateInitialSenderKey _) fun _ =>
      .bind (.modify fun _ hs => h.same hs rfl rfl) fun _ => h.buildSenderKeyMaterial _
  · exact .bind (.modify fun _ hs => h.same hs rfl rfl) fun _ => .throw

theorem continueWithoutPeerKey (h : Spared P I) (reported : CryptoState) :
    Preserves I (continueWithoutPeerKey P reported) := by
  refine .bind .get fun s => .ite .throw ?_
  split
  · exact .throw
  refine .bind (.modify fun s hs => ?_) fun _ => .bind ?_ fun _ =>
    .modify fun _ hs => h.same hs rfl rfl
  · split <;> exact h.same hs rfl rfl
  exact .bind .get fun _ => .ite .pure (.bind (.modify fun _ hs => h.empty hs rfl rfl) fun _ =>
    h.generateInitialSenderKey _)

theorem noteDataPacketSent (h : Spared P I) : Preserves I (noteDataPacketSent P) :=
  .bind .get fun _ => .ite .pure (.bind (.modify fun _ hs => h.same hs rfl rfl) fun _ =>
    .bind .get fun _ => .ite .throw (.bind (.modify fun _ hs => h.same hs rfl rfl) fun _ =>
      .bind .get fun _ => .ite .pure (.ite
        (.bind h.generateNextSenderKey fun _ => .modify fun _ hs => h.same hs rfl rfl)
        (.ite .pure (.modify fun _ hs => h.same hs rfl rfl)))))

theorem prepareDataPacket (h : Spared P I) (position : Nat) :
    Preserves I (prepareDataPacket P position) := by
  refine .bind .get fun s => .ite .pure ?_
  split
  · exact .bind (.modify fun _ hs => h.same hs rfl rfl) fun _ => h.prepareRotation
  exact .ite .throw (.ite .pure (.ite .throw
    (.bind (.modify fun _ hs => h.same hs rfl rfl) fun _ => h.prepareRotation)))

end Spared

theorem spared_receiver (v : Receiver) : Spared P fun s => s.receiver = v where
  same hs _ hreceiver := hreceiver.trans hs
  empty hs _ hreceiver := hreceiver.trans hs
  install i key salt mode s hs :=
    (keeps_installTransmitKey ignoresKeys_receiver i key salt mode s).mono
      (fun _ _ h => h.trans hs) (fun _ _ h => h.trans hs)

theorem keeps_receiver (h : ∀ {I}, Spared P I → Preserves I x) : Keeps receiver x :=
  .of_preserves fun v => h (spared_receiver v)

end Spared

/-! ## Accepting key material -/

section Accept

variable {P : CryptoProvider} {s : CryptoSession}

/-- A request that was opened: what it decodes to and what its wrapped keys
unwrap to. -/
def Opens (P : CryptoProvider) (request : Bytes) (m : OpenedKeyMaterial) : Prop :=
  ∃ material suite call kek plaintext, decodeKeyMaterial request = .ok material
    ∧ cryptoSuiteForKeyMaterial material.cipher material.authentication = some suite
    ∧ P.unwrapKey call kek material.wrappedKeys = .ok plaintext
    ∧ m.keys = announcedSelectors material.keys plaintext material.keyLength
    ∧ m.salt = material.salt ∧ m.mode = suite.mode

/-- A request is received in the mode of its own suite. -/
theorem selectMode_eq_some {material : KeyMaterialView} {mode : CryptoMode}
    (h : s.selectMode P material = some mode) :
    ∃ suite, cryptoSuiteForKeyMaterial material.cipher material.authentication = some suite
      ∧ mode = suite.mode := by
  unfold selectMode at h
  split at h
  · cases h
  next suite hsuite =>
  refine ⟨suite, hsuite, ?_⟩
  split at h
  · cases h
  next selected hselected =>
  have hnamed : suite.mode ≠ .automatic := by
    unfold cryptoSuiteForKeyMaterial at hsuite
    split at hsuite <;> cases hsuite <;> exact nofun
  have hmode : selected = suite.mode := by
    simp only [negotiateCryptoMode, if_neg hnamed] at hselected
    split at hselected
    · split at hselected <;> cases hselected
      rfl
    split at hselected <;> cases hselected
    rfl
  split at h
  · cases h
  cases h
  exact hmode

theorem rejectKeyMaterial_receiver {α : Type} (e : Error) (state : CryptoState) :
    Ensures (rejectKeyMaterial e state : CryptoM α) s (fun _ _ => False)
      (fun _ t => t.receiver = s.receiver) := by
  show receiver (if _ then s else _) = s.receiver
  split <;> rfl

theorem installReceiveKey_receiver (i : KeySelector) (key salt : Bytes) (mode : CryptoMode) :
    Ensures (installReceiveKey P i key salt mode) s
      (fun _ t => t.receiver = s.receiver.install i { salt, key, mode })
      (fun _ t => t.receiver = s.receiver) := by
  unfold installReceiveKey
  rw [ensures_get_bind]
  split
  · next h =>
    show s.receiver = s.receiver.install i _
    rw [Receiver.install, if_pos]
    exact h
  next h =>
  rw [ensures_bind]
  refine (makeKey_spec key salt mode).mono ?_ ?_
  · rintro k t ⟨rfl, -, n, rfl⟩
    show s.receiver.replace i _ = s.receiver.install i _
    rw [Receiver.install, if_neg]
    exact h
  rintro e t ⟨n, rfl⟩
  rfl

/-- The keys are installed in their order, all of them unless an error stops
the rest. -/
theorem installReceiveKeys_receiver (salt : Bytes) (mode : CryptoMode) :
    ∀ (keys : List (KeySelector × Bytes)) (s : CryptoSession),
      Ensures (installReceiveKeys P salt mode keys) s (fun _ t => t.receiver = s.receiver.installAll
          (keys.map fun k => (k.1, { salt, key := k.2, mode })))
        (fun _ t => ∃ first, first <+: (keys.map fun k => (k.1, { salt, key := k.2, mode }))
          ∧ t.receiver = s.receiver.installAll first)
  | [], _ => rfl
  | (i, key) :: keys, s => by
    unfold installReceiveKeys
    rw [ensures_bind]
    refine (installReceiveKey_receiver i key salt mode).mono ?_ ?_
    · intro _ t ht
      refine (installReceiveKeys_receiver salt mode keys t).mono ?_ ?_
      · intro _ u hu
        rw [hu, ht]
        rfl
      rintro e u ⟨first, hfirst, hu⟩
      refine ⟨(i, { salt, key, mode }) :: first, List.cons_prefix_cons.2 ⟨rfl, hfirst⟩, ?_⟩
      rw [hu, ht]
      rfl
    intro e t ht
    exact ⟨[], List.nil_prefix, ht⟩

theorem openKeyMaterial_receiver (request : Bytes) : Ensures (openKeyMaterial P request) s
      (fun m t => t.receiver = s.receiver ∧ Opens P request m)
      (fun _ t => t.receiver = s.receiver) := by
  have hreject (t : CryptoSession) (ht : t.receiver = s.receiver) (e : Error)
      (state : CryptoState) :
      Ensures (rejectKeyMaterial e state : CryptoM OpenedKeyMaterial) t
        (fun m u => u.receiver = s.receiver ∧ Opens P request m)
        (fun _ u => u.receiver = s.receiver) :=
    (rejectKeyMaterial_receiver e state).mono (fun _ _ h => h.elim) (fun _ _ h => h.trans ht)
  unfold openKeyMaterial
  rw [ensures_get_bind]
  split
  · exact hreject s rfl _ _
  next material hdecode =>
  split
  · exact hreject s rfl _ _
  next mode hmode =>
  dsimp only
  rw [ensures_tryCatch, ensures_bind]
  refine (keeps_deriveKeyEncryptionKey ignoresKeys_receiver _ _ _ _ s).mono ?_
    (fun e t ht => hreject t ht _ _)
  intro kek t ht
  rw [ensures_bind]
  refine ensures_provided (fun plaintext hunwrap => ?_)
    (fun e _ => hreject t.called (by exact ht) _ _)
  split
  · obtain ⟨suite, hsuite, rfl⟩ := selectMode_eq_some hmode
    exact ⟨ht, material, suite, _, kek, plaintext, hdecode, hsuite, hunwrap, rfl, rfl, rfl⟩
  · exact hreject t.called (by exact ht) .cryptographicFailure .badSecret

/-- What `accept_key_material` asks of the opened keys, as far as the receive
half decides it. -/
structure Receiver.Accepts (v : Receiver) (m : OpenedKeyMaterial) : Prop where
  /-- A known key keeps its selector, salt and mode. -/
  identity : ∀ k ∈ m.keys, ∀ i, ∀ known ∈ v.known i, known.key = k.2 →
    i = k.1 ∧ known.is k.2 m.salt m.mode = true
  distinct : m.keys.Pairwise fun a b => a.2 ≠ b.2
  /-- A retired key comes with a key that is new. -/
  companion : ∀ k ∈ m.keys, v.isRetired k.1 k.2 m.salt m.mode = true →
    ∃ k' ∈ m.keys, v.isRetired k'.1 k'.2 m.salt m.mode = false
      ∧ v.isCurrent k'.1 k'.2 m.salt m.mode = false
  /-- Nothing that received DATA is given up for it. -/
  spare : ∀ k ∈ m.keys, v.isRetired k.1 k.2 m.salt m.mode = true →
    (v.receive.get k.1).any TrafficKey.receivedPayload = false
      ∧ restoreErases k.2 m.salt m.mode (v.history.get k.1).generations = false

section

variable {request : Bytes} {m : OpenedKeyMaterial} (h : Opens P request m)
include h

/-- A request names each selector at most once. -/
theorem Opens.selectors : (m.keys.map Prod.fst).Nodup := by
  obtain ⟨material, _, _, _, plaintext, -, -, -, hkeys, -⟩ := h
  rw [hkeys]
  cases material.keys <;> simp [announcedSelectors]

theorem Opens.accepts (hs : s.acceptable m = true) : s.receiver.Accepts m := by
  unfold acceptable at hs
  simp only [Bool.and_eq_true, Bool.not_eq_true', Bool.and_eq_false_iff] at hs
  obtain ⟨⟨⟨⟨-, hidentity⟩, hdistinct⟩, hcompanion⟩, hspare⟩ := hs
  refine ⟨?_, ?_, ?_, ?_⟩
  · intro k hk i known hknown hkey
    have hnot := List.any_eq_false.1 hidentity k hk
    have hconflict : conflicts k.1 k.2 m.salt m.mode i known = false := by
      by_contra hconflict
      refine hnot (List.any_eq_true.2 ⟨i, by cases i <;> simp, ?_⟩)
      rw [Bool.or_eq_true]
      rcases List.mem_append.1 hknown with hknown | hknown
      · have hcurrent : s.receive.get i = some known := Option.mem_toList.1 hknown
        exact .inl (by rw [hcurrent]; simpa using hconflict)
      obtain ⟨g, hg, rfl⟩ := List.mem_map.1 hknown
      exact .inr (List.any_eq_true.2 ⟨g, hg, by simpa using hconflict⟩)
    simp only [conflicts, hkey, beq_self_eq_true, Bool.true_and, Bool.or_eq_false_iff,
      bne_eq_false_iff_eq] at hconflict
    obtain ⟨⟨hselector, hmode⟩, hsalt⟩ := hconflict
    exact ⟨hselector.symm, by simp [TrafficKey.is, hkey, hmode, hsalt]⟩
  · obtain ⟨material, _, _, _, plaintext, -, -, -, hkeys, -⟩ := h
    rw [hkeys] at hdistinct ⊢
    cases hmaterial : material.keys with
    | reserved =>
      rw [hmaterial] at hdistinct
      simpa [announcedSelectors] using hdistinct
    | _ => simp [announcedSelectors]
  · intro k hk hretired
    have hreplays : k ∈ m.keys.filter fun k => s.isRetiredReceiveKey k.1 k.2 m.salt m.mode :=
      List.mem_filter.2 ⟨hk, hretired⟩
    have hfresh := hcompanion.resolve_left (by
      rw [Bool.not_eq_false']
      intro hnone
      rw [List.isEmpty_iff.1 hnone] at hreplays
      cases hreplays)
    obtain ⟨k', hk'⟩ := List.exists_mem_of_ne_nil _ (List.isEmpty_eq_false_iff.1 hfresh)
    obtain ⟨hk', hnew⟩ := List.mem_filter.1 hk'
    rw [Bool.and_eq_true, Bool.not_eq_true', Bool.not_eq_true'] at hnew
    exact ⟨k', hk', hnew⟩
  intro k hk hretired
  have hnot := List.any_eq_false.1 hspare k (List.mem_filter.2 ⟨hk, hretired⟩)
  rw [Bool.not_eq_true, restoreWouldEraseReceivedGeneration, Bool.or_eq_false_iff] at hnot
  exact hnot

end

theorem keeps_prepareReverseDirection (clone : Bool) :
    Keeps receiver (prepareReverseDirection P clone) :=
  .bind .get fun _ => .ite (keeps_receiver (Spared.prepareBidirectionalSender · _)) .pure

/-- A new request that is accepted has all its keys installed.  One that is
refused may have installed some of them, or all when the reverse direction
could not be prepared. -/
theorem acceptKeyMaterial_receiver (request : Bytes) (clone : Bool) :
    Ensures (acceptKeyMaterial P request clone) s
      (fun _ t => request ∈ s.receivedKeyMaterialHistory ∧ t.receiver = s.receiver
        ∨ request ∉ s.receivedKeyMaterialHistory
          ∧ ∃ m u, openKeyMaterial P request s = .ok m u ∧ s.receiver.Accepts m
            ∧ t.receiver = (s.receiver.installAll m.slots).remember request)
      (fun _ t => t.receiver = s.receiver ∨ request ∉ s.receivedKeyMaterialHistory
          ∧ ∃ m u first, openKeyMaterial P request s = .ok m u ∧ s.receiver.Accepts m
            ∧ first <+: m.slots ∧ t.receiver = s.receiver.installAll first) := by
  unfold acceptKeyMaterial
  rw [ensures_get_bind]
  split
  · exact (rejectKeyMaterial_receiver _ _).mono (fun _ _ h => h.elim) (fun _ _ h => .inl h)
  split
  · exact .inl rfl
  split
  · next hmem => exact .inl ⟨by simpa using hmem, rfl⟩
  next hmem =>
  have hmem : request ∉ s.receivedKeyMaterialHistory := by simpa using hmem
  rw [ensures_bind]
  refine (openKeyMaterial_receiver request).run.mono ?_ (fun _ t ht => .inl ht.2)
  rintro m t ⟨hrun, ht, hopens⟩
  rw [ensures_get_bind]
  split
  · exact (rejectKeyMaterial_receiver _ _).mono (fun _ _ h => h.elim)
      (fun _ _ h => .inl (h.trans ht))
  next hacceptable =>
  have haccepts : s.receiver.Accepts m := by
    rw [← ht]
    exact hopens.accepts (by simpa using hacceptable)
  rw [ensures_bind, ensures_tryCatch]
  refine (installReceiveKeys_receiver m.salt m.mode m.keys t).mono ?_ ?_
  · intro _ u hu
    rw [ensures_modify_bind, ensures_bind]
    generalize hv : CryptoSession.mk .. = v
    have hv : v.receiver = s.receiver.installAll m.slots := by
      subst hv
      rw [← ht]
      exact hu
    refine (keeps_prepareReverseDirection clone v).mono ?_ ?_
    · intro _ w hw
      refine .inr ⟨hmem, m, t, hrun, haccepts, ?_⟩
      rw [← hv, ← hw]
      rfl
    intro e w hw
    exact .inr ⟨hmem, m, t, m.slots, hrun, haccepts, List.prefix_rfl, hw.trans hv⟩
  rintro e u ⟨first, hfirst, hu⟩
  refine (rejectKeyMaterial_receiver _ _).mono (fun _ _ h => h.elim) (fun _ _ h => ?_)
  exact .inr ⟨hmem, m, t, first, hrun, haccepts, hfirst, by rw [h, hu, ht]⟩

end Accept

/-! ## The other operations -/

section Other

variable {P : CryptoProvider} {s : CryptoSession}

theorem cloneToReceive_receiver (i : KeySelector) : Ensures (cloneToReceive P i) s
      (fun _ t => ∃ k, (∀ x ∈ k, ∃ source ∈ s.transmit.get i,
          validAesKeySize source.key.length = true ∧ x = { source with receivedPayload := false })
        ∧ t.transmit = s.transmit
        ∧ t.receiver = { s.receiver with receive := s.receive.set i k })
      (fun _ t => t.receiver = s.receiver) := by
  unfold cloneToReceive
  rw [ensures_get_bind]
  split
  · exact ⟨none, nofun, rfl, rfl⟩
  next source hsource =>
  rw [ensures_bind]
  refine (makeKey_spec _ _ _).mono ?_ ?_
  · rintro k t ⟨rfl, hvalid, n, rfl⟩
    refine ⟨some _, ?_, rfl, rfl⟩
    rintro x ⟨⟩
    exact ⟨source, hsource, hvalid, rfl⟩
  rintro e t ⟨n, rfl⟩
  rfl

/-- The receive slots hold copies of transmit keys, and nothing else is
known. -/
structure Cloned (transmit : BySelector (Option TrafficKey)) (v : Receiver) : Prop where
  source : ∀ i, ∀ k ∈ v.receive.get i, ∃ source ∈ transmit.get i,
    validAesKeySize source.key.length = true ∧ k = { source with receivedPayload := false }
  history : v.history = ⟨{}, {}⟩
  frontier : v.frontier = none

theorem cloneTransmitKeysToReceive_receiver (hempty : s.receive = ⟨none, none⟩) :
    Ensures (cloneTransmitKeysToReceive P) s
      (fun _ t => Cloned s.transmit t.receiver ∧ t.receiver.remembered = s.receiver.remembered)
      (fun _ t => Cloned s.transmit t.receiver
        ∧ t.receiver.remembered = s.receiver.remembered) := by
  unfold cloneTransmitKeysToReceive
  rw [ensures_modify_bind, ensures_bind]
  refine (cloneToReceive_receiver .even).mono ?_ ?_
  · rintro _ t ⟨even, heven, htransmit, ht⟩
    have hfirst : Cloned s.transmit t.receiver := by
      rw [ht]
      refine ⟨?_, rfl, rfl⟩
      intro i k hk
      cases i with
      | even => exact heven k hk
      | odd =>
        rw [hempty] at hk
        cases hk
    have hkept : t.receiver.remembered = s.receiver.remembered := by
      rw [ht]
      rfl
    rw [ensures_bind]
    refine (cloneToReceive_receiver .odd).mono ?_ ?_
    · rintro _ u ⟨odd, hodd, -, hu⟩
      rw [ensures_modify]
      show Cloned s.transmit u.receiver ∧ u.receiver.remembered = _
      rw [hu]
      refine ⟨⟨?_, hfirst.history, hfirst.frontier⟩, hkept⟩
      intro i k hk
      cases i with
      | even => exact hfirst.source .even k hk
      | odd =>
        rw [htransmit] at hodd
        exact hodd k hk
    intro e u hu
    rw [hu]
    exact ⟨hfirst, hkept⟩
  intro e t ht
  rw [ht]
  refine ⟨⟨?_, rfl, rfl⟩, rfl⟩
  intro i k hk
  rw [show s.receive = _ from hempty] at hk
  cases i <;> cases hk

/-- A response leaves the receive half alone, or copies the transmit keys into
it while no key has been received. -/
theorem acknowledgeKeyMaterial_receiver (response : Bytes) (clone : Bool) :
    Ensures (acknowledgeKeyMaterial P response clone) s
      (fun _ t => t.receiver = s.receiver ∨ s.receive = ⟨none, none⟩ ∧ Cloned s.transmit t.receiver)
      (fun _ t => t.receiver = s.receiver
        ∨ s.receive = ⟨none, none⟩ ∧ Cloned s.transmit t.receiver) := by
  have hdemote (state : CryptoState) : (s.demote state).receiver = s.receiver := by
    unfold demote
    split <;> rfl
  unfold acknowledgeKeyMaterial
  rw [ensures_get_bind]
  split
  · exact .inl (hdemote _)
  split
  · exact .inl rfl
  split
  · exact .inl (hdemote _)
  split
  · exact .inl rfl
  unfold confirmPending
  rw [ensures_modify_bind, ensures_get_bind]
  split
  · next hclone =>
    have hempty : s.receive = ⟨none, none⟩ := by
      obtain ⟨-, heven, hodd⟩ := hclone
      rw [Option.isNone_iff_eq_none] at heven hodd
      show (⟨s.receive.even, s.receive.odd⟩ : BySelector _) = _
      rw [show s.receive.even = none from heven, show s.receive.odd = none from hodd]
    unfold reverseDirections
    rw [ensures_modify_bind, ensures_get_bind, ensures_bind]
    generalize hu : CryptoSession.mk .. = u
    have hsame : u.receive = ⟨none, none⟩ ∧ u.transmit = s.transmit := by
      subst hu
      exact ⟨hempty, rfl⟩
    rw [← hsame.2]
    refine (cloneTransmitKeysToReceive_receiver hsame.1).mono ?_ ?_
    · rintro _ t ⟨ht, -⟩
      rw [ensures_modify_bind]
      refine (keeps_receiver (Spared.prepareBidirectionalSender · _) _).mono ?_ ?_ <;>
      · intro _ u hu
        rw [hu]
        exact .inr ⟨hempty, ht.source, ht.history, ht.frontier⟩
    rintro e t ⟨ht, -⟩
    exact .inr ⟨hempty, ht.source, ht.history, ht.frontier⟩
  · exact .inl rfl

/-- `markReceived` on the receive half. -/
def Receiver.mark (v : Receiver) (i : KeySelector) (place : ReceivePlace) : Receiver :=
  match place with
  | .current => { v with
      receive := v.receive.set i ((v.receive.get i).map ({ · with receivedPayload := true })) }
  | .retired index =>
    let h := v.history.get i
    { v with
      history := v.history.set i { h with
        generations := h.generations.modify index fun g =>
          { g with slot := { g.slot with receivedPayload := true } } } }

theorem markReceived_receiver (i : KeySelector) (place : ReceivePlace) :
    (s.markReceived i place).receiver = s.receiver.mark i place := by
  cases place <;> rfl

/-- A packet that is decrypted marks the key it was decrypted with. -/
theorem decrypt_receiver (key : EncryptionKey) (sequence : SequenceNumber) (ciphertext : Bytes) :
    Ensures (decrypt P key sequence ciphertext) s (fun _ t => key = .none ∧ t.receiver = s.receiver
        ∨ ∃ i place k, s.receiveSlotForPacket key sequence = some (i, place, k)
          ∧ t.receiver = s.receiver.mark i place)
      (fun _ t => t.receiver = s.receiver) := by
  unfold decrypt
  rw [ensures_get_bind]
  split
  · next hnone =>
    split
    · exact rfl
    · exact .inl ⟨hnone, rfl⟩
  split
  · exact rfl
  split
  · exact rfl
  next i place k hslot =>
  split
  · exact rfl
  rw [ensures_bind]
  refine ensures_provided (fun plaintext _ => ?_) (fun e _ => rfl)
  rw [ensures_modify_bind]
  exact .inr ⟨i, place, k, hslot, markReceived_receiver (s := s.called) i place⟩

/-- `note_authenticated_receive_sequence` on the receive half. -/
def Receiver.note (v : Receiver) (sequence : SequenceNumber) : Receiver :=
  match v.frontier with
  | none => { v with frontier := some (sequence, 0) }
  | some (highestSequence, highest) =>
    let advance := sequence.distanceFrom highestSequence
    if advance > 0 then
      if highest > int64Max - advance - SequenceNumber.halfRange then
        { v with
          history := ⟨rebaseHistory highest v.history.even, rebaseHistory highest v.history.odd⟩
          frontier := some (sequence, advance) }
      else { v with frontier := some (sequence, highest + advance) }
    else v

theorem noteAuthenticatedReceiveSequence_receiver (sequence : SequenceNumber) :
    (s.noteAuthenticatedReceiveSequence sequence).receiver = s.receiver.note sequence := by
  unfold noteAuthenticatedReceiveSequence Receiver.note
  have hfrontier : s.receiver.frontier = s.frontier := rfl
  rw [hfrontier]
  cases s.frontier with
  | none => rfl
  | some highest =>
    dsimp only
    split
    · split <;> rfl
    · rfl

/-- A packet that is opened also moves the frontier. -/
theorem openPacket_receiver (header : DataHeader) (ciphertext tag : Bytes) :
    Ensures (openPacket P header ciphertext tag) s (fun _ t => ∃ i place k,
        s.receiveSlotForPacket header.encryptionKey header.sequence = some (i, place, k)
          ∧ t.receiver = (s.receiver.mark i place).note header.sequence)
      (fun _ t => t.receiver = s.receiver) := by
  unfold openPacket
  rw [ensures_get_bind]
  split
  · exact rfl
  split
  · exact rfl
  next i place k hslot =>
  split
  · exact rfl
  rw [ensures_bind]
  refine ensures_provided (fun plaintext _ => ?_) (fun e _ => rfl)
  rw [ensures_modify_bind]
  refine ⟨i, place, k, hslot, ?_⟩
  rw [noteAuthenticatedReceiveSequence_receiver, markReceived_receiver]
  rfl

end Other

/-! ## The steps of the receive half -/

/-- What the call `c`, made in `s`, can do to the receive half. -/
inductive ReceiverStep (P : CryptoProvider) (c : CryptoCall) (s t : CryptoSession) : Prop
  | keep (h : t.receiver = s.receiver)
  /-- Keys of a request are installed, the first few of them or all. -/
  | install (request : Bytes) (clone : Bool) (m : OpenedKeyMaterial) (u : CryptoSession)
      (first : List (KeySelector × TrafficKey)) (remembered : List Bytes)
      (call : c = .acceptKeyMaterial request clone)
      (opened : openKeyMaterial P request s = .ok m u) (accepts : s.receiver.Accepts m)
      (part : first <+: m.slots)
      (h : t.receiver = { s.receiver.installAll first with remembered })
  /-- The transmit keys are copied. -/
  | clone (empty : s.receive = ⟨none, none⟩) (h : Cloned s.transmit t.receiver)
  /-- A packet was decrypted or opened with a key. -/
  | mark (key : EncryptionKey) (sequence : SequenceNumber) (i : KeySelector)
      (place : ReceivePlace) (k : TrafficKey)
      (slot : s.receiveSlotForPacket key sequence = some (i, place, k))
      (h : t.receiver = s.receiver.mark i place)
  | markNote (header : DataHeader) (ciphertext tag : Bytes) (i : KeySelector)
      (place : ReceivePlace) (k : TrafficKey) (call : c = .openPacket header ciphertext tag)
      (slot : s.receiveSlotForPacket header.encryptionKey header.sequence = some (i, place, k))
      (h : t.receiver = (s.receiver.mark i place).note header.sequence)
  | note (sequence : SequenceNumber) (call : c = .noteAcceptedReceiveSequence sequence)
      (h : t.receiver = s.receiver.note sequence)

theorem after_receiverStep (P : CryptoProvider) (s : CryptoSession) (c : CryptoCall) :
    ReceiverStep P c s (s.after P c) := by
  have hkeeps (h : Keeps receiver (perform P c)) : ReceiverStep P c s (s.after P c) :=
    .keep (after_of_ensures (Q := fun t => t.receiver = s.receiver) (h s))
  cases c with
  | startInitiator => exact hkeeps (keeps_receiver Spared.startInitiator)
  | continueWithoutPeerKey reported =>
    exact hkeeps (keeps_receiver (Spared.continueWithoutPeerKey · _))
  | prepareRotation => exact hkeeps (keeps_receiver Spared.prepareRotation)
  | setPreannouncementFloor positions => exact hkeeps (.modify (by intro; rfl))
  | prepareDataPacket position => exact hkeeps (keeps_receiver (Spared.prepareDataPacket · _))
  | noteDataPacketSent => exact hkeeps (keeps_receiver Spared.noteDataPacketSent)
  | encrypt sequence plaintext => exact hkeeps (.discard (keeps_encrypt ignoresKeys_receiver _ _))
  | sealPacket header plaintext =>
    exact hkeeps (.discard (keeps_sealPacket ignoresKeys_receiver _ _))
  | acceptKeyMaterial request clone =>
    refine after_of_ensures ((acceptKeyMaterial_receiver request clone).mono ?_ ?_)
    · rintro _ t (⟨-, h⟩ | ⟨-, m, u, hopened, haccepts, h⟩)
      · exact .keep h
      · exact .install request clone m u _ _ rfl hopened haccepts List.prefix_rfl h
    rintro _ t (h | ⟨-, m, u, first, hopened, haccepts, hfirst, h⟩)
    · exact .keep h
    · exact .install request clone m u first _ rfl hopened haccepts hfirst h
  | acknowledgeKeyMaterial response clone =>
    refine after_of_ensures ((acknowledgeKeyMaterial_receiver response clone).mono ?_ ?_) <;>
    · rintro _ t (h | ⟨hempty, h⟩)
      · exact .keep h
      · exact .clone hempty h
  | decrypt key sequence ciphertext =>
    refine after_of_ensures (ensures_discard.2
      ((decrypt_receiver key sequence ciphertext).mono ?_ (fun _ _ h => .keep h)))
    rintro _ t (⟨-, h⟩ | ⟨i, place, k, hslot, h⟩)
    · exact .keep h
    · exact .mark key sequence i place k hslot h
  | openPacket header ciphertext tag =>
    refine after_of_ensures (ensures_discard.2
      ((openPacket_receiver header ciphertext tag).mono ?_ (fun _ _ h => .keep h)))
    rintro _ t ⟨i, place, k, hslot, h⟩
    exact .markNote header ciphertext tag i place k rfl hslot h
  | noteAcceptedReceiveSequence sequence =>
    exact .note sequence rfl (noteAuthenticatedReceiveSequence_receiver sequence)

/-! ## Runs -/

/-- Sessions under any sequence of calls. -/
def CryptoSession.runs (P : CryptoProvider) : Lts.System CryptoSession CryptoCall :=
  .ofFun (fun s => ∃ c, s = ofConfiguration P c) (after P)

theorem ofConfiguration_keys (P : CryptoProvider) (c : CryptoConfiguration) :
    (ofConfiguration P c).transmit = ⟨none, none⟩
      ∧ (ofConfiguration P c).receiver = ⟨⟨none, none⟩, ⟨{}, {}⟩, none, []⟩ := by
  unfold ofConfiguration
  dsimp only
  split <;> exact ⟨rfl, rfl⟩

theorem senderWellFormed_of_reachable {P : CryptoProvider} {s : CryptoSession}
    (h : Lts.Reachable (runs P) s) : SenderWellFormed s := by
  refine h.invariant ?_ ?_
  · rintro _ ⟨c, rfl⟩
    exact senderWellFormed_ofConfiguration P c
  rintro s c _ _ hs - rfl
  exact SenderSteps.wellFormed (after_steps hs c) hs

end Srt
