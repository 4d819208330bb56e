/-
# `Crypto.Sender` — what the operations do to the transmit half

The part of a session that decides about outgoing DATA is its `Sender`: the
two transmit slots, the sequence accounting and the state of the pending key
exchange.  Every operation of the session is described here by what it does
to that part; the operations of the receive half leave it alone.
-/
import Mathlib.Logic.Relation
import Srt.Crypto.Session

namespace Srt

open Fallible CryptoSession CryptoSession

variable {key : Bytes} {P : CryptoProvider} {i : KeySelector} {k : TrafficKey}

/-- The members that decide about outgoing DATA. -/
structure Sender where
  transmit : BySelector (Option TrafficKey)
  active : KeySelector
  packets : Nat
  position : Option Nat
  sent : Bool
  state : CryptoState
  rotationPrepared : Bool
  pending : Bytes
  keyMaterialPending : Bool
  pendingAcknowledged : Bool
  directionalKeyPending : Bool
  unacknowledgedSending : Bool
  acknowledged : List Bytes
  deriving DecidableEq, Repr

namespace CryptoSession

def sender (s : CryptoSession) : Sender where
  transmit := s.transmit
  active := s.activeSenderKey
  packets := s.packetsOnActiveKey
  position := s.preparedSequencePosition
  sent := s.preparedPacketSent
  state := s.senderState
  rotationPrepared := s.rotationPrepared
  pending := s.pendingKeyMaterial
  keyMaterialPending := s.keyMaterialPending
  pendingAcknowledged := s.pendingAcknowledged
  directionalKeyPending := s.directionalKeyPending
  unacknowledgedSending := s.unacknowledgedSending
  acknowledged := s.acknowledgedKeyMaterialHistory

/-- Behind a provider call. -/
def called (s : CryptoSession) : CryptoSession :=
  { s with providerCalls := s.providerCalls + 1 }

/-- Provider calls are only ever added, and the configuration stays. -/
structure Later (s t : CryptoSession) : Prop where
  calls : s.providerCalls ≤ t.providerCalls
  passphrase : t.passphrase = s.passphrase
  configurationError : t.configurationError = s.configurationError

/-- `t` is later than `s`, with the transmit half `v`. -/
structure Leads (s t : CryptoSession) (v : Sender) : Prop where
  later : Later s t
  sender : t.sender = v

/-- The transmit half stays. -/
abbrev Quiet (s t : CryptoSession) : Prop := Leads s t s.sender

/-- `message` is a KMREQ that carries the wrapped `plaintext`, under the salt
and the mode of `primary`. -/
def Announces (P : CryptoProvider) (message : Bytes) (keys : EncryptionKey)
    (primary : TrafficKey) (plaintext : Bytes) : Prop :=
  ∃ suite call kek wrapped, cryptoSuiteForMode primary.mode = some suite
    ∧ P.wrapKey call kek plaintext = .ok wrapped
    ∧ encodeKeyMaterial
        { keys
          cipher := suite.cipher
          authentication := suite.authentication
          salt := primary.salt
          keyLength := primary.key.length
          wrappedKeys := wrapped } maximumKeyMaterialSize = .ok message

/-- The random source gave `key`, of a valid size, between `s` and `t`. -/
def Drew (P : CryptoProvider) (s t : CryptoSession) (key : Bytes) : Prop :=
  validAesKeySize key.length = true ∧ ∃ call size b, s.providerCalls ≤ call
    ∧ call < t.providerCalls ∧ P.randomBytes call size = .ok b ∧ b.val = key

section Later

variable {s t u : CryptoSession} {P : CryptoProvider} {v : Sender}

theorem Later.refl (s : CryptoSession) : Later s s := ⟨le_rfl, rfl, rfl⟩

theorem Later.trans (h : Later s t) (h' : Later t u) : Later s u :=
  ⟨Nat.le_trans h.calls h'.calls, h'.passphrase.trans h.passphrase,
    h'.configurationError.trans h.configurationError⟩

theorem Quiet.refl (s : CryptoSession) : Quiet s s := ⟨Later.refl s, rfl⟩

theorem Quiet.lead (h : Quiet s t) (h' : Leads t u v) : Leads s u v :=
  ⟨h.later.trans h'.later, h'.sender⟩

theorem Quiet.trans (h : Quiet s t) (h' : Quiet t u) : Quiet s u :=
  ⟨h.later.trans h'.later, h'.sender.trans h.sender⟩

theorem Drew.mono (h : Drew P s t key) {s' t' : CryptoSession}
    (hs : s'.providerCalls ≤ s.providerCalls) (ht : t.providerCalls ≤ t'.providerCalls) :
    Drew P s' t' key := by
  obtain ⟨hsize, call, size, b, h1, h2, h3⟩ := h
  exact ⟨hsize, call, size, b, by omega, by omega, h3⟩

end Later

end CryptoSession

/-! ## The private steps -/

section Steps

variable {P : CryptoProvider} {s : CryptoSession} {α : Type}

theorem ensures_provided {f : Nat → Except Error α} {ok : α → CryptoSession → Prop}
    {err : Error → CryptoSession → Prop} (hok : ∀ a, f s.providerCalls = .ok a → ok a s.called)
    (herr : ∀ e, f s.providerCalls = .error e → err e s.called) :
    Ensures (provided f) s ok err := by
  unfold Ensures provided
  cases h : f s.providerCalls with
  | ok a => exact hok a h
  | error e => exact herr e h

/-- A provider call by itself leaves the transmit half alone. -/
theorem quiet_called (s : CryptoSession) : Quiet s s.called := ⟨⟨Nat.le_succ _, rfl, rfl⟩, rfl⟩

/-- The cipher of a key is made without any other effect. -/
theorem makeKey_spec (key salt : Bytes) (mode : CryptoMode) : Ensures (makeKey P key salt mode) s
      (fun k t => k = { salt, key, mode } ∧ validAesKeySize key.length = true
        ∧ ∃ n, t = { s with providerCalls := s.providerCalls + n })
      (fun _ t => ∃ n, t = { s with providerCalls := s.providerCalls + n }) := by
  unfold makeKey
  split
  · exact ⟨0, rfl⟩
  next hvalid =>
  split
  · exact ⟨0, rfl⟩
  rw [ensures_bind]
  refine ensures_provided (fun made _ => ?_) (fun e _ => ⟨1, rfl⟩)
  split
  · exact ⟨rfl, by simpa using (not_or.1 hvalid).1, 1, rfl⟩
  · exact ⟨1, rfl⟩

theorem installTransmitKey_spec (i : KeySelector) (key salt : Bytes) (mode : CryptoMode) :
    Ensures (installTransmitKey P i key salt mode) s
      (fun _ t => validAesKeySize key.length = true ∧ Leads s t { s.sender with
        transmit := s.transmit.set i (some { salt, key, mode }) })
      (fun _ t => Quiet s t) := by
  unfold installTransmitKey
  rw [ensures_bind]
  refine (makeKey_spec key salt mode).mono ?_ ?_
  · rintro k t ⟨rfl, hvalid, n, rfl⟩
    exact ⟨hvalid, ⟨Nat.le_add_right _ _, rfl, rfl⟩, rfl⟩
  rintro e t ⟨n, rfl⟩
  exact ⟨⟨Nat.le_add_right _ _, rfl, rfl⟩, rfl⟩

theorem deriveKeyEncryptionKey_spec (use : KeyEncryptionKeyUse) (salt : Bytes) (size : Nat)
    (cacheResult : Bool) :
    Ensures (deriveKeyEncryptionKey P use salt size cacheResult) s
      (fun _ t => Quiet s t) (fun _ t => Quiet s t) := by
  unfold deriveKeyEncryptionKey
  rw [ensures_get_bind]
  split
  · exact Quiet.refl s
  rw [ensures_bind]
  refine ensures_provided (fun k _ => ?_) (fun e _ => quiet_called s)
  rw [ensures_modify_bind, ensures_pure]
  split
  · cases use <;> exact ⟨⟨Nat.le_succ _, rfl, rfl⟩, rfl⟩
  · exact quiet_called s

/-- A new key in the even slot, of this session's own making. -/
theorem generateInitialSenderKey_spec (size : Nat) : Ensures (generateInitialSenderKey P size) s
      (fun _ t => ∃ k : TrafficKey, Drew P s t k.key ∧ k.salt.length = srtSaltSize
        ∧ Leads s t { s.sender with transmit := s.transmit.set .even (some k) })
      (fun _ t => Quiet s t) := by
  unfold generateInitialSenderKey
  rw [ensures_bind]
  refine ensures_provided (fun salt _ => ?_) (fun e _ => quiet_called s)
  rw [ensures_bind]
  have hcalled : Quiet s s.called.called := (quiet_called s).trans (quiet_called _)
  refine ensures_provided (fun key hkey => ?_) (fun e _ => hcalled)
  rw [ensures_get_bind]
  refine (installTransmitKey_spec .even key.val salt.val _).mono ?_ (fun e t ht => hcalled.trans ht)
  rintro _ t ⟨hvalid, ht⟩
  refine ⟨{ salt := salt.val, key := key.val, mode := s.effectiveMode },
    ⟨hvalid, s.providerCalls + 1, size, key, Nat.le_succ _, ?_, hkey, rfl⟩, salt.property,
    hcalled.lead ht⟩
  exact Nat.lt_of_lt_of_le (Nat.lt_succ_self _) ht.later.calls

/-- A KMREQ for the slots it names; when it cannot be written, the pending one
may be gone. -/
theorem buildSenderKeyMaterial_spec (keys : EncryptionKey) :
    Ensures (buildSenderKeyMaterial P keys) s
      (fun _ t => ∃ primary plaintext message, s.announcedKeys keys = some (primary, plaintext)
        ∧ Announces P message keys primary plaintext
        ∧ Leads s t { s.sender with pending := message, keyMaterialPending := true })
      (fun _ t => Quiet s t
        ∨ Leads s t { s.sender with pending := [], keyMaterialPending := false }) := by
  unfold buildSenderKeyMaterial
  rw [ensures_get_bind]
  have hstay : Quiet s s := Quiet.refl s
  split
  · exact .inl hstay
  next primary plaintext hkeys =>
  split
  · exact .inl hstay
  next suite hsuite =>
  rw [ensures_bind]
  refine (deriveKeyEncryptionKey_spec _ _ _ _).mono ?_ (fun e t ht => .inl ht)
  intro kek t ht
  rw [ensures_bind]
  have hcalled : Quiet s t.called := ht.trans (quiet_called t)
  refine ensures_provided (fun wrapped hwrap => ?_) (fun e _ => .inl hcalled)
  have hwith (b : Bytes) (pending : Bool) (revision : Nat) :
      Leads s { t with
        pendingKeyMaterial := b
        keyMaterialPending := pending
        keyMaterialRevision := revision
        providerCalls := t.providerCalls + 1 }
        { s.sender with pending := b, keyMaterialPending := pending } := by
    refine ⟨⟨hcalled.later.calls, hcalled.later.passphrase, hcalled.later.configurationError⟩, ?_⟩
    rw [← ht.sender]
    rfl
  dsimp only
  split
  · rw [ensures_modify_bind, ensures_throw]
    exact .inr (hwith _ _ _)
  next message hencode =>
  rw [ensures_modify]
  exact ⟨primary, plaintext, message, hkeys, ⟨suite, _, kek, wrapped, hsuite, hwrap, hencode⟩,
    hwith _ _ _⟩

/-- A new key in the slot that is not active, under the salt and mode of the
active one. -/
theorem generateNextSenderKey_spec : Ensures (generateNextSenderKey P) s
      (fun _ t => ∃ current k : TrafficKey, s.transmit.get s.activeSenderKey = some current
        ∧ Drew P s t k.key
        ∧ k = { current with key := k.key, receivedPayload := false }
        ∧ k.key.length = current.key.length
        ∧ Leads s t { s.sender with
            transmit := s.transmit.set s.activeSenderKey.other (some k) })
      (fun _ t => Quiet s t) := by
  unfold generateNextSenderKey
  rw [ensures_get_bind]
  split
  · exact Quiet.refl s
  next current hcurrent =>
  rw [ensures_bind]
  refine ensures_provided (fun key hkey => ?_) (fun e _ => quiet_called s)
  rw [ensures_modify_bind]
  generalize hu : retireTransmitKey s.called _ = u
  have hlead : Quiet s u ∧ u.providerCalls = s.providerCalls + 1 := by
    subst hu
    unfold retireTransmitKey
    split <;> exact ⟨⟨⟨Nat.le_succ _, rfl, rfl⟩, rfl⟩, rfl⟩
  refine (installTransmitKey_spec _ _ _ _).mono ?_ (fun e t ht => ?_)
  · rintro _ t ⟨hvalid, ht⟩
    have hcalls := ht.later.calls
    refine ⟨current, { salt := current.salt, key := key.val, mode := current.mode }, hcurrent,
      ⟨hvalid, s.providerCalls, _, key, le_rfl, by omega, hkey, rfl⟩, rfl, key.property,
      hlead.1.later.trans ht.later, ?_⟩
    have htransmit : u.transmit = s.transmit := congrArg Sender.transmit hlead.1.sender
    rw [ht.sender, hlead.1.sender, htransmit]
  · exact ⟨hlead.1.later.trans ht.later, ht.sender.trans hlead.1.sender⟩

end Steps

/-! ## The steps of the transmit half -/

/-- A pair with `own` under this selector. -/
def KeySelector.arrange {α : Type} (i : KeySelector) (own other : α) : BySelector α :=
  match i with
  | .even => ⟨own, other⟩
  | .odd => ⟨other, own⟩

/-- With a passphrase and a valid configuration. -/
def CryptoSession.Operational (s : CryptoSession) : Prop :=
  s.enabled = true ∧ s.configurationError = none

/-- The count on the active key with which a call asks for a rotation. -/
def CryptoSession.countFor (s : CryptoSession) : CryptoCall → Option Nat
  | .prepareRotation => some s.packetsOnActiveKey
  | .prepareDataPacket position =>
    match s.preparedSequencePosition with
    | none => some s.packetsOnActiveKey
    | some prepared =>
      if prepared < position then
        some (s.packetsOnActiveKey + s.skippedPositions prepared position)
      else none
  | _ => none

/-- A call that finds the announcement point reached. -/
def CryptoSession.rotationDue (s : CryptoSession) (c : CryptoCall) : Prop :=
  ∃ count ∈ s.countFor c, s.effectiveRefreshRate - s.effectivePreannouncement ≤ count

instance (s : CryptoSession) (c : CryptoCall) : Decidable (s.rotationDue c) :=
  inferInstanceAs (Decidable (∃ count ∈ s.countFor c, _ ≤ _))

/-- What the call `c`, made in `s₀`, can do to the transmit half, one write at a
time except where a later write depends on an earlier one. -/
inductive SenderStep (P : CryptoProvider) (s₀ : CryptoSession) (c : CryptoCall)
    (s t : CryptoSession) : Prop
  /-- Nothing. -/
  | quiet (h : Quiet s t)
  /-- `prepare_bidirectional_sender` gives the transmit keys up. -/
  | erase (h : Leads s t { s.sender with
      state := .securing
      directionalKeyPending := true
      pendingAcknowledged := false
      rotationPrepared := false
      packets := 0
      active := .even
      transmit := ⟨none, none⟩ })
      (reset : s.transmit = ⟨none, none⟩ ∨ s.sender.pending ∈ s.sender.acknowledged)
  /-- `continue_without_peer_key` starts over. -/
  | discard (h : Leads s t { s.sender with
      transmit := ⟨none, none⟩
      active := .even
      packets := 0 }) (inactive : s.transmit.get s.activeSenderKey = none)
      (operational : s.Operational)
  /-- A first key. -/
  | initial (k : TrafficKey) (drew : Drew P s t k.key) (salted : k.salt.length = srtSaltSize)
      (h : Leads s t { s.sender with transmit := ⟨some k, none⟩ })
      (empty : s.transmit = ⟨none, none⟩) (even : s.activeSenderKey = .even)
      (operational : s.Operational)
  /-- Its KMREQ. -/
  | announce (k : TrafficKey) (message : Bytes) (announces : Announces P message .even k k.key)
      (h : Leads s t { s.sender with pending := message, keyMaterialPending := true })
      (first : s.transmit = ⟨some k, none⟩) (even : s.activeSenderKey = .even)
  /-- A KMREQ that could not be written. -/
  | unannounce (h : Leads s t { s.sender with pending := [], keyMaterialPending := false })
  /-- The state `start_initiator` ends in. -/
  | settle (state : CryptoState) (acknowledged : Bool)
      (h : Leads s t { s.sender with state, pendingAcknowledged := acknowledged })
      (unsecured : state ≠ .secured) (single : s.transmit.odd = none)
  /-- A next key that could not be announced. -/
  | stage (current k : TrafficKey) (drew : Drew P s t k.key)
      (h : Leads s t { s.sender with
        transmit := s.transmit.set s.activeSenderKey.other (some k) })
      (ready : s.transmit.get s.activeSenderKey = some current)
      (same : k = { current with key := k.key, receivedPayload := false })
      (unprepared : s.rotationPrepared = false)
  /-- A next key and its KMREQ. -/
  | rotate (current k : TrafficKey) (message : Bytes) (drew : Drew P s t k.key)
      (h : Leads s t { s.sender with
        transmit := s.transmit.set s.activeSenderKey.other (some k)
        pending := message
        keyMaterialPending := true
        rotationPrepared := true
        pendingAcknowledged := false
        state := .securing })
      (ready : s.transmit.get s.activeSenderKey = some current)
      (same : k = { current with key := k.key, receivedPayload := false })
      (length : k.key.length = current.key.length)
      (announces : Announces P message .reserved (s.activeSenderKey.arrange current k).even
        ((s.activeSenderKey.arrange current k).even.key
          ++ (s.activeSenderKey.arrange current k).odd.key))
      (acknowledging : s.unacknowledgedSending = false)
      (unprepared : s.rotationPrepared = false)
      (state : s.senderState = .secured ∨ s.senderState = .securing)
      (origin : s₀.senderState = s.senderState) (unprepared₀ : s₀.rotationPrepared = false)
      (due : s₀.rotationDue c)
  /-- A sent position is counted. -/
  | consume (h : Leads s t { s.sender with sent := true, packets := s.packetsOnActiveKey + 1 })
      (room : s.packetsOnActiveKey < maximumSequencesPerKey)
  /-- A sent position behind the last one the key has room for. -/
  | exhaust (h : Leads s t { s.sender with sent := true })
      (full : maximumSequencesPerKey ≤ s.packetsOnActiveKey)
  /-- Rotation without a peer. -/
  | rotateAlone (current k : TrafficKey) (drew : Drew P s t k.key)
      (h : Leads s t { s.sender with
        transmit := s.transmit.set s.activeSenderKey.other (some k)
        active := s.activeSenderKey.other
        packets := 0 })
      (ready : s.transmit.get s.activeSenderKey = some current)
      (same : k = { current with key := k.key, receivedPayload := false })
      (alone : s.unacknowledgedSending = true)
  /-- The announced key becomes active. -/
  | switch (h : Leads s t { s.sender with
      active := s.activeSenderKey.other
      packets := 0
      rotationPrepared := false
      pendingAcknowledged := false
      state := .secured })
      (acknowledging : s.unacknowledgedSending = false)
      (prepared : s.rotationPrepared = true) (acknowledged : s.pendingAcknowledged = true)
  /-- The first position. -/
  | arrive (position : Nat)
      (h : Leads s t { s.sender with sent := false, position := some position })
      (call : c = .prepareDataPacket position)
      (fresh : s.preparedSequencePosition = none)
  /-- A later position; what it skips is counted. -/
  | skip (prepared position : Nat)
      (h : Leads s t { s.sender with
        sent := false
        position := some position
        packets := s.packetsOnActiveKey + s.skippedPositions prepared position })
      (call : c = .prepareDataPacket position)
      (last : s.preparedSequencePosition = some prepared) (ahead : prepared < position)
      (room : s.packetsOnActiveKey + s.skippedPositions prepared position < maximumSequencesPerKey)
  /-- `continue_without_peer_key` gives the peer up. -/
  | leave (reported state : CryptoState) (call : c = .continueWithoutPeerKey reported)
    (h : Leads s t { s.sender with
      state
      unacknowledgedSending := true
      directionalKeyPending := false
      rotationPrepared := false
      pendingAcknowledged := false
      keyMaterialPending := false
      pending := [] })
  /-- A refused response. -/
  | demote (response : Bytes) (clone : Bool) (state : CryptoState)
      (call : c = .acknowledgeKeyMaterial response clone)
      (h : Leads s t { s.sender with state }) (unsecured : s.preservesSecuredState = false)
      (origin : s₀.preservesSecuredState = false)
      (reported : state = .secured →
        response.length = 4 ∧ decodeKeyMaterialState response = some .secured)
  /-- The pending KMREQ came back. -/
  | confirm (response : Bytes) (clone : Bool)
      (call : c = .acknowledgeKeyMaterial response clone) (h : Leads s t { s.sender with
      pendingAcknowledged := true
      keyMaterialPending := false
      state := .secured
      directionalKeyPending := false
      acknowledged := rememberKeyMaterial s.acknowledgedKeyMaterialHistory response })
      (pending : response = s.pendingKeyMaterial) (nonempty : response ≠ [])
      (fresh : response ∉ s.acknowledgedKeyMaterialHistory)
  /-- The exchange in the other direction begins. -/
  | reverse (h : Leads s t { s.sender with state := .securing, directionalKeyPending := true })
      (acknowledged : s.pendingKeyMaterial ∈ s.acknowledgedKeyMaterialHistory)

/-- What a call does as a whole. -/
abbrev SenderSteps (P : CryptoProvider) (s₀ : CryptoSession) (c : CryptoCall) :
    CryptoSession → CryptoSession → Prop :=
  Relation.ReflTransGen (SenderStep P s₀ c)

/-! ## Well-formed sessions -/

/-- A session with any transmit key has an active one. -/
structure SenderWellFormed (s : CryptoSession) : Prop where
  active : s.transmit.get s.activeSenderKey = none →
    s.transmit = ⟨none, none⟩ ∧ s.activeSenderKey = .even
  operational : (s.transmit.get s.activeSenderKey).isSome → s.Operational
  prepared : s.rotationPrepared = true → (s.transmit.get s.activeSenderKey).isSome
    ∧ (s.transmit.get s.activeSenderKey.other).isSome
  alone : s.unacknowledgedSending = true → s.rotationPrepared = false
  pending : s.pendingKeyMaterial ≠ [] → s.Operational

section WellFormed

variable {P : CryptoProvider} {s₀ s t : CryptoSession} {c : CryptoCall}

theorem CryptoSession.Later.enabled (h : Later s t) : t.enabled = s.enabled := by
  unfold CryptoSession.enabled
  rw [h.passphrase]

theorem CryptoSession.Later.operational (h : Later s t) (ho : s.Operational) : t.Operational :=
  ⟨h.enabled.trans ho.1, h.configurationError.trans ho.2⟩

theorem SenderStep.later (h : SenderStep P s₀ c s t) : Later s t := by
  cases h
  all_goals exact ‹Leads s t _›.later

/-- Well-formedness in terms of the transmit half. -/
theorem senderWellFormed_of_leads {v : Sender} (h : Leads s t v)
    (active : v.transmit.get v.active = none → v.transmit = ⟨none, none⟩ ∧ v.active = .even)
    (operational : (v.transmit.get v.active).isSome → s.Operational)
    (prepared : v.rotationPrepared = true → (v.transmit.get v.active).isSome ∧ (v.transmit.get
      v.active.other).isSome)
    (alone : v.unacknowledgedSending = true → v.rotationPrepared = false)
    (pending : v.pending ≠ [] → s.Operational) : SenderWellFormed t := by
  obtain ⟨hl, rfl⟩ := h
  exact ⟨active, fun ha => hl.operational (operational ha), prepared, alone,
    fun hp => hl.operational (pending hp)⟩

theorem SenderWellFormed.empty (hs : SenderWellFormed s)
    (h : s.transmit.get s.activeSenderKey = none) : s.rotationPrepared = false := by
  by_contra hr
  have := (hs.prepared (by simpa using hr)).1
  rw [h] at this
  cases this

theorem SenderStep.wellFormed (h : SenderStep P s₀ c s t) (hs : SenderWellFormed s) :
    SenderWellFormed t := by
  cases h with
  | quiet h | settle _ _ h | consume h | exhaust h | arrive _ h | skip _ _ h
  | demote _ _ _ _ h | confirm _ _ _ h | reverse h =>
    exact senderWellFormed_of_leads h hs.active hs.operational hs.prepared hs.alone hs.pending
  | erase h =>
    exact senderWellFormed_of_leads h (fun _ => ⟨rfl, rfl⟩) nofun
      nofun (fun _ => rfl) hs.pending
  | discard h inactive =>
    have hrot := hs.empty inactive
    exact senderWellFormed_of_leads h (fun _ => ⟨rfl, rfl⟩) nofun
      (fun hr => absurd hr (by simp [sender, hrot])) (fun _ => hrot) hs.pending
  | initial k _ _ h empty even operational =>
    have hrot : s.rotationPrepared = false := hs.empty (by rw [empty, even]; rfl)
    refine senderWellFormed_of_leads h ?_ (fun _ => operational)
      (fun hr => absurd hr (by simp [sender, hrot])) (fun _ => hrot) hs.pending
    intro hk
    simp [sender, even, BySelector.get] at hk
  | announce k _ _ h first even =>
    exact senderWellFormed_of_leads h hs.active hs.operational hs.prepared hs.alone
      (fun _ => hs.operational (by rw [first, even]; rfl))
  | unannounce h =>
    exact senderWellFormed_of_leads h hs.active hs.operational hs.prepared hs.alone
      (fun hp => absurd rfl hp)
  | stage current k _ h ready _ unprepared =>
    have hactive : (s.transmit.set s.activeSenderKey.other (some k)).get s.activeSenderKey
        = some current := (BySelector.get_other_set _ _ _).trans ready
    refine senderWellFormed_of_leads h ?_ (fun _ => hs.operational (by rw [ready]; rfl))
      (fun hr => absurd hr (by simp [sender, unprepared])) (fun _ => unprepared)
      hs.pending
    intro hk
    cases hactive.symm.trans hk
  | rotate current k message _ h ready _ _ _ acknowledging =>
    have hactive : (s.transmit.set s.activeSenderKey.other (some k)).get s.activeSenderKey
        = some current := (BySelector.get_other_set _ _ _).trans ready
    refine senderWellFormed_of_leads h ?_ (fun _ => hs.operational (by rw [ready]; rfl)) ?_ ?_
      (fun _ => hs.operational (by rw [ready]; rfl))
    · intro hk
      cases hactive.symm.trans hk
    · intro _
      exact ⟨Option.isSome_iff_exists.2 ⟨current, hactive⟩,
        Option.isSome_iff_exists.2 ⟨k, BySelector.get_set_self _ _ _⟩⟩
    intro ha
    cases acknowledging.symm.trans ha
  | rotateAlone current k _ h ready _ alone =>
    have hrot := hs.alone alone
    refine senderWellFormed_of_leads h ?_ (fun _ => hs.operational (by rw [ready]; rfl))
      (fun hr => absurd hr (by simp [sender, hrot])) (fun _ => hrot) hs.pending
    intro hk
    cases (BySelector.get_set_self _ _ _).symm.trans hk
  | switch h _ prepared =>
    have hslots := hs.prepared prepared
    refine senderWellFormed_of_leads h ?_ (fun _ => hs.operational hslots.1)
      nofun (fun _ => rfl) hs.pending
    intro hk
    obtain ⟨k, hother⟩ := Option.isSome_iff_exists.1 hslots.2
    cases hother.symm.trans hk
  | leave _ _ _ h =>
    exact senderWellFormed_of_leads h hs.active hs.operational nofun
      (fun _ => rfl) (fun hp => absurd rfl hp)

end WellFormed

/-! ## Every call is made of such steps -/

section Calls

variable {P : CryptoProvider} {s₀ s t : CryptoSession} {c : CryptoCall}

theorem SenderSteps.quiet (h : Quiet s t) : SenderSteps P s₀ c s t := .single (.quiet h)

theorem SenderSteps.wellFormed (h : SenderSteps P s₀ c s t) (hs : SenderWellFormed s) :
    SenderWellFormed t := by
  induction h with
  | refl => exact hs
  | tail _ hstep ih => exact hstep.wellFormed ih

theorem announcedKeys_reserved {current primary : TrafficKey} {plaintext : Bytes}
    (hactive : s.transmit.get i = some current) (hother : s.transmit.get i.other = some k)
    (h : s.announcedKeys .reserved = some (primary, plaintext)) :
    primary = (i.arrange current k).even
      ∧ plaintext = (i.arrange current k).even.key ++ (i.arrange current k).odd.key := by
  cases i with
  | even =>
    simp only [announcedKeys, EncryptionKey.selector] at h
    rw [show s.transmit.even = some current from hactive,
      show s.transmit.odd = some k from hother] at h
    dsimp only at h
    split at h
    · cases h
      exact ⟨rfl, rfl⟩
    · cases h
  | odd =>
    simp only [announcedKeys, EncryptionKey.selector] at h
    rw [show s.transmit.odd = some current from hactive,
      show s.transmit.even = some k from hother] at h
    dsimp only at h
    split at h
    · cases h
      exact ⟨rfl, rfl⟩
    · cases h

section

variable (s₀ : CryptoSession) (c : CryptoCall)

theorem prepareRotation_steps (horigin : s₀.senderState = s.senderState)
    (hprepared : s₀.rotationPrepared = s.rotationPrepared)
    (hdue : s.effectiveRefreshRate - s.effectivePreannouncement ≤ s.packetsOnActiveKey →
      s₀.rotationDue c) :
    Ensures (prepareRotation P) s (fun _ t => SenderSteps P s₀ c s t)
      (fun _ t => SenderSteps P s₀ c s t) := by
  unfold prepareRotation
  rw [ensures_get_bind]
  split
  · exact .refl
  split
  · exact .refl
  next hacknowledging =>
  split
  · exact .refl
  next hstate =>
  split
  · exact .refl
  next hpoint =>
  obtain ⟨hunprepared, hreached⟩ := not_or.1 hpoint
  have hunprepared : s.rotationPrepared = false := by simpa using hunprepared
  rw [ensures_bind]
  refine generateNextSenderKey_spec.mono ?_ (fun e t ht => .quiet ht)
  rintro _ t ⟨current, k, hcurrent, hdrew, hsame, hlength, ht⟩
  have htransmit : t.transmit = s.transmit.set s.activeSenderKey.other (some k) :=
    congrArg Sender.transmit ht.sender
  rw [ensures_bind]
  refine (buildSenderKeyMaterial_spec .reserved).mono ?_ ?_
  · rintro _ u ⟨primary, plaintext, message, hkeys, hannounces, hu⟩
    rw [ensures_modify]
    have hactive : t.transmit.get s.activeSenderKey = some current := by
      rw [htransmit, BySelector.get_other_set, hcurrent]
    have hother : t.transmit.get s.activeSenderKey.other = some k := by
      rw [htransmit, BySelector.get_set_self]
    obtain ⟨rfl, rfl⟩ := announcedKeys_reserved hactive hother hkeys
    have hlater : Later s u := ht.later.trans hu.later
    refine .single (.rotate current k message (hdrew.mono le_rfl hu.later.calls)
      ⟨⟨hlater.calls, hlater.passphrase, hlater.configurationError⟩, ?_⟩ hcurrent hsame hlength
      hannounces (by simpa using hacknowledging) hunprepared ?_ horigin
      (hprepared.trans hunprepared) (hdue (Nat.le_of_not_lt hreached)))
    · have hsender := hu.sender
      rw [ht.sender] at hsender
      show { u.sender with
        rotationPrepared := true
        pendingAcknowledged := false
        state := .securing } = _
      rw [hsender]
    by_cases hsecured : s.senderState = .secured
    · exact .inl hsecured
    · exact .inr (by_contra fun h => hstate ⟨hsecured, h⟩)
  intro e u hu
  have hstage : SenderStep P s₀ c s t := .stage current k hdrew ht hcurrent hsame hunprepared
  rcases hu with hu | hu
  · exact .tail (.single hstage) (.quiet hu)
  · exact .tail (.single hstage) (.unannounce hu)

theorem generateInitialSenderKey_steps (size : Nat) (hempty : s.transmit = ⟨none, none⟩)
    (heven : s.activeSenderKey = .even) (hoperational : s.Operational) :
    Ensures (generateInitialSenderKey P size) s (fun _ t => SenderSteps P s₀ c s t
        ∧ ∃ k, t.transmit = ⟨some k, none⟩ ∧ t.activeSenderKey = .even)
      (fun _ t => SenderSteps P s₀ c s t ∧ t.transmit = ⟨none, none⟩) := by
  refine (generateInitialSenderKey_spec size).mono ?_ ?_
  · rintro _ t ⟨k, hdrew, hsalt, ht⟩
    have hset : s.transmit.set .even (some k) = ⟨some k, none⟩ := by rw [hempty]; rfl
    rw [hset] at ht
    exact ⟨.single (.initial k hdrew hsalt ht hempty heven hoperational), k,
      congrArg Sender.transmit ht.sender, (congrArg Sender.active ht.sender).trans heven⟩
  intro e t ht
  exact ⟨.quiet ht, (congrArg Sender.transmit ht.sender).trans hempty⟩

theorem buildSenderKeyMaterial_steps (hfirst : s.transmit = ⟨some k, none⟩)
    (heven : s.activeSenderKey = .even) :
    Ensures (buildSenderKeyMaterial P .even) s
      (fun _ t => SenderSteps P s₀ c s t ∧ t.transmit.odd = none)
      (fun _ t => SenderSteps P s₀ c s t ∧ t.transmit.odd = none) := by
  have hodd : s.transmit.odd = none := by rw [hfirst]
  refine (buildSenderKeyMaterial_spec .even).mono ?_ ?_
  · rintro _ t ⟨primary, plaintext, message, hkeys, hannounces, ht⟩
    have hkey : s.announcedKeys .even = some (k, k.key) := by
      simp only [announcedKeys, EncryptionKey.selector, hfirst]
      rfl
    rw [hkey] at hkeys
    cases hkeys
    exact ⟨.single (.announce k message hannounces ht hfirst heven),
      (congrArg (·.transmit.odd) ht.sender).trans hodd⟩
  rintro e t (ht | ht)
  · exact ⟨.quiet ht, (congrArg (·.transmit.odd) ht.sender).trans hodd⟩
  · exact ⟨.single (.unannounce ht), (congrArg (·.transmit.odd) ht.sender).trans hodd⟩

theorem prepareBidirectionalSender_steps (size : Nat)
    (hreset : s.transmit = ⟨none, none⟩ ∨ s.pendingKeyMaterial ∈ s.acknowledgedKeyMaterialHistory)
    (hoperational : s.Operational) :
    Ensures (prepareBidirectionalSender P size) s (fun _ t => SenderSteps P s₀ c s t)
      (fun _ t => SenderSteps P s₀ c s t) := by
  unfold prepareBidirectionalSender
  rw [ensures_modify_bind]
  generalize hu : mk .. = u
  have hlead : SenderStep P s₀ c s u := by
    subst hu
    exact .erase ⟨⟨le_rfl, rfl, rfl⟩, rfl⟩ hreset
  have hoperational : u.Operational := by
    subst hu
    exact hoperational
  rw [ensures_bind]
  refine (generateInitialSenderKey_steps s₀ c size (by subst hu; rfl) (by subst hu; rfl)
    hoperational).mono ?_ ?_
  · rintro _ t ⟨ht, k, hfirst, heven⟩
    refine (buildSenderKeyMaterial_steps s₀ c hfirst heven).mono ?_ ?_
    all_goals
      intro _ w hw
      exact .trans (.head hlead ht) hw.1
  rintro e t ⟨ht, _⟩
  exact .head hlead ht

end

theorem startInitiator_steps (hs : SenderWellFormed s) :
    Ensures (startInitiator P) s (fun _ t => SenderSteps P s₀ c s t)
      (fun _ t => SenderSteps P s₀ c s t) := by
  unfold startInitiator
  rw [ensures_get_bind]
  -- Without keys there is nothing a new state could touch.
  have hidle (state : CryptoState) (receiver : CryptoState) (hne : state ≠ .secured)
      (hn : ¬s.Operational) :
      SenderSteps P s₀ c s { s with senderState := state, receiverState := receiver } := by
    have hnone : s.transmit.get s.activeSenderKey = none := by
      by_contra hk
      exact hn (hs.operational (Option.isSome_iff_ne_none.2 hk))
    exact .single (.settle state s.pendingAcknowledged ⟨⟨le_rfl, rfl, rfl⟩, rfl⟩ hne
      (by rw [(hs.active hnone).1]))
  split
  · next e he =>
    rw [ensures_modify_bind, ensures_throw]
    split
    · exact hidle .badCryptoMode s.receiverState (by decide) (fun ho => by cases he.symm.trans ho.2)
    · exact .refl
  next hconfiguration =>
  split
  · next hdisabled =>
    exact hidle .unsecured .unsecured (by decide) (fun ho => by cases hdisabled.symm.trans ho.1)
  next henabled =>
  split
  · exact .refl
  next hslots =>
  obtain ⟨hev, hod⟩ := not_or.1 hslots
  have hempty : s.transmit = ⟨none, none⟩ := by
    cases hv : s.transmit with
    | mk even odd =>
      rw [hv] at hev hod
      simp only [Option.not_isSome_iff_eq_none] at hev hod
      rw [hev, hod]
  have heven : s.activeSenderKey = .even := (hs.active (by
    rw [hempty]; cases s.activeSenderKey <;> rfl)).2
  have hoperational : s.Operational := ⟨by simpa using henabled, hconfiguration⟩
  have hsettle (t : CryptoSession) (state : CryptoState) (acknowledged : Bool)
      (hne : state ≠ .secured) (ht : SenderSteps P s₀ c s t) (hodd : t.transmit.odd = none) :
      SenderSteps P s₀ c s { t with
        senderState := state, pendingAcknowledged := acknowledged } :=
    .tail ht (.settle state acknowledged ⟨⟨le_rfl, rfl, rfl⟩, rfl⟩ hne hodd)
  rw [ensures_modify_bind]
  generalize hu : mk .. = u
  have hlead : SenderStep P s₀ c s u := by
    subst hu
    exact .quiet ⟨⟨le_rfl, rfl, rfl⟩, rfl⟩
  have hfail (e : Error) (t : CryptoSession) (ht : SenderSteps P s₀ c s t)
      (hodd : t.transmit.odd = none) :
      SenderSteps P s₀ c s { t with
        senderState := if e = .unsupported then .badCryptoMode else .noSecret } :=
    hsettle t _ t.pendingAcknowledged (by split <;> decide) ht hodd
  rw [ensures_bind, ensures_tryCatch, ensures_bind]
  refine (generateInitialSenderKey_steps s₀ c _ (by subst hu; exact hempty)
    (by subst hu; exact heven) (by subst hu; exact hoperational)).mono ?_ ?_
  · rintro _ t ⟨ht, k, hfirst, heven⟩
    have ht : SenderSteps P s₀ c s { t with activeSenderKey := .even } := by
      refine .tail (.head hlead ht) (.quiet ⟨⟨le_rfl, rfl, rfl⟩, ?_⟩)
      rw [← heven]
    rw [ensures_modify_bind]
    refine (buildSenderKeyMaterial_steps s₀ c (s := { t with activeSenderKey := .even }) hfirst
      rfl).mono ?_ ?_
    · rintro _ w ⟨hw, hodd⟩
      exact hsettle w .securing false (by decide) (.trans ht hw) hodd
    rintro e w ⟨hw, hodd⟩
    exact hfail e w (.trans ht hw) hodd
  rintro e t ⟨ht, hempty⟩
  exact hfail e t (.head hlead ht) (by rw [hempty])

theorem continueWithoutPeerKey_steps (reported : CryptoState) :
    Ensures (continueWithoutPeerKey P reported) s
      (fun _ t => SenderSteps P s₀ (.continueWithoutPeerKey reported) s t)
      (fun _ t => SenderSteps P s₀ (.continueWithoutPeerKey reported) s t) := by
  unfold continueWithoutPeerKey ensureLocalKey
  rw [ensures_get_bind]
  split
  · exact .refl
  next henabled =>
  split
  · exact .refl
  next hconfiguration =>
  rw [ensures_modify_bind]
  generalize hu : (if s.effectiveMode = .automatic then _ else s) = u
  have hlead : Quiet s u := by
    subst hu
    split <;> exact ⟨⟨le_rfl, rfl, rfl⟩, rfl⟩
  have hoperational : u.Operational :=
    hlead.later.operational ⟨by simpa using henabled, hconfiguration⟩
  have hleave (t : CryptoSession)
      (ht : SenderSteps P s₀ (.continueWithoutPeerKey reported) s t) (state : CryptoState) :
      SenderSteps P s₀ (.continueWithoutPeerKey reported) s { t with
        senderState := state
        unacknowledgedSending := true
        directionalKeyPending := false
        rotationPrepared := false
        pendingAcknowledged := false
        keyMaterialPending := false
        pendingKeyMaterial := [] } :=
    .tail ht (.leave reported state rfl ⟨⟨le_rfl, rfl, rfl⟩, rfl⟩)
  rw [ensures_bind, ensures_get_bind]
  split
  · exact hleave u (.quiet hlead) _
  next hactive =>
  rw [ensures_modify_bind]
  generalize hv : mk .. = v
  have hdiscard : SenderStep P s₀ (.continueWithoutPeerKey reported) u v := by
    subst hv
    exact .discard ⟨⟨le_rfl, rfl, rfl⟩, rfl⟩ (by simpa using hactive) hoperational
  refine (generateInitialSenderKey_steps s₀ (.continueWithoutPeerKey reported) _
    (by subst hv; rfl) (by subst hv; rfl) (by subst hv; exact hoperational)).mono ?_ ?_
  · rintro _ t ⟨ht, _⟩
    exact hleave t (.trans (.head (.quiet hlead) (.single hdiscard)) ht) _
  rintro e t ⟨ht, _⟩
  exact .trans (.head (.quiet hlead) (.single hdiscard)) ht

/-- Behind the count: nothing is due, a key of this session's own, or the
announced key. -/
theorem noteDataPacketSent_steps :
    Ensures (noteDataPacketSent P) s (fun _ t => SenderSteps P s₀ c s t)
      (fun _ t => SenderSteps P s₀ c s t) := by
  unfold noteDataPacketSent noteSequencesConsumed
  rw [ensures_get_bind]
  split
  · exact .refl
  rw [ensures_modify_bind, ensures_get_bind]
  split
  · next hfull =>
    exact .single (.exhaust ⟨⟨le_rfl, rfl, rfl⟩, rfl⟩ (by
      have hfull : s.packetsOnActiveKey > maximumSequencesPerKey - 1 := hfull
      omega))
  next hroom =>
  rw [ensures_modify_bind, ensures_get_bind]
  generalize hu : countConsumed _ 1 = u
  have hconsume : SenderStep P s₀ c s u := by
    subst hu
    refine .consume ⟨⟨le_rfl, rfl, rfl⟩, rfl⟩ ?_
    have hroom : ¬s.packetsOnActiveKey > maximumSequencesPerKey - 1 := hroom
    have : 0 < maximumSequencesPerKey := by decide
    omega
  split
  · exact .single hconsume
  split
  · next halone =>
    rw [ensures_bind]
    refine generateNextSenderKey_spec.mono ?_ (fun e t ht => .tail (.single hconsume) (.quiet ht))
    rintro _ t ⟨current, k, hcurrent, hdrew, hsame, -, ht⟩
    refine .tail (.single hconsume) (.rotateAlone current k hdrew
      ⟨⟨ht.later.calls, ht.later.passphrase, ht.later.configurationError⟩, ?_⟩
      hcurrent hsame halone)
    show { t.sender with active := t.sender.active.other, packets := 0 } = _
    rw [ht.sender]
    rfl
  next hacknowledging =>
  split
  · exact .single hconsume
  next hready =>
  obtain ⟨hprepared, hacknowledged⟩ := not_or.1 hready
  exact .tail (.single hconsume) (.switch ⟨⟨le_rfl, rfl, rfl⟩, rfl⟩
    (by simpa using hacknowledging) (by simpa using hprepared) (by simpa using hacknowledged))

theorem prepareDataPacket_steps (position : Nat) : Ensures (prepareDataPacket P position) s
      (fun _ t => SenderSteps P s (.prepareDataPacket position) s t)
      (fun _ t => SenderSteps P s (.prepareDataPacket position) s t) := by
  unfold prepareDataPacket
  rw [ensures_get_bind]
  split
  · exact .refl
  split
  · next hfirst =>
    rw [ensures_modify_bind]
    have harrive : SenderStep P s (.prepareDataPacket position) s
        { s with preparedPacketSent := false, preparedSequencePosition := some position } :=
      .arrive position ⟨⟨le_rfl, rfl, rfl⟩, rfl⟩ rfl hfirst
    refine (prepareRotation_steps s (.prepareDataPacket position) (by rfl) (by rfl) ?_).mono
      (fun _ t ht => .head harrive ht) (fun _ t ht => .head harrive ht)
    intro hdue
    exact ⟨s.packetsOnActiveKey, by simp [countFor, hfirst], hdue⟩
  next prepared hlast =>
  split
  · exact .refl
  split
  · exact .refl
  next hbehind hsame =>
  dsimp only
  split
  · exact .refl
  next hroom =>
  obtain ⟨hskip, hcount⟩ := not_or.1 hroom
  have hahead : prepared < position := by omega
  rw [ensures_modify_bind]
  have hstep : SenderStep P s (.prepareDataPacket position) s
      { s with
        packetsOnActiveKey := s.packetsOnActiveKey + s.skippedPositions prepared position
        preparedPacketSent := false
        preparedSequencePosition := some position } :=
    .skip prepared position ⟨⟨le_rfl, rfl, rfl⟩, rfl⟩ rfl hlast hahead (by omega)
  refine (prepareRotation_steps s (.prepareDataPacket position) (by rfl) (by rfl) ?_).mono
    (fun _ t ht => .head hstep ht) (fun _ t ht => .head hstep ht)
  intro hdue
  exact ⟨_, by simp [countFor, hlast, hahead], hdue⟩

/-! ### The receive half -/

theorem rejectKeyMaterial_spec {α : Type} (e : Error) (state : CryptoState) :
    Ensures (rejectKeyMaterial e state : CryptoM α) s (fun _ _ => False)
      (fun _ t => Quiet s t) := by
  unfold rejectKeyMaterial
  rw [ensures_modify_bind, ensures_throw]
  split <;> exact ⟨⟨le_rfl, rfl, rfl⟩, rfl⟩

theorem openKeyMaterial_spec (request : Bytes) :
    Ensures (openKeyMaterial P request) s (fun _ t => Quiet s t) (fun _ t => Quiet s t) := by
  unfold openKeyMaterial
  rw [ensures_get_bind]
  have hreject (t : CryptoSession) (ht : Quiet s t) (e : Error) (state : CryptoState) :
      Ensures (rejectKeyMaterial e state : CryptoM OpenedKeyMaterial) t
        (fun _ u => Quiet s u) (fun _ u => Quiet s u) :=
    (rejectKeyMaterial_spec e state).mono (fun _ _ h => h.elim) (fun _ u hu => ht.trans hu)
  split
  · exact hreject s (Quiet.refl s) _ _
  split
  · exact hreject s (Quiet.refl s) _ _
  dsimp only
  rw [ensures_tryCatch, ensures_bind]
  refine (deriveKeyEncryptionKey_spec _ _ _ _).mono ?_ (fun e t ht => hreject t ht _ _)
  intro kek t ht
  have hcalled : Quiet s t.called := ht.trans (quiet_called t)
  rw [ensures_bind]
  refine ensures_provided (fun plaintext _ => ?_) (fun e _ => hreject _ hcalled _ _)
  split
  · exact hcalled
  · exact hreject _ hcalled .cryptographicFailure .badSecret

theorem installReceiveKey_spec (i : KeySelector) (key salt : Bytes) (mode : CryptoMode) :
    Ensures (installReceiveKey P i key salt mode) s (fun _ t => Quiet s t)
      (fun _ t => Quiet s t) := by
  unfold installReceiveKey
  rw [ensures_get_bind]
  split
  · exact Quiet.refl s
  rw [ensures_bind]
  refine (makeKey_spec key salt mode).mono ?_ ?_
  · rintro k t ⟨-, -, n, rfl⟩
    exact ⟨⟨Nat.le_add_right _ _, rfl, rfl⟩, rfl⟩
  rintro e t ⟨n, rfl⟩
  exact ⟨⟨Nat.le_add_right _ _, rfl, rfl⟩, rfl⟩

theorem installReceiveKeys_spec (salt : Bytes) (mode : CryptoMode) :
    ∀ (keys : List (KeySelector × Bytes)) (s : CryptoSession),
      Ensures (installReceiveKeys P salt mode keys) s (fun _ t => Quiet s t) (fun _ t => Quiet s t)
  | [], s => Quiet.refl s
  | (i, key) :: keys, s => by
    unfold installReceiveKeys
    rw [ensures_bind]
    refine (installReceiveKey_spec i key salt mode).mono ?_ (fun e t ht => ht)
    intro _ t ht
    refine (installReceiveKeys_spec salt mode keys t).mono ?_ ?_ <;>
      exact fun _ u hu => ht.trans hu

theorem cloneToReceive_spec (i : KeySelector) :
    Ensures (cloneToReceive P i) s (fun _ t => Quiet s t) (fun _ t => Quiet s t) := by
  unfold cloneToReceive
  rw [ensures_get_bind]
  split
  · exact ⟨⟨le_rfl, rfl, rfl⟩, rfl⟩
  rw [ensures_bind]
  refine (makeKey_spec _ _ _).mono ?_ ?_
  · rintro k t ⟨-, -, n, rfl⟩
    exact ⟨⟨Nat.le_add_right _ _, rfl, rfl⟩, rfl⟩
  rintro e t ⟨n, rfl⟩
  exact ⟨⟨Nat.le_add_right _ _, rfl, rfl⟩, rfl⟩

theorem cloneTransmitKeysToReceive_spec :
    Ensures (cloneTransmitKeysToReceive P) s (fun _ t => Quiet s t) (fun _ t => Quiet s t) := by
  unfold cloneTransmitKeysToReceive
  rw [ensures_modify_bind, ensures_bind]
  have hclear : Quiet s { s with receiveHistory := ⟨{}, {}⟩, frontier := none } :=
    ⟨⟨le_rfl, rfl, rfl⟩, rfl⟩
  refine (cloneToReceive_spec .even).mono ?_ (fun e t ht => hclear.trans ht)
  intro _ t ht
  rw [ensures_bind]
  refine (cloneToReceive_spec .odd).mono ?_ (fun e u hu => (hclear.trans ht).trans hu)
  intro _ u hu
  exact ((hclear.trans ht).trans hu).trans ⟨⟨le_rfl, rfl, rfl⟩, rfl⟩

theorem acceptKeyMaterial_steps (request : Bytes) (clone : Bool) :
    Ensures (acceptKeyMaterial P request clone) s (fun _ t => SenderSteps P s₀ c s t)
      (fun _ t => SenderSteps P s₀ c s t) := by
  unfold acceptKeyMaterial prepareReverseDirection
  rw [ensures_get_bind]
  have hreject (t : CryptoSession) (ht : Quiet s t) (e : Error) (state : CryptoState) :
      Ensures (rejectKeyMaterial e state : CryptoM Unit) t
        (fun _ _ => False) (fun _ u => SenderSteps P s₀ c s u) :=
    (rejectKeyMaterial_spec e state).mono (fun _ _ h => h) (fun _ u hu => .quiet (ht.trans hu))
  split
  · exact (hreject s (Quiet.refl s) _ _).mono (fun _ _ h => h.elim) (fun _ _ h => h)
  next hconfiguration =>
  split
  · exact .quiet ⟨⟨le_rfl, rfl, rfl⟩, rfl⟩
  next henabled =>
  split
  · exact .quiet ⟨⟨le_rfl, rfl, rfl⟩, rfl⟩
  rw [ensures_bind]
  refine (openKeyMaterial_spec request).mono ?_ (fun _ t ht => .quiet ht)
  intro m t ht
  rw [ensures_get_bind]
  split
  · exact (hreject t ht _ _).mono (fun _ _ h => h.elim) (fun _ _ h => h)
  rw [ensures_bind, ensures_tryCatch]
  refine (installReceiveKeys_spec m.salt m.mode m.keys t).mono ?_ ?_
  · intro _ u hu
    rw [ensures_modify_bind, ensures_bind, ensures_get_bind]
    generalize hv : mk .. = v
    have hv : Quiet s v := by
      subst hv
      exact (ht.trans hu).trans ⟨⟨le_rfl, rfl, rfl⟩, rfl⟩
    have hfinish (w : CryptoSession) (hw : SenderSteps P s₀ c s w) (receiveKek : _)
        (history : List Bytes) : SenderSteps P s₀ c s { w with
          receiveKek := receiveKek
          receivedKeyMaterialHistory := history
          keyMaterialResponse := request } :=
      .tail hw (.quiet ⟨⟨le_rfl, rfl, rfl⟩, rfl⟩)
    split
    · next hclone =>
      have hempty : v.transmit = ⟨none, none⟩ := by
        obtain ⟨-, heven, hodd⟩ := hclone
        rw [Option.isNone_iff_eq_none] at heven hodd
        show (⟨v.transmit.even, v.transmit.odd⟩ : BySelector _) = _
        rw [heven, hodd]
      refine (prepareBidirectionalSender_steps s₀ c _ (.inl hempty)
        (hv.later.operational ⟨by simpa using henabled, hconfiguration⟩)).mono ?_ ?_
      · intro _ w hw
        exact hfinish w (.head (.quiet hv) hw) _ _
      intro _ w hw
      exact .head (.quiet hv) hw
    · exact hfinish v (.quiet hv) _ _
  intro e u hu
  exact (hreject u (ht.trans hu) _ _).mono (fun _ _ h => h.elim) (fun _ _ h => h)

theorem reverseDirections_steps (s₀ : CryptoSession) (c : CryptoCall) (response : Bytes)
    (hacknowledged : s.pendingKeyMaterial ∈ s.acknowledgedKeyMaterialHistory)
    (hoperational : s.Operational) :
    Ensures (reverseDirections P response) s (fun _ t => SenderSteps P s₀ c s t)
      (fun _ t => SenderSteps P s₀ c s t) := by
  unfold reverseDirections
  rw [ensures_modify_bind, ensures_get_bind, ensures_bind]
  have hreverse : SenderStep P s₀ c s
      { s with senderState := .securing, directionalKeyPending := true } :=
    .reverse ⟨⟨le_rfl, rfl, rfl⟩, rfl⟩ hacknowledged
  refine cloneTransmitKeysToReceive_spec.mono ?_ 
    (fun _ t ht => .head hreverse (.single (.quiet ht)))
  intro _ t ht
  rw [ensures_modify_bind]
  have hreset : t.pendingKeyMaterial ∈ t.acknowledgedKeyMaterialHistory := by
    rw [show t.pendingKeyMaterial = s.pendingKeyMaterial from congrArg Sender.pending ht.sender,
      show t.acknowledgedKeyMaterialHistory = s.acknowledgedKeyMaterialHistory from
        congrArg Sender.acknowledged ht.sender]
    exact hacknowledged
  have hquiet (history : List Bytes) :
      SenderStep P s₀ c t { t with receivedKeyMaterialHistory := history } :=
    .quiet ⟨⟨le_rfl, rfl, rfl⟩, rfl⟩
  refine (prepareBidirectionalSender_steps s₀ c _ (.inr (by exact hreset))
    (by exact ht.later.operational hoperational)).mono ?_ ?_ <;>
    exact fun _ w hw => .head hreverse (.head (.quiet ht) (.head (hquiet _) hw))

theorem confirmPending_steps (s₀ : CryptoSession) (response : Bytes) (clone : Bool)
    (hs : SenderWellFormed s) (hpending : response = s.pendingKeyMaterial)
    (hnonempty : response ≠ []) (hfresh : response ∉ s.acknowledgedKeyMaterialHistory) :
    Ensures (confirmPending P response clone) s
      (fun _ t => SenderSteps P s₀ (.acknowledgeKeyMaterial response clone) s t)
      (fun _ t => SenderSteps P s₀ (.acknowledgeKeyMaterial response clone) s t) := by
  unfold confirmPending
  rw [ensures_modify_bind, ensures_get_bind]
  generalize hu : mk .. = u
  have hconfirm : SenderStep P s₀ (.acknowledgeKeyMaterial response clone) s u := by
    subst hu
    exact .confirm response clone rfl ⟨⟨le_rfl, rfl, rfl⟩, rfl⟩ hpending hnonempty hfresh
  split
  · have hremembered : u.pendingKeyMaterial ∈ u.acknowledgedKeyMaterialHistory := by
      subst hu
      show s.pendingKeyMaterial ∈ rememberKeyMaterial _ response
      rw [← hpending]
      exact List.mem_cons_self
    have hoperational : u.Operational := by
      subst hu
      exact hs.pending (hpending ▸ hnonempty)
    refine (reverseDirections_steps s₀ (.acknowledgeKeyMaterial response clone) response
      hremembered hoperational).mono ?_ ?_ <;>
      exact fun _ t ht => .head hconfirm ht
  · exact .single hconfirm

theorem acknowledgeKeyMaterial_steps (response : Bytes) (clone : Bool) (hs : SenderWellFormed s) :
    Ensures (acknowledgeKeyMaterial P response clone) s
      (fun _ t => SenderSteps P s (.acknowledgeKeyMaterial response clone) s t)
      (fun _ t => SenderSteps P s (.acknowledgeKeyMaterial response clone) s t) := by
  have hdemote (state : CryptoState) (hreported : state = .secured →
      response.length = 4 ∧ decodeKeyMaterialState response = some .secured) :
      SenderSteps P s (.acknowledgeKeyMaterial response clone) s (s.demote state) := by
    unfold demote
    split
    · exact .refl
    next h =>
    exact .single (.demote response clone state rfl ⟨⟨le_rfl, rfl, rfl⟩, rfl⟩ (by simpa using h)
      (by simpa using h) hreported)
  unfold acknowledgeKeyMaterial
  rw [ensures_get_bind]
  split
  · next hlength =>
    refine hdemote _ fun hstate => ⟨hlength, ?_⟩
    cases hdecode : decodeKeyMaterialState response with
    | none => rw [hdecode] at hstate; cases hstate
    | some state => rw [hdecode] at hstate; rw [show state = .secured from hstate]
  split
  · exact .refl
  next hfresh =>
  split
  · exact hdemote .badSecret nofun
  next hpending =>
  split
  · exact .refl
  obtain ⟨hnonempty, hsame⟩ := not_or.1 hpending
  have hsame : response = s.pendingKeyMaterial := by simpa using hsame
  exact confirmPending_steps s response clone hs hsame
    (by rw [hsame]; simpa using hnonempty) (by simpa using hfresh)

/-! ### DATA -/

theorem encrypt_quiet (sequence : SequenceNumber) (plaintext : Bytes) :
    Ensures (encrypt P sequence plaintext) s (fun _ t => Quiet s t) (fun _ t => Quiet s t) := by
  unfold encrypt
  rw [ensures_get_bind]
  iterate 5
    split
    · exact Quiet.refl s
  rw [ensures_bind]
  exact ensures_provided (fun _ _ => quiet_called s) (fun _ _ => quiet_called s)

theorem sealPacket_quiet (header : DataHeader) (plaintext : Bytes) :
    Ensures (sealPacket P header plaintext) s (fun _ t => Quiet s t) (fun _ t => Quiet s t) := by
  unfold sealPacket
  rw [ensures_get_bind]
  iterate 4
    split
    · exact Quiet.refl s
  rw [ensures_bind]
  exact ensures_provided (fun _ _ => quiet_called s) (fun _ _ => quiet_called s)

theorem quiet_markReceived (s : CryptoSession) (i : KeySelector) (place : ReceivePlace) :
    Quiet s (s.markReceived i place) := by
  cases place <;> exact ⟨⟨le_rfl, rfl, rfl⟩, rfl⟩

theorem quiet_noteAuthenticatedReceiveSequence (s : CryptoSession) (sequence : SequenceNumber) :
    Quiet s (s.noteAuthenticatedReceiveSequence sequence) := by
  unfold noteAuthenticatedReceiveSequence
  split
  · exact ⟨⟨le_rfl, rfl, rfl⟩, rfl⟩
  dsimp only
  split
  · split <;> exact ⟨⟨le_rfl, rfl, rfl⟩, rfl⟩
  · exact Quiet.refl s

theorem decrypt_quiet (key : EncryptionKey) (sequence : SequenceNumber) (ciphertext : Bytes) :
    Ensures (decrypt P key sequence ciphertext) s (fun _ t => Quiet s t)
      (fun _ t => Quiet s t) := by
  unfold decrypt
  rw [ensures_get_bind]
  split
  · split <;> exact Quiet.refl s
  iterate 3
    split
    · exact Quiet.refl s
  rw [ensures_bind]
  refine ensures_provided (fun _ _ => ?_) (fun _ _ => quiet_called s)
  exact (quiet_called s).trans (quiet_markReceived _ _ _)

theorem openPacket_quiet (header : DataHeader) (ciphertext tag : Bytes) :
    Ensures (openPacket P header ciphertext tag) s (fun _ t => Quiet s t)
      (fun _ t => Quiet s t) := by
  unfold openPacket
  rw [ensures_get_bind]
  iterate 3
    split
    · exact Quiet.refl s
  rw [ensures_bind]
  refine ensures_provided (fun _ _ => ?_) (fun _ _ => quiet_called s)
  exact ((quiet_called s).trans (quiet_markReceived _ _ _)).trans
    (quiet_noteAuthenticatedReceiveSequence _ _)

/-- Every call is made of sender steps. -/
theorem perform_steps (hs : SenderWellFormed s) (c : CryptoCall) :
    Ensures (perform P c) s (fun _ t => SenderSteps P s c s t)
      (fun _ t => SenderSteps P s c s t) := by
  cases c with
  | startInitiator => exact startInitiator_steps hs
  | acceptKeyMaterial request clone => exact acceptKeyMaterial_steps request clone
  | acknowledgeKeyMaterial response clone => exact acknowledgeKeyMaterial_steps response clone hs
  | continueWithoutPeerKey reported => exact continueWithoutPeerKey_steps reported
  | prepareRotation =>
    exact prepareRotation_steps s _ rfl rfl fun hdue => ⟨_, rfl, hdue⟩
  | setPreannouncementFloor positions => exact .quiet ⟨⟨le_rfl, rfl, rfl⟩, rfl⟩
  | prepareDataPacket position => exact prepareDataPacket_steps position
  | noteDataPacketSent => exact noteDataPacketSent_steps
  | encrypt sequence plaintext =>
    exact ensures_discard.2 ((encrypt_quiet sequence plaintext).mono
      (fun _ _ h => .quiet h) (fun _ _ h => .quiet h))
  | sealPacket header plaintext =>
    exact ensures_discard.2 ((sealPacket_quiet header plaintext).mono
      (fun _ _ h => .quiet h) (fun _ _ h => .quiet h))
  | decrypt key sequence ciphertext =>
    exact ensures_discard.2 ((decrypt_quiet key sequence ciphertext).mono
      (fun _ _ h => .quiet h) (fun _ _ h => .quiet h))
  | openPacket header ciphertext tag =>
    exact ensures_discard.2 ((openPacket_quiet header ciphertext tag).mono
      (fun _ _ h => .quiet h) (fun _ _ h => .quiet h))
  | noteAcceptedReceiveSequence sequence =>
    exact .quiet (quiet_noteAuthenticatedReceiveSequence s sequence)

theorem after_of_ensures {Q : CryptoSession → Prop}
    (h : Ensures (perform P c) s (fun _ t => Q t) (fun _ t => Q t)) : Q (s.after P c) := by
  unfold after
  rcases h.cases with ⟨_, t, hrun, ht⟩ | ⟨_, t, hrun, ht⟩
  all_goals
    rw [hrun]
    exact ht

theorem after_of_succeeds {Q : CryptoSession → Prop} {err : Error → CryptoSession → Prop}
    (h : Ensures (perform P c) s (fun _ t => Q t) err) (hok : s.succeeds P c = true) :
    Q (s.after P c) := by
  unfold after
  unfold CryptoSession.succeeds at hok
  rcases h.cases with ⟨_, t, hrun, ht⟩ | ⟨_, t, hrun, ht⟩
  · rw [hrun]
    exact ht
  rw [hrun] at hok
  cases hok

theorem after_steps (hs : SenderWellFormed s) (c : CryptoCall) :
    SenderSteps P s c s (s.after P c) :=
  after_of_ensures (perform_steps hs c)

theorem after_later (hs : SenderWellFormed s) (c : CryptoCall) : Later s (s.after P c) := by
  have hsteps := after_steps (P := P) hs c
  generalize s.after P c = t at hsteps ⊢
  induction hsteps with
  | refl => exact Later.refl s
  | tail _ hstep ih => exact ih.trans hstep.later

theorem senderWellFormed_ofConfiguration (P : CryptoProvider) (c : CryptoConfiguration) :
    SenderWellFormed (ofConfiguration P c) := by
  unfold ofConfiguration
  dsimp only
  split <;> exact ⟨fun _ => ⟨rfl, rfl⟩, nofun, nofun, nofun, fun h => absurd rfl h⟩

end Calls

/-! ## Keys come from the random source -/

/-- The random source does not give the bytes of a key twice. -/
def FreshKeys (P : CryptoProvider) : Prop :=
  ∀ i j n m a b, validAesKeySize n = true → P.randomBytes i n = .ok a →
    P.randomBytes j m = .ok b → a.val = b.val → i = j

theorem exampleProvider_randomBytes_inj {failing : List Nat} {i j n m : Nat} {a b}
    (hn : n ≠ 0) (ha : (exampleProvider failing).randomBytes i n = .ok a)
    (hb : (exampleProvider failing).randomBytes j m = .ok b) (heq : a.val = b.val) : i = j := by
  simp only [exampleProvider] at ha hb
  split at ha
  · next hi =>
    split at hb
    · next hj =>
      cases ha
      cases hb
      obtain ⟨-, h⟩ := List.replicate_inj.1 heq
      have hbyte := congrArg UInt8.toNat (h.resolve_left hn)
      simp only [UInt8.toNat_ofNat'] at hbyte
      omega
    · cases hb
  · cases ha

theorem exampleProvider_freshKeys (failing : List Nat) : FreshKeys (exampleProvider failing) := by
  intro i j n m a b hvalid ha hb heq
  refine exampleProvider_randomBytes_inj ?_ ha hb heq
  rintro rfl
  cases hvalid

/-- `key` was drawn in one of the first `n` provider calls. -/
def DrawnBefore (P : CryptoProvider) (n : Nat) (key : Bytes) : Prop :=
  ∃ call size b, call < n ∧ P.randomBytes call size = .ok b ∧ b.val = key

theorem DrawnBefore.mono {n m : Nat} (h : DrawnBefore P n key) (hle : n ≤ m) :
    DrawnBefore P m key := by
  obtain ⟨call, size, b, hcall, hb⟩ := h
  exact ⟨call, size, b, Nat.lt_of_lt_of_le hcall hle, hb⟩

theorem CryptoSession.Drew.drawnBefore {s t : CryptoSession} (h : Drew P s t key) :
    DrawnBefore P t.providerCalls key := by
  obtain ⟨-, call, size, b, -, hcall, hb⟩ := h
  exact ⟨call, size, b, hcall, hb⟩

/-- A key that is drawn is none that was. -/
theorem CryptoSession.Drew.ne (hfresh : FreshKeys P) {s t : CryptoSession} {old : Bytes}
    (h : Drew P s t key) (hold : DrawnBefore P s.providerCalls old) : old ≠ key := by
  obtain ⟨hvalid, call, size, b, hge, -, hb, rfl⟩ := h
  obtain ⟨call', size', b', hlt, hb', rfl⟩ := hold
  intro heq
  have hsize : validAesKeySize size = true := by rw [← b.property]; exact hvalid
  have := hfresh call call' size size' b b' hsize hb hb' heq.symm
  omega

/-- A salted key from the random source. -/
structure Known (P : CryptoProvider) (n : Nat) (k : TrafficKey) : Prop where
  drawn : DrawnBefore P n k.key
  salted : k.salt.length = srtSaltSize

/-- Every key of the transmit slots is known. -/
def SlotsKnown (P : CryptoProvider) (s : CryptoSession) : Prop :=
  ∀ i, ∀ k ∈ s.transmit.get i, Known P s.providerCalls k

section Known

variable {P : CryptoProvider} {s₀ s t : CryptoSession} {c : CryptoCall}

theorem Known.mono {n m : Nat} (h : Known P n k) (hle : n ≤ m) : Known P m k :=
  ⟨h.drawn.mono hle, h.salted⟩

section

variable (h : SlotsKnown P s) (hlater : Later s t)
include h hlater

/-- The slots stay known when each new one is. -/
theorem SlotsKnown.of_slots
    (hslots : ∀ i, ∀ k ∈ t.transmit.get i, k ∈ s.transmit.get i ∨ Known P t.providerCalls k) :
    SlotsKnown P t :=
  fun i k hk => (hslots i k hk).elim (fun hk => (h i k hk).mono hlater.calls) id

theorem SlotsKnown.same (htransmit : t.transmit = s.transmit) : SlotsKnown P t :=
  h.of_slots hlater fun _ _ hk => .inl (htransmit ▸ hk)

theorem SlotsKnown.none (htransmit : t.transmit = ⟨none, none⟩) : SlotsKnown P t := by
  refine h.of_slots hlater fun i k hk => ?_
  rw [htransmit] at hk
  cases i <;> cases hk

theorem SlotsKnown.set (hk : Known P t.providerCalls k)
    (htransmit : t.transmit = s.transmit.set i (some k)) : SlotsKnown P t := by
  refine h.of_slots hlater fun j k' hk' => ?_
  rw [htransmit] at hk'
  by_cases hj : j = i
  · subst hj
    rw [BySelector.get_set_self] at hk'
    cases hk'
    exact .inr hk
  rw [BySelector.get_set_of_ne _ _ hj] at hk'
  exact .inl hk'

end

/-- A next key has the salt of the active one. -/
theorem SlotsKnown.next (h : SlotsKnown P s) {current : TrafficKey}
    (hcurrent : s.transmit.get i = some current) (hdrew : Drew P s t k.key)
    (hsame : k = { current with key := k.key, receivedPayload := false }) :
    Known P t.providerCalls k := by
  refine ⟨hdrew.drawnBefore, ?_⟩
  rw [hsame]
  exact (h i current hcurrent).salted

/-- A step keeps the transmit slots, empties them, or puts a drawn key into
one: the first of all, or one next to the active key. -/
theorem SenderStep.transmit_cases (h : SenderStep P s₀ c s t) :
    t.transmit = s.transmit ∨ t.transmit = ⟨none, none⟩
      ∨ ∃ i k, Drew P s t k.key ∧ t.transmit = s.transmit.set i (some k)
        ∧ (s.transmit = ⟨none, none⟩ ∧ i = .even ∧ k.salt.length = srtSaltSize
          ∨ ∃ current, s.transmit.get s.activeSenderKey = some current ∧ i = s.activeSenderKey.other
            ∧ k = { current with key := k.key, receivedPayload := false }) := by
  have htransmit {v : Sender} (h : Leads s t v) : t.transmit = v.transmit :=
    congrArg Sender.transmit h.sender
  cases h with
  | erase h | discard h => exact .inr (.inl (htransmit h))
  | initial k drew salted h empty =>
    refine .inr (.inr ⟨.even, k, drew, ?_, .inl ⟨empty, rfl, salted⟩⟩)
    rw [htransmit h, empty]
    rfl
  | stage current k drew h ready same | rotate current k _ drew h ready same
  | rotateAlone current k drew h ready same =>
    exact .inr (.inr ⟨_, k, drew, htransmit h, .inr ⟨current, ready, rfl, same⟩⟩)
  | quiet h | announce _ _ _ h | unannounce h | settle _ _ h | consume h | exhaust h
  | switch h | arrive _ h | skip _ _ h | leave _ _ _ h | demote _ _ _ _ h | confirm _ _ _ h
  | reverse h => exact .inl (htransmit h)

theorem SenderStep.slotsKnown (h : SenderStep P s₀ c s t) (hs : SlotsKnown P s) :
    SlotsKnown P t := by
  rcases h.transmit_cases with heq | heq | ⟨i, k, drew, heq, ⟨-, -, salted⟩ | ⟨_, ready, -, same⟩⟩
  · exact hs.same h.later heq
  · exact hs.none h.later heq
  · exact hs.set h.later ⟨drew.drawnBefore, salted⟩ heq
  · exact hs.set h.later (hs.next ready drew same) heq

theorem SlotsKnown.after (h : SlotsKnown P s) (hs : SenderWellFormed s) (c : CryptoCall) :
    SlotsKnown P (s.after P c) := by
  have hsteps := after_steps (P := P) hs c
  generalize s.after P c = t at hsteps
  induction hsteps with
  | refl => exact h
  | tail _ hstep ih => exact hstep.slotsKnown ih

end Known

end Srt
