/-
# `Crypto.Session` — the two crypto directions of a connection

`CryptoSession` of `src/crypto.cpp`, without a shared transmit schedule and
without session authentication.

The provider stands for the crypto library and the random source.  Each of
its functions gets the number of the call, so it may answer every call
differently and fail at any of them; the session counts its calls.  A cipher
object is determined by its key, so a key slot is a key or nothing.

Operations run in `EStateM`: a write in front of an error return stays.
-/
import Srt.Crypto.KeyMaterial
import Srt.Lib.Fallible

namespace Srt

/-! ## Constants and initialization vectors -/

def pbkdf2SaltSize : Nat := 8

def srtPbkdf2Iterations : Nat := 2048

def minimumPassphraseSize : Nat := 10

def maximumPassphraseSize : Nat := 80

def defaultKeyRefreshRate : Nat := 16777216

def maximumKeyRefreshRate : Nat := 2 ^ 31 - 1

def effectiveKeyRefreshCap : Nat := 2 ^ 30

def maximumSequencesPerKey : Nat := 2 ^ 31 - 1

def defaultKeyPreannouncement : Nat := 4096

/-- The first `offset + 4` salt bytes, the big-endian sequence number added to
the last four. -/
def xorSequence (sequence : SequenceNumber) (salt : Bytes) (offset : Nat) : Bytes :=
  salt.take offset ++ List.zipWith (· ^^^ ·) ((salt.drop offset).take 4) (writeU32 sequence.value)

/-- `make_srt_ctr_initialization_vector`: the last two bytes count blocks. -/
def makeSrtCtrInitializationVector (sequence : SequenceNumber) (salt : Bytes) : Bytes :=
  xorSequence sequence salt 10 ++ [0, 0]

/-- `make_srt_gcm_initialization_vector`. -/
def makeSrtGcmInitializationVector (sequence : SequenceNumber) (salt : Bytes) : Bytes :=
  xorSequence sequence salt 8

/-! ## Negotiation -/

inductive CryptoNegotiationContext
  | callerListener
  | rendezvous
  deriving DecidableEq, Repr

/-- `negotiate_crypto_mode`; `none` where the modes are not compatible. -/
def negotiateCryptoMode (context : CryptoNegotiationContext)
    (initiator responder : CryptoMode) : Option CryptoMode :=
  let selected := if initiator = .automatic then .aesCtr else initiator
  if responder = .automatic then
    if context = .rendezvous ∧ selected = .aesGcm then none else some selected
  else if responder = selected then some selected
  else none

inductive CryptoState
  | unsecured
  | securing
  | secured
  | noSecret
  | badSecret
  | badCryptoMode
  deriving DecidableEq, Repr

def CryptoState.ofByte (b : UInt8) : Option CryptoState :=
  if b = 0 then some .unsecured
  else if b = 1 then some .securing
  else if b = 2 then some .secured
  else if b = 3 then some .noSecret
  else if b = 4 then some .badSecret
  else if b = 5 then some .badCryptoMode
  else none

/-- `decode_key_material_state`: the state byte stands first or last. -/
def decodeKeyMaterialState : Bytes → Option CryptoState
  | [a, 0, 0, 0] => CryptoState.ofByte a
  | [0, 0, 0, d] => CryptoState.ofByte d
  | _ => none

/-! ## Provider -/

/-- `CryptoProvider` with the ciphers it makes.  A filled buffer has the size
asked for. -/
structure CryptoProvider where
  supportsAesGcm : Bool
  randomBytes : (call size : Nat) → Except Error { b : Bytes // b.length = size }
  pbkdf2HmacSha1 : (call : Nat) → (password salt : Bytes) → (iterations size : Nat) →
    Except Error { b : Bytes // b.length = size }
  wrapKey : (call : Nat) → (kek plaintext : Bytes) → Except Error Bytes
  unwrapKey : (call : Nat) → (kek wrapped : Bytes) → Except Error Bytes
  /-- Success may still come without a cipher object. -/
  makeAesCtrCipher : (call : Nat) → (key : Bytes) → Except Error Bool
  makeAesGcmCipher : (call : Nat) → (key : Bytes) → Except Error Bool
  transform : (call : Nat) → (key iv input : Bytes) → Except Error Bytes
  /-- The additional data is the header, its retransmission bit cleared. -/
  sealData : (call : Nat) → (key iv : Bytes) → DataHeader → (plaintext : Bytes) →
    Except Error (Bytes × Bytes)
  openData : (call : Nat) → (key iv : Bytes) → DataHeader → (ciphertext tag : Bytes) →
    Except Error Bytes

/-! ## Session state -/

/-- The two selectors that name a slot. -/
inductive KeySelector
  | even
  | odd
  deriving DecidableEq, Repr

def KeySelector.other : KeySelector → KeySelector
  | .even => .odd
  | .odd => .even

@[simp] theorem KeySelector.other_other (i : KeySelector) : i.other.other = i := by
  cases i <;> rfl

def KeySelector.key : KeySelector → EncryptionKey
  | .even => .even
  | .odd => .odd

/-- The slot an `EncryptionKey` names, if it names one. -/
def EncryptionKey.selector : EncryptionKey → Option KeySelector
  | .even => some .even
  | .odd => some .odd
  | _ => Option.none

/-- A pair of members, one for each selector. -/
structure BySelector (α : Type) where
  even : α
  odd : α
  deriving DecidableEq, Repr

namespace BySelector

variable {α : Type}

variable (p : BySelector α)

def get : KeySelector → α
  | .even => p.even
  | .odd => p.odd

def set : KeySelector → α → BySelector α
  | .even, a => { p with even := a }
  | .odd, a => { p with odd := a }

section

variable (i : KeySelector) (a : α)

@[simp] theorem get_set_self : (p.set i a).get i = a := by
  cases i <;> rfl

@[simp] theorem get_other_set : (p.set i.other a).get i = p.get i := by
  cases i <;> rfl

end

theorem get_set_of_ne {i j : KeySelector} (a : α) (h : j ≠ i) : (p.set i a).get j = p.get j := by
  cases i <;> cases j <;> first | rfl | exact absurd rfl h

end BySelector

/-- A ready `KeySlot`. -/
structure TrafficKey where
  salt : Bytes
  key : Bytes
  mode : CryptoMode
  receivedPayload : Bool := false
  deriving DecidableEq, Repr

/-- The same key under the same salt and mode. -/
def TrafficKey.is (k : TrafficKey) (key salt : Bytes) (mode : CryptoMode) : Bool :=
  k.mode == mode && k.key == key && k.salt == salt

/-- A retired key with the receive frontier at its replacement, if one was
known. -/
structure ReceiveKeyGeneration where
  slot : TrafficKey
  ceiling : Option Int := none
  deriving DecidableEq, Repr

def receiveKeyHistoryCapacity : Nat := 4

def keyMaterialHistoryCapacity : Nat := 4

def retiredTransmitKeyCapacity : Nat := 8

/-- Retired keys of one selector, newest first, and the ceiling of the last
one pushed out. -/
structure ReceiveKeyHistory where
  generations : List ReceiveKeyGeneration := []
  discarded : Option Int := none
  deriving DecidableEq, Repr

/-- `KeyEncryptionKeyCache`. -/
structure KeyEncryptionKey where
  salt : Bytes
  key : Bytes
  deriving DecidableEq, Repr

structure CryptoConfiguration where
  passphrase : Bytes := []
  mode : CryptoMode := .automatic
  negotiationContext : CryptoNegotiationContext := .callerListener
  enableAesGcm : Bool := false
  keyLength : Nat := 16
  refreshRatePackets : Nat := defaultKeyRefreshRate
  preannouncementPackets : Nat := defaultKeyPreannouncement
  deriving DecidableEq, Repr

structure CryptoSession where
  passphrase : Bytes
  configuredMode : CryptoMode
  negotiationContext : CryptoNegotiationContext
  aesGcmEnabled : Bool
  configuredKeyLength : Nat
  refreshRatePackets : Nat
  preannouncementPackets : Nat
  configurationError : Option Error := none
  transmitKek : Option KeyEncryptionKey := none
  receiveKek : Option KeyEncryptionKey := none
  effectiveMode : CryptoMode := .automatic
  preannouncementFloor : Nat := 0
  transmit : BySelector (Option TrafficKey) := ⟨none, none⟩
  retiredTransmitKeys : List Bytes := []
  receive : BySelector (Option TrafficKey) := ⟨none, none⟩
  receiveHistory : BySelector ReceiveKeyHistory := ⟨{}, {}⟩
  /-- `highest_receive_sequence_` and its position, once known. -/
  frontier : Option (SequenceNumber × Int) := none
  pendingKeyMaterial : Bytes := []
  keyMaterialResponse : Bytes := []
  receivedKeyMaterialHistory : List Bytes := []
  acknowledgedKeyMaterialHistory : List Bytes := []
  activeSenderKey : KeySelector := .even
  packetsOnActiveKey : Nat := 0
  refreshOverrunPositions : Nat := 0
  preparedSequencePosition : Option Nat := none
  preparedPacketSent : Bool := false
  senderState : CryptoState := .unsecured
  receiverState : CryptoState := .unsecured
  rotationPrepared : Bool := false
  keyMaterialPending : Bool := false
  keyMaterialRevision : Nat := 0
  pendingAcknowledged : Bool := false
  directionalKeyPending : Bool := false
  unacknowledgedSending : Bool := false
  /-- Provider calls made so far. -/
  providerCalls : Nat := 0
  deriving DecidableEq, Repr

namespace CryptoSession

variable (s : CryptoSession) (P : CryptoProvider)

def enabled : Bool := !s.passphrase.isEmpty

def validateConfiguration : Option Error :=
  if s.passphrase.isEmpty then none
  else if s.configuredMode = .aesGcm ∧ (s.aesGcmEnabled = false ∨ P.supportsAesGcm = false) then
    some .unsupported
  else if s.passphrase.length < minimumPassphraseSize ∨ s.passphrase.length > maximumPassphraseSize
      ∨ validAesKeySize s.configuredKeyLength = false
      ∨ s.refreshRatePackets < 3 ∨ s.refreshRatePackets > maximumKeyRefreshRate
      ∨ s.preannouncementPackets = 0
      ∨ s.preannouncementPackets > (s.refreshRatePackets - 1) / 2 then
    some .invalidState
  else none

/-- The constructor; an oversized passphrase is not copied. -/
def ofConfiguration (c : CryptoConfiguration) : CryptoSession :=
  let s : CryptoSession :=
    { passphrase := c.passphrase
      configuredMode := c.mode
      negotiationContext := c.negotiationContext
      aesGcmEnabled := c.enableAesGcm
      configuredKeyLength := c.keyLength
      refreshRatePackets := c.refreshRatePackets
      preannouncementPackets := c.preannouncementPackets }
  if c.passphrase.length > maximumPassphraseSize then
    { s with passphrase := [], configurationError := some .invalidState }
  else { s with configurationError := s.validateConfiguration P }

def effectiveRefreshRate : Nat := min s.refreshRatePackets effectiveKeyRefreshCap

def effectivePreannouncement : Nat :=
  min (max s.preannouncementPackets s.preannouncementFloor) ((s.effectiveRefreshRate - 1) / 2)

def setPreannouncementFloor (positions : Nat) : CryptoSession :=
  { s with preannouncementFloor := min positions ((s.effectiveRefreshRate - 1) / 2) }

def refreshOverrunLimit : Nat := min (2 * s.effectiveRefreshRate) maximumSequencesPerKey

def authenticatedDataEnabled : Bool := s.aesGcmEnabled && s.effectiveMode == .aesGcm

def keyLength : Nat :=
  match s.transmit.get s.activeSenderKey, s.receive.even, s.receive.odd with
  | some k, _, _ => k.key.length
  | none, some k, _ => k.key.length
  | none, none, some k => k.key.length
  | none, none, none => if s.enabled then s.configuredKeyLength else 0

def allowsPlaintextFallback : Bool :=
  !s.unacknowledgedSending && !s.directionalKeyPending && !s.rotationPrepared
    && s.senderState != .secured && s.receiverState != .secured
    && s.receiverState != .securing

/-- `remember_key_material`: newest first, four at most. -/
def rememberKeyMaterial (history : List Bytes) (material : Bytes) : List Bytes :=
  (material :: history).take keyMaterialHistoryCapacity

end CryptoSession

/-! ## Fallible steps -/

abbrev CryptoM := EStateM Error CryptoSession

/-- A provider call. -/
def provided {α : Type} (f : Nat → Except Error α) : CryptoM α := fun s =>
  let t := { s with providerCalls := s.providerCalls + 1 }
  match f s.providerCalls with
  | .ok a => .ok a t
  | .error e => .error e t

namespace CryptoSession

variable (P : CryptoProvider)

/-- The fallible part of `install_key`: nothing is erased before the cipher
exists. -/
def makeKey (key salt : Bytes) (mode : CryptoMode) : CryptoM TrafficKey :=
  if validAesKeySize key.length = false ∨ cryptoSuiteForMode mode = none then
    throw .invalidKeyMaterial
  else if mode = .aesGcm ∧ P.supportsAesGcm = false then throw .unsupported
  else do
    let made ← provided (if mode = .aesCtr then (P.makeAesCtrCipher · key)
      else (P.makeAesGcmCipher · key))
    if made then pure { salt, key, mode } else throw .cryptographicFailure

def installTransmitKey (i : KeySelector) (key salt : Bytes) (mode : CryptoMode) :
    CryptoM Unit := do
  let k ← makeKey P key salt mode
  modify fun s => { s with transmit := s.transmit.set i (some k) }

inductive KeyEncryptionKeyUse
  | transmit
  | receive
  deriving DecidableEq, Repr

variable (s : CryptoSession)

def keyEncryptionKey : KeyEncryptionKeyUse → Option KeyEncryptionKey
  | .transmit => s.transmitKek
  | .receive => s.receiveKek

def cacheKeyEncryptionKey (use : KeyEncryptionKeyUse)
    (salt key : Bytes) : CryptoSession :=
  match use with
  | .transmit => { s with transmitKek := some { salt, key } }
  | .receive => { s with receiveKek := some { salt, key } }

def deriveKeyEncryptionKey (use : KeyEncryptionKeyUse) (salt : Bytes) (size : Nat)
    (cacheResult : Bool) : CryptoM Bytes := do
  let s ← get
  match (s.keyEncryptionKey use).filter (fun k => k.key.length == size && k.salt == salt) with
  | some k => pure k.key
  | none => do
      let k ← provided (P.pbkdf2HmacSha1 · s.passphrase salt srtPbkdf2Iterations size)
      modify fun s => if cacheResult then s.cacheKeyEncryptionKey use salt k.val else s
      pure k.val

/-! ### Transmit keys -/

def generateInitialSenderKey (keyLength : Nat) : CryptoM Unit := do
  let salt ← provided (P.randomBytes · srtSaltSize)
  let key ← provided (P.randomBytes · keyLength)
  let s ← get
  installTransmitKey P .even key.val salt.val s.effectiveMode

/-- The slots a KMREQ announces: the one whose salt and mode it names, and
the concatenated keys. -/
def announcedKeys (keys : EncryptionKey) : Option (TrafficKey × Bytes) :=
  match keys.selector with
  | some i => (s.transmit.get i).map fun k => (k, k.key)
  | none =>
    match keys, s.transmit.even, s.transmit.odd with
    | .reserved, some even, some odd =>
      if even.key.length = odd.key.length ∧ even.mode = odd.mode ∧ even.salt = odd.salt then
        some (even, even.key ++ odd.key)
      else none
    | _, _, _ => none

def buildSenderKeyMaterial (keys : EncryptionKey) : CryptoM Unit := do
  let s ← get
  match s.announcedKeys keys with
  | none => throw .invalidState
  | some (primary, plaintext) =>
    match cryptoSuiteForMode primary.mode with
    | none => throw .invalidState
    | some suite => do
        let kek ← deriveKeyEncryptionKey P .transmit
          (primary.salt.drop (srtSaltSize - pbkdf2SaltSize)) primary.key.length true
        let wrapped ← provided (P.wrapKey · kek plaintext)
        let view : KeyMaterialView :=
          { keys
            cipher := suite.cipher
            authentication := suite.authentication
            salt := primary.salt
            keyLength := primary.key.length
            wrappedKeys := wrapped }
        match encodeKeyMaterial view maximumKeyMaterialSize with
        | .error e => do
            modify fun s => { s with
              pendingKeyMaterial := []
              keyMaterialPending := false
              keyMaterialRevision := s.keyMaterialRevision + 1 }
            throw e
        | .ok bytes =>
          modify fun s => { s with
            pendingKeyMaterial := bytes
            keyMaterialPending := true
            keyMaterialRevision := s.keyMaterialRevision + 1 }

def startInitiator : CryptoM Unit := do
  let s ← get
  match s.configurationError with
  | some e => do
      modify fun s => if e = .unsupported then { s with senderState := .badCryptoMode } else s
      throw e
  | none =>
    if s.enabled = false then
      modify fun s => { s with senderState := .unsecured, receiverState := .unsecured }
    else if s.transmit.even.isSome ∨ s.transmit.odd.isSome then throw .invalidState
    else do
      modify fun s => { s with
        effectiveMode := if s.configuredMode = .automatic then .aesCtr else s.configuredMode }
      tryCatch (do
        generateInitialSenderKey P s.configuredKeyLength
        modify fun s => { s with activeSenderKey := .even }
        buildSenderKeyMaterial P .even) fun e => do
          modify fun s => { s with
            senderState := if e = .unsupported then .badCryptoMode else .noSecret }
          throw e
      modify fun s => { s with senderState := .securing, pendingAcknowledged := false }

/-- Legacy peers can use the handshake key in either direction; it stays for
reception, and a fresh transmit key is announced before any DATA. -/
def prepareBidirectionalSender (keyLength : Nat) : CryptoM Unit := do
  modify fun s => { s with
    senderState := .securing
    directionalKeyPending := true
    pendingAcknowledged := false
    rotationPrepared := false
    packetsOnActiveKey := 0
    activeSenderKey := .even
    transmit := ⟨none, none⟩ }
  generateInitialSenderKey P keyLength
  buildSenderKeyMaterial P .even

def retireTransmitKey (i : KeySelector) : CryptoSession :=
  match s.transmit.get i with
  | some k => { s with
      retiredTransmitKeys := (k.key :: s.retiredTransmitKeys).take retiredTransmitKeyCapacity }
  | none => s

def generateNextSenderKey : CryptoM Unit := do
  let s ← get
  match s.transmit.get s.activeSenderKey with
  | none => throw .invalidState
  | some current => do
      let key ← provided (P.randomBytes · current.key.length)
      modify fun s => s.retireTransmitKey s.activeSenderKey.other
      installTransmitKey P s.activeSenderKey.other key.val current.salt current.mode

def prepareRotation : CryptoM Unit := do
  let s ← get
  if s.enabled = false then pure ()
  else if s.unacknowledgedSending then pure ()
  else if s.senderState ≠ .secured ∧ s.senderState ≠ .securing then throw .invalidState
  else if s.rotationPrepared
      ∨ s.packetsOnActiveKey < s.effectiveRefreshRate - s.effectivePreannouncement then
    pure ()
  else do
    generateNextSenderKey P
    buildSenderKeyMaterial P .reserved
    modify fun s => { s with
      rotationPrepared := true
      pendingAcknowledged := false
      senderState := .securing }

/-- A session without active key starts over with a local one. -/
def ensureLocalKey : CryptoM Unit := do
  let s ← get
  if (s.transmit.get s.activeSenderKey).isSome then pure ()
  else do
    modify fun s => { s with
      transmit := ⟨none, none⟩
      activeSenderKey := .even
      packetsOnActiveKey := 0 }
    generateInitialSenderKey P s.configuredKeyLength

def continueWithoutPeerKey (reported : CryptoState) : CryptoM Unit := do
  let s ← get
  if s.enabled = false then throw .invalidState
  else
    match s.configurationError with
    | some e => throw e
    | none => do
        modify fun s => if s.effectiveMode = .automatic then { s with
          effectiveMode := if s.configuredMode = .automatic then .aesCtr else s.configuredMode }
          else s
        ensureLocalKey P
        modify fun s => { s with
          senderState := if reported = .badSecret ∨ reported = .badCryptoMode then reported
            else .noSecret
          unacknowledgedSending := true
          directionalKeyPending := false
          rotationPrepared := false
          pendingAcknowledged := false
          keyMaterialPending := false
          pendingKeyMaterial := [] }

/-! ### Sequence accounting -/

/-- The count and the saturating overrun counter of
`note_sequences_consumed`. -/
def countConsumed (count : Nat) : CryptoSession :=
  let refresh := s.effectiveRefreshRate
  let after := s.packetsOnActiveKey + count
  { s with
    packetsOnActiveKey := after
    refreshOverrunPositions :=
      if after > refresh then
        min (s.refreshOverrunPositions + (after - max s.packetsOnActiveKey refresh)) (2 ^ 64 - 1)
      else s.refreshOverrunPositions }

def noteSequencesConsumed (count : Nat) : CryptoM Unit := do
  let s ← get
  if s.packetsOnActiveKey > maximumSequencesPerKey - count then throw .cryptographicFailure
  else do
    modify (·.countConsumed count)
    let s ← get
    if s.packetsOnActiveKey < s.effectiveRefreshRate then pure ()
    else if s.unacknowledgedSending then do
      generateNextSenderKey P
      modify fun s => { s with
        activeSenderKey := s.activeSenderKey.other
        packetsOnActiveKey := 0 }
    else if s.rotationPrepared = false ∨ s.pendingAcknowledged = false then pure ()
    else
      modify fun s => { s with
        activeSenderKey := s.activeSenderKey.other
        packetsOnActiveKey := 0
        rotationPrepared := false
        pendingAcknowledged := false
        senderState := .secured }

def noteDataPacketSent : CryptoM Unit := do
  let s ← get
  if s.enabled = false then pure ()
  else do
    modify fun s => { s with preparedPacketSent := true }
    noteSequencesConsumed P 1

/-- The positions skipped since the prepared one. -/
def skippedPositions (prepared position : Nat) : Nat :=
  position - prepared - (if s.preparedPacketSent then 1 else 0)

def prepareDataPacket (position : Nat) : CryptoM Unit := do
  let s ← get
  if s.enabled = false then pure ()
  else
    match s.preparedSequencePosition with
    | none => do
        modify fun s => { s with
          preparedPacketSent := false
          preparedSequencePosition := some position }
        prepareRotation P
    | some prepared =>
      if position < prepared then throw .cryptographicFailure
      else if position = prepared then pure ()
      else
        let skipped := s.skippedPositions prepared position
        if skipped ≥ maximumSequencesPerKey
            ∨ s.packetsOnActiveKey ≥ maximumSequencesPerKey - skipped then
          throw .cryptographicFailure
        else do
          modify fun s => { s with
            packetsOnActiveKey := s.packetsOnActiveKey + skipped
            preparedPacketSent := false
            preparedSequencePosition := some position }
          prepareRotation P

/-! ### Receive keys -/

/-- `remember_receive_key`: the replaced key with the frontier as ceiling; a
full history gives up its oldest entry and keeps its ceiling. -/
def rememberReceiveKey (h : ReceiveKeyHistory) (k : TrafficKey) (ceiling : Option Int) :
    ReceiveKeyHistory :=
  { generations := ({ slot := k, ceiling } :: h.generations).take receiveKeyHistoryCapacity
    discarded :=
      if h.generations.length = receiveKeyHistoryCapacity then
        (h.generations.getLast?.bind ReceiveKeyGeneration.ceiling).or h.discarded
      else h.discarded }

/-- The history behind a replacement by `k`.  A restored key leaves it, and
with it every newer generation: their ceilings would route the restored
key's packets to the keys that displaced it. -/
def displaceReceiveKey (h : ReceiveKeyHistory) (current : Option TrafficKey) (k : TrafficKey)
    (frontier : Option Int) : ReceiveKeyHistory :=
  match h.generations.findIdx? (fun g => g.slot.is k.key k.salt k.mode) with
  | some restored => { h with generations := h.generations.drop (restored + 1) }
  | none =>
    match current with
    | some c => rememberReceiveKey h c frontier
    | none => h

def replaceReceiveKey (i : KeySelector) (k : TrafficKey) :
    CryptoSession :=
  { s with
    receiveHistory := s.receiveHistory.set i (displaceReceiveKey (s.receiveHistory.get i)
      (s.receive.get i) k (s.frontier.map Prod.snd))
    receive := s.receive.set i (some k) }

def isCurrentReceiveKey (i : KeySelector) (key salt : Bytes)
    (mode : CryptoMode) : Bool :=
  (s.receive.get i).any (·.is key salt mode)

def isRetiredReceiveKey (i : KeySelector) (key salt : Bytes)
    (mode : CryptoMode) : Bool :=
  (s.receiveHistory.get i).generations.any (·.slot.is key salt mode)

def installReceiveKey (i : KeySelector) (key salt : Bytes) (mode : CryptoMode) :
    CryptoM Unit := do
  let s ← get
  if s.isCurrentReceiveKey i key salt mode then pure ()
  else do
    let k ← makeKey P key salt mode
    modify (·.replaceReceiveKey i k)

/-- The error return of `accept_key_material`: an established receiver keeps
its state. -/
def rejectKeyMaterial {α : Type} (e : Error) (state : CryptoState) : CryptoM α := do
  modify fun s =>
    if s.receiverState = .secured ∨ s.receiverState = .securing then s
    else { s with receiverState := state }
  throw e

/-- A request whose keys are unwrapped.  `keys` lists each announced key
with its selector. -/
structure OpenedKeyMaterial where
  keys : List (KeySelector × Bytes)
  salt : Bytes
  mode : CryptoMode
  kek : KeyEncryptionKey
  deriving DecidableEq, Repr

/-- The selectors a request announces, with their part of the plaintext. -/
def announcedSelectors (keys : EncryptionKey) (plaintext : Bytes) (keyLength : Nat) :
    List (KeySelector × Bytes) :=
  match keys with
  | .even => [(.even, plaintext.take keyLength)]
  | .odd => [(.odd, plaintext.take keyLength)]
  | .reserved =>
    [(.even, plaintext.take keyLength), (.odd, (plaintext.drop keyLength).take keyLength)]
  | .none => []

/-- The mode a request is received in, if this session supports it. -/
def selectMode (material : KeyMaterialView) : Option CryptoMode :=
  match cryptoSuiteForKeyMaterial material.cipher material.authentication with
  | none => none
  | some suite =>
    match negotiateCryptoMode s.negotiationContext suite.mode s.configuredMode with
    | none => none
    | some mode =>
      if (s.effectiveMode ≠ .automatic ∧ s.effectiveMode ≠ mode)
          ∨ (mode = .aesGcm ∧ (s.aesGcmEnabled = false ∨ P.supportsAesGcm = false)) then
        none
      else some mode

/-- Decode, select the mode, unwrap. -/
def openKeyMaterial (request : Bytes) : CryptoM OpenedKeyMaterial := do
  let s ← get
  match decodeKeyMaterial request with
  | .error e => rejectKeyMaterial e .badCryptoMode
  | .ok material =>
    match s.selectMode P material with
    | none => rejectKeyMaterial .unsupported .badCryptoMode
    | some mode =>
      let salt := material.salt.drop (srtSaltSize - pbkdf2SaltSize)
      tryCatch (do
        let kek ← deriveKeyEncryptionKey P .receive salt material.keyLength false
        let plaintext ← provided (P.unwrapKey · kek material.wrappedKeys)
        if plaintext.length = material.keys.keyCount * material.keyLength then
          pure
            { keys := announcedSelectors material.keys plaintext material.keyLength
              salt := material.salt
              mode
              kek := { salt, key := kek } }
        else throw .cryptographicFailure)
        fun _ => rejectKeyMaterial .cryptographicFailure .badSecret

/-- `conflicts`: a known key under another selector, mode or salt. -/
def conflicts (selector : KeySelector) (key salt : Bytes) (mode : CryptoMode)
    (knownSelector : KeySelector) (known : TrafficKey) : Bool :=
  known.key == key
    && (selector != knownSelector || known.mode != mode || known.salt != salt)

/-- `changes_identity`: over both current slots and both histories. -/
def changesIdentity (selector : KeySelector) (key salt : Bytes)
    (mode : CryptoMode) : Bool :=
  [KeySelector.even, KeySelector.odd].any fun i =>
    (s.receive.get i).any (conflicts selector key salt mode i)
      || (s.receiveHistory.get i).generations.any
        fun g => conflicts selector key salt mode i g.slot

/-- `reflects_transmit_key`. -/
def reflectsTransmitKey (key : Bytes) : Bool :=
  s.transmit.even.any (·.key == key) || s.transmit.odd.any (·.key == key)
    || s.retiredTransmitKeys.contains key

/-- The generations in front of the restored one: whether one of them has
received DATA, or the key is not there at all. -/
def restoreErases (key salt : Bytes) (mode : CryptoMode) : List ReceiveKeyGeneration → Bool
  | [] => true
  | g :: gs =>
    if g.slot.is key salt mode then false
    else if g.slot.receivedPayload then true
    else restoreErases key salt mode gs

/-- `restore_would_erase_received_generation`. -/
def restoreWouldEraseReceivedGeneration (i : KeySelector)
    (key salt : Bytes) (mode : CryptoMode) : Bool :=
  (s.receive.get i).any TrafficKey.receivedPayload
    || restoreErases key salt mode (s.receiveHistory.get i).generations

/-- Whether the unwrapped keys may be installed at all. -/
def acceptable (m : OpenedKeyMaterial) : Bool :=
  let replays := m.keys.filter fun k => s.isRetiredReceiveKey k.1 k.2 m.salt m.mode
  let fresh := m.keys.filter fun k => !s.isRetiredReceiveKey k.1 k.2 m.salt m.mode
    && !s.isCurrentReceiveKey k.1 k.2 m.salt m.mode
  !(m.keys.any fun k => s.reflectsTransmitKey k.2)
    && !(m.keys.any fun k => s.changesIdentity k.1 k.2 m.salt m.mode)
    && (match m.keys with
      | [a, b] => a.2 != b.2
      | _ => true)
    && !(!replays.isEmpty && fresh.isEmpty)
    && !(replays.any fun k => s.restoreWouldEraseReceivedGeneration k.1 k.2 m.salt m.mode)

def installReceiveKeys (salt : Bytes) (mode : CryptoMode) :
    List (KeySelector × Bytes) → CryptoM Unit
  | [] => pure ()
  | (i, key) :: keys => do
      installReceiveKey P i key salt mode
      installReceiveKeys salt mode keys

/-- The transmit side of an initial exchange, unless it has keys already. -/
def prepareReverseDirection (clone : Bool) : CryptoM Unit := do
  let s ← get
  if clone ∧ s.transmit.even.isNone ∧ s.transmit.odd.isNone then
    prepareBidirectionalSender P s.keyLength
  else pure ()

def acceptKeyMaterial (request : Bytes) (cloneForBidirectionalSender : Bool) :
    CryptoM Unit := do
  let s ← get
  match s.configurationError with
  | some e =>
    rejectKeyMaterial e (if e = .unsupported then .badCryptoMode else .noSecret)
  | none =>
    if s.enabled = false then do
      modify fun s => { s with receiverState := .noSecret }
      throw .cryptographicFailure
    else if s.receivedKeyMaterialHistory.contains request then
      modify fun s => { s with keyMaterialResponse := request }
    else do
      let m ← openKeyMaterial P request
      let s ← get
      if s.acceptable m = false then rejectKeyMaterial .invalidKeyMaterial .badSecret
      else do
        tryCatch (installReceiveKeys P m.salt m.mode m.keys) fun e =>
          rejectKeyMaterial e (if e = .unsupported then .badCryptoMode else .noSecret)
        modify fun s => { s with effectiveMode := m.mode, receiverState := .secured }
        prepareReverseDirection P cloneForBidirectionalSender
        modify fun s => { s with
          receiveKek := some m.kek
          receivedKeyMaterialHistory :=
            rememberKeyMaterial s.receivedKeyMaterialHistory request
          keyMaterialResponse := request }

/-- `clone_key` into a receive slot: an absent source erases it. -/
def cloneToReceive (i : KeySelector) : CryptoM Unit := do
  let s ← get
  match s.transmit.get i with
  | none => modify fun s => { s with receive := s.receive.set i none }
  | some source => do
      let k ← makeKey P source.key source.salt source.mode
      modify fun s => { s with receive := s.receive.set i (some k) }

def cloneTransmitKeysToReceive : CryptoM Unit := do
  modify fun s => { s with receiveHistory := ⟨{}, {}⟩, frontier := none }
  cloneToReceive P .even
  cloneToReceive P .odd
  modify fun s => { s with receiverState := .secured }

/-- `preserve_secured_state` of a response. -/
def preservesSecuredState : Bool :=
  s.senderState == .secured
    || (s.senderState == .securing && (s.rotationPrepared || s.directionalKeyPending))

/-- The sender state a refused response leaves. -/
def demote (state : CryptoState) : CryptoSession :=
  if s.preservesSecuredState then s else { s with senderState := state }

/-- Behind the initial exchange: the handshake key becomes receive-only and a
fresh directional key is announced. -/
def reverseDirections (response : Bytes) : CryptoM Unit := do
  modify fun s => { s with senderState := .securing, directionalKeyPending := true }
  let s ← get
  cloneTransmitKeysToReceive P
  modify fun s => { s with
    receivedKeyMaterialHistory := rememberKeyMaterial s.receivedKeyMaterialHistory response }
  prepareBidirectionalSender P s.keyLength

/-- The response is the pending request. -/
def confirmPending (response : Bytes) (cloneForBidirectionalReceiver : Bool) :
    CryptoM Unit := do
  modify fun s => { s with
    pendingAcknowledged := true
    keyMaterialPending := false
    senderState := .secured
    directionalKeyPending := false
    acknowledgedKeyMaterialHistory :=
      rememberKeyMaterial s.acknowledgedKeyMaterialHistory response }
  let s ← get
  if cloneForBidirectionalReceiver ∧ s.receive.even.isNone ∧ s.receive.odd.isNone then
    reverseDirections P response
  else pure ()

def acknowledgeKeyMaterial (response : Bytes) (cloneForBidirectionalReceiver : Bool) :
    CryptoM Unit := do
  let s ← get
  if response.length = 4 then do
    modify (·.demote ((decodeKeyMaterialState response).getD .badSecret))
    throw .cryptographicFailure
  else if s.acknowledgedKeyMaterialHistory.contains response then pure ()
  else if s.pendingKeyMaterial.isEmpty ∨ response ≠ s.pendingKeyMaterial then do
    modify (·.demote .badSecret)
    throw .invalidKeyMaterial
  else if s.pendingAcknowledged ∧ s.keyMaterialPending = false then pure ()
  else confirmPending P response cloneForBidirectionalReceiver

/-! ### Routing a packet to its key generation -/

/-- `ceiling_is_recent`: within half the sequence space of the frontier. -/
def ceilingIsRecent (highest ceiling : Int) : Bool :=
  decide (ceiling > highest - SequenceNumber.halfRange)

/-- A recent ceiling that covers the position. -/
def covers (highest position : Int) (ceiling : Option Int) : Bool :=
  ceiling.any fun c => ceilingIsRecent highest c && decide (position ≤ c)

/-- Where `receive_slot_for_packet` finds a key. -/
inductive ReceivePlace
  | current
  | retired (index : Nat)
  deriving DecidableEq, Repr

/-- The oldest generation that satisfies `p`, in a list with the newest
first. -/
def oldestWhere (p : ReceiveKeyGeneration → Bool) : List ReceiveKeyGeneration → Option Nat
  | [] => none
  | g :: gs =>
    match oldestWhere p gs with
    | some i => some (i + 1)
    | none => if p g then some 0 else none

/-- `receive_slot_for_packet` without committing the sequence; `none` is the
null pointer. -/
def receivePlaceForPacket (i : KeySelector) (sequence : SequenceNumber) :
    Option ReceivePlace :=
  let h := s.receiveHistory.get i
  match s.frontier, h.generations with
  | some (highestSequence, highest), g :: _ =>
    let position := highest + sequence.distanceFrom highestSequence
    if covers highest position g.ceiling = false then some .current
    else if covers highest position h.discarded then none
    else
      match oldestWhere (fun g => covers highest position g.ceiling) h.generations with
      | some index => some (.retired index)
      | none => some .current
  | _, _ => some .current

/-- The key at a place, if its slot is ready. -/
def receiveKeyAt (i : KeySelector) : ReceivePlace → Option TrafficKey
  | .current => s.receive.get i
  | .retired index =>
    ((s.receiveHistory.get i).generations[index]?).map ReceiveKeyGeneration.slot

/-- Sets `received_payload` at a place. -/
def markReceived (i : KeySelector) (place : ReceivePlace) :
    CryptoSession :=
  match place with
  | .current => { s with
      receive := s.receive.set i ((s.receive.get i).map ({ · with receivedPayload := true })) }
  | .retired index =>
    let h := s.receiveHistory.get i
    { s with
      receiveHistory := s.receiveHistory.set i { h with
        generations := h.generations.modify index fun g =>
          { g with slot := { g.slot with receivedPayload := true } } } }

/-- The key a packet is decrypted with: `receive_slot_for_packet` with the
`ready` test of its callers. -/
def receiveSlotForPacket (key : EncryptionKey) (sequence : SequenceNumber) :
    Option (KeySelector × ReceivePlace × TrafficKey) := do
  let i ← key.selector
  let place ← s.receivePlaceForPacket i sequence
  let k ← s.receiveKeyAt i place
  return (i, place, k)

def int64Max : Int := 2 ^ 63 - 1

/-- A ceiling in the rebased position space; one that is not recent is
forgotten. -/
def rebaseCeiling (highest : Int) (ceiling : Option Int) : Option Int :=
  match ceiling with
  | some c => if c ≤ highest - SequenceNumber.halfRange then none else some (c - highest)
  | none => none

def rebaseHistory (highest : Int) (h : ReceiveKeyHistory) : ReceiveKeyHistory :=
  { generations := h.generations.map fun g =>
      { g with ceiling := rebaseCeiling highest g.ceiling }
    discarded := rebaseCeiling highest h.discarded }

/-- `note_authenticated_receive_sequence`. -/
def noteAuthenticatedReceiveSequence (sequence : SequenceNumber) :
    CryptoSession :=
  match s.frontier with
  | none => { s with frontier := some (sequence, 0) }
  | some (highestSequence, highest) =>
    let advance := sequence.distanceFrom highestSequence
    if advance > 0 then
      -- Long-lived sessions rebase before the position can overflow.
      if highest > int64Max - advance - SequenceNumber.halfRange then
        { s with
          receiveHistory :=
            ⟨rebaseHistory highest s.receiveHistory.even,
              rebaseHistory highest s.receiveHistory.odd⟩
          frontier := some (sequence, advance) }
      else { s with frontier := some (sequence, highest + advance) }
    else s

def noteAcceptedReceiveSequence (sequence : SequenceNumber) :
    CryptoSession :=
  s.noteAuthenticatedReceiveSequence sequence

/-! ### DATA -/

def readyToSendData : Bool :=
  let next := s.packetsOnActiveKey + 1
  if s.enabled = false then true
  else if s.effectiveMode = .aesGcm ∧ s.authenticatedDataEnabled = false then false
  else if s.unacknowledgedSending then true
  else if s.senderState ≠ .secured ∧ s.senderState ≠ .securing then false
  else if s.senderState = .securing ∧ s.rotationPrepared = false then false
  else if next < s.effectiveRefreshRate ∨ (s.rotationPrepared ∧ s.pendingAcknowledged) then true
  else s.rotationPrepared && decide (next < s.refreshOverrunLimit)

/-- `encrypt`; the selector is what the packet header gets. -/
def encrypt (sequence : SequenceNumber) (plaintext : Bytes) :
    CryptoM (EncryptionKey × Bytes) := do
  let s ← get
  if s.enabled = false then pure (.none, plaintext)
  else if s.unacknowledgedSending = false ∧ s.senderState ≠ .secured
      ∧ s.senderState ≠ .securing then
    throw .cryptographicFailure
  else
    match s.transmit.get s.activeSenderKey with
    | none => throw .invalidState
    | some k =>
      if k.mode ≠ .aesCtr then throw .unsupported
      else if s.readyToSendData = false then throw .cryptographicFailure
      else do
        let ciphertext ← provided
          (P.transform · k.key (makeSrtCtrInitializationVector sequence k.salt) plaintext)
        pure (s.activeSenderKey.key, ciphertext)

/-- `seal`. -/
def sealPacket (header : DataHeader) (plaintext : Bytes) :
    CryptoM (EncryptionKey × Bytes × Bytes) := do
  let s ← get
  if s.enabled = false ∨ s.authenticatedDataEnabled = false then throw .unsupported
  else if s.readyToSendData = false then throw .cryptographicFailure
  else
    match s.transmit.get s.activeSenderKey with
    | none => throw .invalidState
    | some k =>
      if k.mode ≠ .aesGcm ∨ header.encryptionKey ≠ s.activeSenderKey.key then
        throw .invalidState
      else do
        let r ← provided
          (P.sealData · k.key (makeSrtGcmInitializationVector header.sequence k.salt)
            { header with retransmitted := false } plaintext)
        pure (s.activeSenderKey.key, r.1, r.2)

def decrypt (key : EncryptionKey) (sequence : SequenceNumber) (ciphertext : Bytes) :
    CryptoM Bytes := do
  let s ← get
  if key = .none then
    if s.enabled ∧ s.receiverState = .secured then throw .cryptographicFailure
    else pure ciphertext
  else if s.effectiveMode = .aesGcm then throw .unsupported
  else
    match s.receiveSlotForPacket key sequence with
    | none => throw .cryptographicFailure
    | some (i, place, k) =>
      if k.mode ≠ .aesCtr then throw .unsupported
      else do
        let plaintext ← provided
          (P.transform · k.key (makeSrtCtrInitializationVector sequence k.salt) ciphertext)
        modify (·.markReceived i place)
        pure plaintext

/-- `open`. -/
def openPacket (header : DataHeader) (ciphertext tag : Bytes) : CryptoM Bytes := do
  let s ← get
  if s.enabled = false ∨ s.authenticatedDataEnabled = false then throw .unsupported
  else
    match s.receiveSlotForPacket header.encryptionKey header.sequence with
    | none => throw .cryptographicFailure
    | some (i, place, k) =>
      if k.mode ≠ .aesGcm then throw .cryptographicFailure
      else do
        let plaintext ← provided
          (P.openData · k.key (makeSrtGcmInitializationVector header.sequence k.salt)
            { header with retransmitted := false } ciphertext tag)
        modify fun s =>
          (s.markReceived i place).noteAuthenticatedReceiveSequence header.sequence
        pure plaintext

end CryptoSession

/-! ## The public operations -/

/-- A call of a public operation that can change the session. -/
inductive CryptoCall
  | startInitiator
  | acceptKeyMaterial (request : Bytes) (clone : Bool)
  | acknowledgeKeyMaterial (response : Bytes) (clone : Bool)
  | continueWithoutPeerKey (reported : CryptoState)
  | prepareRotation
  | setPreannouncementFloor (positions : Nat)
  | prepareDataPacket (position : Nat)
  | noteDataPacketSent
  | encrypt (sequence : SequenceNumber) (plaintext : Bytes)
  | sealPacket (header : DataHeader) (plaintext : Bytes)
  | decrypt (key : EncryptionKey) (sequence : SequenceNumber) (ciphertext : Bytes)
  | openPacket (header : DataHeader) (ciphertext tag : Bytes)
  | noteAcceptedReceiveSequence (sequence : SequenceNumber)
  deriving DecidableEq, Repr

namespace CryptoSession

variable (P : CryptoProvider)

/-- The effect of a call; the bytes of DATA operations are dropped. -/
def perform : CryptoCall → CryptoM Unit
  | .startInitiator => startInitiator P
  | .acceptKeyMaterial request clone => acceptKeyMaterial P request clone
  | .acknowledgeKeyMaterial response clone => acknowledgeKeyMaterial P response clone
  | .continueWithoutPeerKey reported => continueWithoutPeerKey P reported
  | .prepareRotation => prepareRotation P
  | .setPreannouncementFloor positions => modify (·.setPreannouncementFloor positions)
  | .prepareDataPacket position => prepareDataPacket P position
  | .noteDataPacketSent => noteDataPacketSent P
  | .encrypt sequence plaintext => discard (encrypt P sequence plaintext)
  | .sealPacket header plaintext => discard (sealPacket P header plaintext)
  | .decrypt key sequence ciphertext => discard (decrypt P key sequence ciphertext)
  | .openPacket header ciphertext tag => discard (openPacket P header ciphertext tag)
  | .noteAcceptedReceiveSequence sequence => modify (·.noteAcceptedReceiveSequence sequence)

/-- Whether a call succeeds. -/
def succeeds (s : CryptoSession) (c : CryptoCall) : Bool :=
  match perform P c s with
  | .ok _ _ => true
  | .error _ _ => false

/-- The session behind a call. -/
def after (s : CryptoSession) (c : CryptoCall) : CryptoSession :=
  match perform P c s with
  | .ok _ t => t
  | .error _ t => t

end CryptoSession

/-! ## A provider to run sessions with -/

namespace CryptoSession

/-- Random bytes all alike, by the number of the call; the calls of `failing`
and those from the 256th on fail. -/
def exampleProvider (failing : List Nat) : CryptoProvider where
  supportsAesGcm := true
  randomBytes call size :=
    if call < 256 ∧ call ∉ failing then
      .ok ⟨List.replicate size (UInt8.ofNat call), List.length_replicate⟩
    else .error .cryptographicFailure
  pbkdf2HmacSha1 _ _ _ _ size := .ok ⟨List.replicate size 0, List.length_replicate⟩
  wrapKey _ _ plaintext := .ok (List.replicate 8 0 ++ plaintext)
  unwrapKey _ _ wrapped := .ok (wrapped.drop 8)
  makeAesCtrCipher _ _ := .ok true
  makeAesGcmCipher _ _ := .ok true
  transform _ _ _ input := .ok input
  sealData _ _ _ _ plaintext := .ok (plaintext, List.replicate 16 0)
  openData _ _ _ _ ciphertext _ := .ok ciphertext

def exampleConfiguration : CryptoConfiguration := { passphrase := List.replicate 10 65 }

/-- The KMREQ of a peer. -/
def exampleRequest : Bytes :=
  ((ofConfiguration (exampleProvider []) exampleConfiguration).after (exampleProvider [])
    .startInitiator).pendingKeyMaterial

end CryptoSession

end Srt
