/-
# `Session` — authenticated key material, parity and controls

`SessionAuthentication` of `src/session_authentication.cpp`, in the build with
the experimental ACP1 control profile, which adds versions 3 to 6 and the
control envelopes to the default build's version 2.

Every function returns the object it leaves behind, also where it refuses.
The provider is a parameter: a call of it may fail, and where it does not it
gives the 32 bytes of a MAC.  An output buffer is its size.
-/
import Srt.Codec
import Srt.Handshake.Message
import Srt.Lib.ReplayWindow
import Mathlib.Data.List.Induction

namespace Srt

open List

variable {caller : Bool} {counter n : Nat}

abbrev Tag := { b : Bytes // b.length = 32 }

def authenticatedKeyRequestSubtype : UInt16 := 0x7f03

def authenticatedKeyResponseSubtype : UInt16 := 0x7f04

def authenticatedControlSubtype : UInt16 := 0x7f05

def standbyRttSubtype : UInt16 := 0x7f12

def authenticatedKeyOverhead : Nat := 40

def authenticatedFecOverhead : Nat := 40

def authenticatedControlOverhead : Nat := 60

def acp1SessionVersion : Nat := 3

def acp1RendezvousSessionVersion : Nat := 4

def acp1GroupSessionVersion : Nat := 5

def acp1GroupRendezvousSessionVersion : Nat := 6

def acp1GroupContextSize : Nat := 88

def acp1GroupRendezvousContextSize : Nat := 96

def isAcp1SessionVersion (version : Nat) : Bool :=
  version == acp1SessionVersion || version == acp1RendezvousSessionVersion
    || version == acp1GroupSessionVersion || version == acp1GroupRendezvousSessionVersion

/-- The last value of a 64-bit counter. -/
def maximumCounter : Nat := 2 ^ 64 - 1

def put64 (value : Nat) : Bytes := writeU32 (value / 2 ^ 32) ++ writeU32 value

def get64 (bytes : Bytes) : Nat := bytes.foldl (fun value byte => value * 256 + byte.toNat) 0

/-- The ASCII bytes of a label. -/
def labelBytes (label : List Char) : Bytes := label.map fun c => UInt8.ofNat c.toNat

/-- `domain_label` with the version in place. -/
def domainLabel (version : Nat) : Bytes :=
  labelBytes ['R', 'W', 'S', 'R', 'T', '-', 'S', 'E', 'S', 'S', 'I', 'O', 'N', '-']
    ++ [UInt8.ofNat (48 + version), 0]

/-- The front of every MAC input under the session key: label, domain,
direction and counter. -/
def macFrame (version : Nat) (domain : UInt8) (caller : Bool) (counter : Nat) (rest : Bytes) :
    Bytes :=
  domainLabel version ++ ([domain, if caller then 1 else 2] ++ (put64 counter ++ rest))

def controlLabel : Bytes :=
  labelBytes ['R', 'W', 'S', 'R', 'T', '-', 'A', 'C', 'P', '1', '-', 'M', 'A', 'C'] ++ [0, 0]

/-- The provider calls of the class; `randomBytes` is the nonce of `start`. -/
structure AuthenticationProvider where
  randomBytes : Except Error { b : Bytes // b.length = 32 }
  pbkdf2HmacSha1 : (passphrase salt : Bytes) → (iterations : Nat) → Except Error Tag
  hmacSha256 : (key input : Bytes) → Except Error Tag

/-- The buffers of the last materials are their used parts. -/
structure SessionAuthentication where
  parameters : SessionAuthenticationParameters := {}
  key : Bytes := replicate 32 0
  callerControlKey : Bytes := replicate 32 0
  listenerControlKey : Bytes := replicate 32 0
  lastSent : Bytes := []
  lastReceived : Bytes := []
  sentCounter : Nat := 0
  receivedCounter : Nat := 0
  fecSentCounter : Nat := 0
  fecReceived : ReplayWindow 64 := {}
  controlSentCounter : Nat := 0
  controlReceived : ReplayWindow 64 := {}
  caller : Bool := false
  started : Bool := false
  ready : Bool := false
  deriving DecidableEq, Repr

namespace SessionAuthentication

def maximumMaterialSize : Nat := 128

def maximumControlSize : Nat := 1500

variable (provider : AuthenticationProvider) (a : SessionAuthentication)

def version : Nat := a.parameters.version

/-! ### Setup -/

/-- `start`: the own nonce. -/
def start (caller : Bool) (version : Nat) : SessionAuthentication × Except Error Unit :=
  if version ≠ sessionAuthenticationVersion ∧ isAcp1SessionVersion version = false then
    (a, .error .invalidState)
  else if a.started then (a, .error .invalidState)
  else
    let withNonce := fun (nonce : Bytes) => { a with
      caller
      parameters := if caller then { a.parameters with version, callerNonce := nonce }
        else { a.parameters with version, listenerNonce := nonce } }
    match provider.randomBytes with
    | .error _ => (withNonce (replicate 32 0), .error .cryptographicFailure)
    | .ok nonce =>
      if allZero nonce.val then (withNonce (replicate 32 0), .error .cryptographicFailure)
      else ({ withNonce nonce.val with started := true }, .ok ())

/-- What the session key is derived with: label, nonces, socket ids, the
cookies of a rendezvous and the group context. -/
def salt (localSocketId peerSocketId localCookie peerCookie : Nat) (groupContext : Bytes) :
    Bytes :=
  let rendezvous := a.version == acp1RendezvousSessionVersion
    || a.version == acp1GroupRendezvousSessionVersion
  domainLabel a.version ++ a.parameters.callerNonce ++ a.parameters.listenerNonce
    ++ put64 (if a.caller then localSocketId else peerSocketId)
    ++ put64 (if a.caller then peerSocketId else localSocketId)
    ++ (if rendezvous then put64 (if a.caller then localCookie else peerCookie)
      ++ put64 (if a.caller then peerCookie else localCookie) else [])
    ++ groupContext

/-- `info` of the directional control keys. -/
def controlKeyInfo (caller : Bool) : Bytes :=
  labelBytes ['R', 'W', 'S', 'R', 'T', '-', 'A', 'C', 'P', '1', '-', '1'] ++ [0, 0, 0, 0]
    ++ [if caller then 1 else 2, 1]

/-- The two control keys; a failure erases all three. -/
def deriveControlKeys : SessionAuthentication × Except Error Unit :=
  let erased := { a with
    key := replicate 32 0
    callerControlKey := replicate 32 0
    listenerControlKey := replicate 32 0 }
  if isAcp1SessionVersion a.version = false then ({ a with ready := true }, .ok ())
  else
    match provider.hmacSha256 a.key (controlKeyInfo true) with
    | .error e => (erased, .error e)
    | .ok callerKey =>
      match provider.hmacSha256 a.key (controlKeyInfo false) with
      | .error e => (erased, .error e)
      | .ok listenerKey => ({ a with
          callerControlKey := callerKey.val
          listenerControlKey := listenerKey.val
          ready := true }, .ok ())

/-- The peer's half of the nonces, where it fits the own one. -/
def takePeerNonce (peer : SessionAuthenticationParameters) :
    Option SessionAuthenticationParameters :=
  if a.caller then
    if peer.callerNonce ≠ a.parameters.callerNonce ∨ allZero peer.listenerNonce then none
    else some { a.parameters with listenerNonce := peer.listenerNonce }
  else
    if peer.isOffer = false then none
    else some { a.parameters with callerNonce := peer.callerNonce }

/-- The checks of `establish` before it takes the peer's nonce. -/
def checkEstablish (passphrase : Bytes) (peer : SessionAuthenticationParameters)
    (localSocketId peerSocketId localCookie peerCookie : Nat) (groupContext : Bytes) :
    Except Error Unit :=
  let rendezvous := a.version == acp1RendezvousSessionVersion
    || a.version == acp1GroupRendezvousSessionVersion
  let contextSize := if a.version = acp1GroupSessionVersion then acp1GroupContextSize
    else if a.version = acp1GroupRendezvousSessionVersion then acp1GroupRendezvousContextSize
    else 0
  if a.started = false ∨ a.ready ∨ passphrase.isEmpty ∨ localSocketId = 0 ∨ peerSocketId = 0 then
    .error .invalidState
  else if (if rendezvous then decide (localCookie = 0 ∨ peerCookie = 0 ∨ localCookie = peerCookie)
      else decide (localCookie ≠ 0 ∨ peerCookie ≠ 0)) then
    .error .invalidKeyMaterial
  else if groupContext.length ≠ contextSize then .error .invalidKeyMaterial
  else if peer.version ≠ a.version then .error .invalidKeyMaterial
  else .ok ()

/-- `establish`: both nonces, then the keys. -/
def establish (passphrase : Bytes) (peer : SessionAuthenticationParameters)
    (localSocketId peerSocketId localCookie peerCookie : Nat) (groupContext : Bytes) :
    SessionAuthentication × Except Error Unit :=
  match a.checkEstablish passphrase peer localSocketId peerSocketId localCookie peerCookie
      groupContext with
  | .error e => (a, .error e)
  | .ok () =>
    match a.takePeerNonce peer with
    | none => (a, .error .invalidKeyMaterial)
    | some parameters =>
      let a := { a with parameters }
      match provider.pbkdf2HmacSha1 passphrase
          (a.salt localSocketId peerSocketId localCookie peerCookie groupContext) 2048 with
      | .error e => ({ a with key := replicate 32 0 }, .error e)
      | .ok key => { a with key := key.val }.deriveControlKeys provider

/-! ### Key material -/

/-- The bytes under the MAC of `mac`. -/
def macInput (domain : UInt8) (caller : Bool) (counter : Nat) (input : Bytes) : Bytes :=
  macFrame a.version domain caller counter (writeU16 input.length ++ input)

def mac (domain : UInt8) (caller : Bool) (counter : Nat) (input : Bytes) : Except Error Tag :=
  if a.ready = false ∨ maximumMaterialSize < input.length then .error .invalidState
  else provider.hmacSha256 a.key (a.macInput domain caller counter input)

def handshakeProof (caller : Bool) (initialMaterial : Bytes) :
    Except Error SessionAuthenticationParameters :=
  match a.mac provider 1 caller 0 initialMaterial with
  | .error e => .error e
  | .ok tag => .ok { a.parameters with proof := tag.val }

/-- The domain byte of a request or a response. -/
def keyDomain (response : Bool) : UInt8 := if response then 3 else 2

/-- `seal`: a request counts up when its material changes, a response echoes
the counter of the request it answers. -/
def sealKeys (response : Bool) (material : Bytes) (capacity : Nat) :
    SessionAuthentication × Except Error Bytes :=
  if a.ready = false ∨ material.isEmpty ∨ maximumMaterialSize < material.length
      ∨ capacity < material.length + authenticatedKeyOverhead then
    (a, .error .invalidState)
  else
    let counter := if response then a.receivedCounter else a.sentCounter
    let changed := !response && material != a.lastSent
    if changed ∧ counter = maximumCounter then (a, .error .invalidState)
    else
      let counter := if changed then counter + 1 else counter
      if counter = 0 then (a, .error .invalidState)
      else
        match a.mac provider (keyDomain response) a.caller counter material with
        | .error e => (a, .error e)
        | .ok tag =>
          (if changed then { a with lastSent := material, sentCounter := counter } else a,
            .ok (put64 counter ++ material ++ tag.val))

/-- The counter of an envelope, its body and its tag. -/
def envelopeCounter (input : Bytes) : Nat := get64 (input.take 8)

def envelopeBody (input : Bytes) : Bytes := (input.drop 8).take (input.length - 40)

def envelopeTag (input : Bytes) : Bytes := input.drop (input.length - 32)

/-- `open`. -/
def openKeys (response : Bool) (input : Bytes) : SessionAuthentication × Option Bytes :=
  let counter := envelopeCounter input
  let payload := envelopeBody input
  if a.ready = false ∨ input.length ≤ authenticatedKeyOverhead
      ∨ maximumMaterialSize + authenticatedKeyOverhead < input.length then
    (a, none)
  else if counter = 0
      ∨ (if response then decide (counter ≠ a.sentCounter)
        else decide (counter < a.receivedCounter)) then
    (a, none)
  else
    match a.mac provider (keyDomain response) (!a.caller) counter payload with
    | .error _ => (a, none)
    | .ok tag =>
      if tag.val ≠ envelopeTag input then (a, none)
      else if response then (a, some payload)
      else if counter = a.receivedCounter ∧ payload ≠ a.lastReceived then (a, none)
      else ({ a with lastReceived := payload, receivedCounter := counter }, some payload)

/-! ### Parity -/

/-- The bytes under the MAC of `fec_mac`, given those of the header. -/
def fecMacInput (caller : Bool) (counter : Nat) (header parity : Bytes) : Bytes :=
  macFrame a.version 4 caller counter (writeU16 parity.length ++ (header ++ parity))

def fecMac (caller : Bool) (counter : Nat) (header : DataHeader) (parity : Bytes) :
    Except Error Tag :=
  if a.ready = false ∨ parity.isEmpty
      ∨ maximumDataPayloadSize - authenticatedFecOverhead < parity.length
      ∨ header.messageNumber ≠ 0 then
    .error .invalidState
  else
    match encodePacket (.data { header, payload := [] }) packetHeaderSize with
    | .error e => .error e
    | .ok encoded => provider.hmacSha256 a.key (a.fecMacInput caller counter encoded parity)

def sealFec (header : DataHeader) (parity : Bytes) (capacity : Nat) :
    SessionAuthentication × Except Error Bytes :=
  if a.fecSentCounter = maximumCounter ∨ capacity < parity.length + authenticatedFecOverhead then
    (a, .error .invalidState)
  else
    let counter := a.fecSentCounter + 1
    match a.fecMac provider a.caller counter header parity with
    | .error e => (a, .error e)
    | .ok tag =>
      ({ a with fecSentCounter := counter }, .ok (put64 counter ++ parity ++ tag.val))

def openFec (header : DataHeader) (input : Bytes) : SessionAuthentication × Option Bytes :=
  let counter := envelopeCounter input
  let body := envelopeBody input
  if input.length ≤ authenticatedFecOverhead ∨ maximumDataPayloadSize < input.length then (a, none)
  else if counter = 0 then (a, none)
  else if a.fecReceived.refuses counter then (a, none)
  else
    match a.fecMac provider (!a.caller) counter header body with
    | .error _ => (a, none)
    | .ok tag =>
      if tag.val ≠ envelopeTag input then (a, none)
      else ({ a with fecReceived := a.fecReceived.mark counter }, some body)

/-! ### Controls -/

/-- `acp1_control`: the controls that travel in an envelope. -/
def acp1Control (packet : PacketView) (version : Nat) : Bool :=
  match packet with
  | .data _ => false
  | .control header payload =>
    hasValidControlPayloadShape payload
      && (match header.type with
        | .handshake => false
        | .userDefined => header.subtype == authenticatedKeyRequestSubtype
            || header.subtype == authenticatedKeyResponseSubtype
            || ((version == acp1GroupSessionVersion || version == acp1GroupRendezvousSessionVersion)
              && header.subtype == standbyRttSubtype)
        | _ => header.subtype == 0)

def controlKey (caller : Bool) : Bytes :=
  if caller then a.callerControlKey else a.listenerControlKey

def controlMac (caller : Bool) (wire : Bytes) : Except Error Tag :=
  if a.ready = false ∨ isAcp1SessionVersion a.version = false
      ∨ maximumControlSize - 32 < wire.length then
    .error .invalidState
  else provider.hmacSha256 (a.controlKey caller) (controlLabel ++ wire)

/-- The header of an envelope: times and destination of the control inside. -/
def outerHeader (inner : ControlHeader) : ControlHeader :=
  { inner with type := .userDefined, subtype := authenticatedControlSubtype, typeSpecific := 0 }

/-- Version word, counter and the control itself. -/
def envelopePayload (counter : Nat) (packet : Bytes) : Bytes :=
  [0, 0, 0, 1] ++ put64 counter ++ packet

def sealControl (packet : Bytes) (capacity : Nat) : SessionAuthentication × Except Error Bytes :=
  if a.ready = false ∨ isAcp1SessionVersion a.version = false
      ∨ maximumControlSize - authenticatedControlOverhead < packet.length
      ∨ capacity < packet.length + authenticatedControlOverhead
      ∨ a.controlSentCounter = maximumCounter then
    (a, .error .invalidState)
  else
    match decodePacket packet with
    | .error _ => (a, .error .invalidControlType)
    | .ok (.data _) => (a, .error .invalidControlType)
    | .ok (.control inner payload) =>
      if acp1Control (.control inner payload) a.version = false then
        (a, .error .invalidControlType)
      else
        let counter := a.controlSentCounter + 1
        match encodePacket (.control (outerHeader inner) []) maximumControlSize with
        | .error _ => (a, .error .invalidState)
        | .ok header =>
          let wire := header ++ envelopePayload counter packet
          match a.controlMac provider a.caller wire with
          | .error e => (a, .error e)
          | .ok tag => ({ a with controlSentCounter := counter }, .ok (wire ++ tag.val))

/-- The control inside an envelope, where it may travel in this one. -/
def innerControl (header : ControlHeader) (payload : Bytes) : Option PacketView :=
  match decodePacket ((payload.drop 12).take (payload.length - 44)) with
  | .ok (.control inner body) =>
    if acp1Control (.control inner body) a.version ∧ inner.timestamp = header.timestamp
        ∧ inner.destinationSocketId = header.destinationSocketId then
      some (.control inner body)
    else none
  | _ => none

def openControl (envelope : PacketView) : SessionAuthentication × Option PacketView :=
  match envelope with
  | .data _ => (a, none)
  | .control header payload =>
    let counter := get64 ((payload.drop 4).take 8)
    if a.ready = false ∨ isAcp1SessionVersion a.version = false
        ∨ header.type ≠ .userDefined ∨ header.subtype ≠ authenticatedControlSubtype
        ∨ header.typeSpecific ≠ 0 ∨ payload.length < 12 + packetHeaderSize + 4 + 32
        ∨ maximumControlSize - packetHeaderSize < payload.length
        ∨ payload.take 4 ≠ [0, 0, 0, 1] then
      (a, none)
    else if counter = 0 then (a, none)
    else if a.controlReceived.refuses counter then (a, none)
    else
      match a.innerControl header payload with
      | none => (a, none)
      | some packet =>
        match encodePacket (.control header (payload.take (payload.length - 32)))
            maximumControlSize with
        | .error _ => (a, none)
        | .ok wire =>
          match a.controlMac provider (!a.caller) wire with
          | .error _ => (a, none)
          | .ok tag =>
            if tag.val ≠ payload.drop (payload.length - 32) then (a, none)
            else ({ a with controlReceived := a.controlReceived.mark counter }, some packet)

/-! ### Envelopes as bytes -/

@[simp] theorem put64_length (n : Nat) : (put64 n).length = 8 := rfl

theorem get64_put64 (h : n ≤ maximumCounter) : get64 (put64 n) = n := by
  unfold maximumCounter at h
  simp only [get64, put64, writeU32, writeU16, cons_append, nil_append, foldl_cons,
    foldl_nil, UInt8.toNat_ofNat']
  omega

theorem put64_injective {m : Nat} (hm : m ≤ maximumCounter) (hn : n ≤ maximumCounter)
    (h : put64 m = put64 n) : m = n := by
  rw [← get64_put64 hm, ← get64_put64 hn, h]

/-- Eight bytes hold no more than a counter. -/
theorem get64_le {bytes : Bytes} (h : bytes.length ≤ 8) : get64 bytes ≤ maximumCounter := by
  -- The value of `k` bytes is below `256 ^ k`; the induction is from the right.
  have hvalue : ∀ bytes : Bytes, get64 bytes < 256 ^ bytes.length := by
    intro bytes
    induction bytes using reverseRecOn with
    | nil => decide
    | append_singleton bytes byte ih =>
      have hbyte := byte.toNat_lt
      unfold get64 at ih ⊢
      rw [foldl_append, length_append, length_singleton, Nat.pow_succ]
      simp only [foldl_cons, foldl_nil]
      omega
  have hpow : 256 ^ bytes.length ≤ 256 ^ 8 := Nat.pow_le_pow_right (by decide) h
  have := hvalue bytes
  unfold maximumCounter
  omega

section Envelope

variable (counter : Nat) (body : Bytes) (tag : Tag)

theorem envelope_length : (put64 counter ++ body ++ tag.val).length = body.length + 40 := by
  rw [length_append, length_append, put64_length, tag.property]
  omega

theorem envelopeCounter_envelope {counter : Nat} (h : counter ≤ maximumCounter) :
    envelopeCounter (put64 counter ++ body ++ tag.val) = counter := by
  unfold envelopeCounter
  rw [append_assoc, take_left' (put64_length counter), get64_put64 h]

theorem envelopeBody_envelope : envelopeBody (put64 counter ++ body ++ tag.val) = body := by
  unfold envelopeBody
  rw [envelope_length, append_assoc, drop_left' (put64_length counter),
    Nat.add_sub_cancel, take_left' rfl]

theorem envelopeTag_envelope : envelopeTag (put64 counter ++ body ++ tag.val) = tag.val := by
  unfold envelopeTag
  rw [envelope_length]
  refine drop_left' ?_
  rw [length_append, put64_length]
  omega

end Envelope

theorem envelopeCounter_le (input : Bytes) : envelopeCounter input ≤ maximumCounter :=
  get64_le (length_take_le 8 input)

/-- Domain, direction, counter and rest can be read off a MAC input. -/
theorem macFrame_injective {version : Nat} {d d' : UInt8} {caller' : Bool} {n' : Nat}
    {rest rest' : Bytes} (hn : n ≤ maximumCounter) (hn' : n' ≤ maximumCounter)
    (h : macFrame version d caller n rest = macFrame version d' caller' n' rest') :
    d = d' ∧ caller = caller' ∧ n = n' ∧ rest = rest' := by
  unfold macFrame at h
  obtain ⟨-, h⟩ := append_inj h rfl
  obtain ⟨hfront, h⟩ := append_inj h rfl
  obtain ⟨hcounter, hrest⟩ := append_inj h rfl
  simp only [cons.injEq, and_true] at hfront
  refine ⟨hfront.1, ?_, put64_injective hn hn' hcounter, hrest⟩
  cases caller <;> cases caller' <;> simp_all

/-- A tag under the control label is no tag of the session key's domains. -/
theorem controlLabel_ne_macFrame (version : Nat) (d : UInt8) (caller : Bool) (n : Nat)
    (wire rest : Bytes) : controlLabel ++ wire ≠ macFrame version d caller n rest := by
  intro h
  have hlabel := (append_inj h rfl).1
  have hseventh : controlLabel[6]? = some 83 := congrArg (fun bytes => bytes[6]?) hlabel
  exact absurd hseventh (by decide)

section ControlEnvelope

variable (counter : Nat) (packet : Bytes) (tag : Bytes)

theorem envelopePayload_length : (envelopePayload counter packet).length = packet.length + 12 := by
  simp [envelopePayload]
  omega

theorem counter_envelopePayload {counter : Nat} (h : counter ≤ maximumCounter) :
    get64 (((envelopePayload counter packet ++ tag).drop 4).take 8) = counter := by
  have hbytes : ((envelopePayload counter packet ++ tag).drop 4).take 8 = put64 counter := by
    unfold envelopePayload
    rw [append_assoc, append_assoc, drop_left' (show ([0, 0, 0, 1] : Bytes).length = 4 from rfl),
      take_left' (put64_length counter)]
  rw [hbytes, get64_put64 h]

theorem packet_envelopePayload :
    ((envelopePayload counter packet ++ tag).drop 12).take packet.length = packet := by
  unfold envelopePayload
  rw [append_assoc, drop_left' (show ([0, 0, 0, 1] ++ put64 counter).length = 12 from rfl),
    take_left' rfl]

end ControlEnvelope

/-! ### What the functions do -/

section Specs

variable {provider a}

/-- `start` leaves the own nonce and version, and nothing else. -/
theorem start_ok (provider : AuthenticationProvider) {version : Nat}
    (h : (({} : SessionAuthentication).start provider caller version).2 = .ok ()) :
    ∃ nonce : Bytes, (({} : SessionAuthentication).start provider caller version).1
      = { caller
          started := true
          parameters := if caller then { version, callerNonce := nonce }
            else { version, listenerNonce := nonce } } := by
  unfold start at h ⊢
  by_cases hversion : version ≠ sessionAuthenticationVersion ∧ isAcp1SessionVersion version = false
  · rw [if_pos hversion] at h
    cases h
  rw [if_neg hversion, if_neg Bool.false_ne_true] at h ⊢
  dsimp only at h ⊢
  cases hnonce : provider.randomBytes with
  | error e => rw [hnonce] at h; cases h
  | ok nonce =>
    rw [hnonce] at h
    dsimp only at h ⊢
    by_cases hzero : allZero nonce.val = true
    · rw [if_pos hzero] at h
      cases h
    rw [if_neg hzero]
    exact ⟨nonce.val, rfl⟩

/-- The session key decides the control keys. -/
structure KeysDerived (provider : AuthenticationProvider) (a a' : SessionAuthentication) :
    Prop where
  ready : a'.ready = true
  plain : isAcp1SessionVersion a.version = false → a' = { a with ready := true }
  acp1 : isAcp1SessionVersion a.version = true → ∃ callerKey listenerKey : Tag,
    provider.hmacSha256 a.key (controlKeyInfo true) = .ok callerKey
    ∧ provider.hmacSha256 a.key (controlKeyInfo false) = .ok listenerKey
    ∧ a' = { a with
      callerControlKey := callerKey.val, listenerControlKey := listenerKey.val, ready := true }

theorem deriveControlKeys_ok (h : (a.deriveControlKeys provider).2 = .ok ()) :
    KeysDerived provider a (a.deriveControlKeys provider).1 := by
  unfold deriveControlKeys at h ⊢
  cases hversion : isAcp1SessionVersion a.version with
  | false =>
    rw [if_pos rfl]
    refine ⟨rfl, fun _ => rfl, fun hacp1 => ?_⟩
    rw [hversion] at hacp1
    cases hacp1
  | true =>
    rw [hversion, if_neg nofun] at h
    rw [if_neg nofun]
    cases hcaller : provider.hmacSha256 a.key (controlKeyInfo true) with
    | error e => rw [hcaller] at h; cases h
    | ok callerKey =>
      rw [hcaller] at h
      dsimp only at h ⊢
      cases hlistener : provider.hmacSha256 a.key (controlKeyInfo false) with
      | error e => rw [hlistener] at h; cases h
      | ok listenerKey =>
        refine ⟨rfl, fun hplain => ?_, fun _ => ⟨callerKey, listenerKey, hcaller, hlistener, rfl⟩⟩
        rw [hversion] at hplain
        cases hplain

/-- `establish` behind its checks. -/
theorem establish_ok {passphrase groupContext : Bytes} {peer : SessionAuthenticationParameters}
    {localSocketId peerSocketId localCookie peerCookie : Nat}
    (h : (a.establish provider passphrase peer localSocketId peerSocketId localCookie peerCookie
      groupContext).2 = .ok ()) :
    ∃ parameters, ∃ key : Tag, a.takePeerNonce peer = some parameters
      ∧ provider.pbkdf2HmacSha1 passphrase ({ a with parameters }.salt localSocketId peerSocketId
        localCookie peerCookie groupContext) 2048 = .ok key
      ∧ KeysDerived provider { a with parameters, key := key.val }
        (a.establish provider passphrase peer localSocketId peerSocketId localCookie peerCookie
          groupContext).1 := by
  unfold establish at h ⊢
  cases hcheck : a.checkEstablish passphrase peer localSocketId peerSocketId localCookie
      peerCookie groupContext with
  | error e => rw [hcheck] at h; cases h
  | ok u =>
    rw [hcheck] at h
    dsimp only at h ⊢
    cases hnonce : a.takePeerNonce peer with
    | none => rw [hnonce] at h; cases h
    | some parameters =>
      rw [hnonce] at h
      dsimp only at h ⊢
      cases hkey : provider.pbkdf2HmacSha1 passphrase ({ a with parameters }.salt localSocketId
          peerSocketId localCookie peerCookie groupContext) 2048 with
      | error e => rw [hkey] at h; cases h
      | ok key =>
        rw [hkey] at h
        exact ⟨parameters, key, rfl, hkey, deriveControlKeys_ok h⟩

theorem mac_ok {domain : UInt8} {input : Bytes} {tag : Tag}
    (h : a.mac provider domain caller counter input = .ok tag) :
    a.ready = true ∧ input.length ≤ maximumMaterialSize
      ∧ provider.hmacSha256 a.key (a.macInput domain caller counter input) = .ok tag := by
  unfold mac at h
  split at h
  · cases h
  next hok =>
  rw [not_or, Bool.not_eq_false, Nat.not_lt] at hok
  exact ⟨hok.1, hok.2, h⟩

/-- A sealed request or response. -/
structure SealedKeys (a : SessionAuthentication) (provider : AuthenticationProvider)
    (response : Bool) (material : Bytes) (a' : SessionAuthentication) (counter : Nat)
    (envelope : Bytes) : Prop where
  nonzero : counter ≠ 0
  envelope : ∃ tag : Tag, envelope = put64 counter ++ material ++ tag.val
    ∧ provider.hmacSha256 a.key (a.macInput (keyDomain response) a.caller counter material)
      = .ok tag
  echoes : response = true → counter = a.receivedCounter ∧ a' = a
  counts : response = false → (material = a.lastSent ∧ counter = a.sentCounter ∧ a' = a)
    ∨ (material ≠ a.lastSent ∧ a.sentCounter ≠ maximumCounter ∧ counter = a.sentCounter + 1
      ∧ a' = { a with lastSent := material, sentCounter := counter })

theorem sealKeys_cases (provider : AuthenticationProvider) (a : SessionAuthentication)
    (response : Bool) (material : Bytes) (capacity : Nat) :
    (∃ e, a.sealKeys provider response material capacity = (a, .error e))
    ∨ ∃ a' counter envelope, a.sealKeys provider response material capacity = (a', .ok envelope)
      ∧ SealedKeys a provider response material a' counter envelope := by
  unfold sealKeys
  split
  · exact .inl ⟨_, rfl⟩
  cases response with
  | true =>
    simp only [Bool.not_true, Bool.false_and, Bool.false_eq_true, false_and, if_false, if_true]
    split
    · exact .inl ⟨_, rfl⟩
    next hzero =>
    split
    · exact .inl ⟨_, rfl⟩
    next tag hmac =>
    exact .inr ⟨a, _, _, rfl, hzero, ⟨tag, rfl, (mac_ok hmac).2.2⟩, fun _ => ⟨rfl, rfl⟩, nofun⟩
  | false =>
    simp only [Bool.not_false, Bool.true_and, Bool.false_eq_true, if_false, bne_iff_ne]
    by_cases hsame : material = a.lastSent
    · rw [if_neg (fun h => h.1 hsame), if_neg (not_not.2 hsame)]
      split
      · exact .inl ⟨_, rfl⟩
      next hzero =>
      split
      · exact .inl ⟨_, rfl⟩
      next tag hmac =>
      rw [if_neg (not_not.2 hsame)]
      exact .inr ⟨a, _, _, rfl, hzero, ⟨tag, rfl, (mac_ok hmac).2.2⟩, nofun,
        fun _ => .inl ⟨hsame, rfl, rfl⟩⟩
    split
    · exact .inl ⟨_, rfl⟩
    next hmax =>
    split
    · exact .inl ⟨_, rfl⟩
    next hzero =>
    split
    · exact .inl ⟨_, rfl⟩
    next tag hmac =>
    exact .inr ⟨_, _, _, rfl, hzero, ⟨tag, rfl, (mac_ok hmac).2.2⟩, nofun,
      fun _ => .inr ⟨hsame, fun hfull => hmax ⟨hsame, hfull⟩, rfl, rfl⟩⟩

/-- An opened request or response. -/
structure OpenedKeys (a : SessionAuthentication) (provider : AuthenticationProvider)
    (response : Bool) (input : Bytes) (a' : SessionAuthentication) : Prop where
  nonzero : envelopeCounter input ≠ 0
  tag : ∃ tag : Tag, provider.hmacSha256 a.key (a.macInput (keyDomain response) (!a.caller)
    (envelopeCounter input) (envelopeBody input)) = .ok tag ∧ tag.val = envelopeTag input
  echoes : response = true → envelopeCounter input = a.sentCounter ∧ a' = a
  counts : response = false → a.receivedCounter ≤ envelopeCounter input
    ∧ (envelopeCounter input = a.receivedCounter → envelopeBody input = a.lastReceived)
    ∧ a' = { a with
      lastReceived := envelopeBody input, receivedCounter := envelopeCounter input }

theorem openKeys_cases (provider : AuthenticationProvider) (a : SessionAuthentication)
    (response : Bool) (input : Bytes) :
    a.openKeys provider response input = (a, none)
    ∨ ∃ a', a.openKeys provider response input = (a', some (envelopeBody input))
      ∧ OpenedKeys a provider response input a' := by
  unfold openKeys
  dsimp only
  split
  · exact .inl rfl
  cases response with
  | true =>
    simp only [if_true, decide_eq_true_eq]
    split
    · exact .inl rfl
    next hcounter =>
    rw [not_or, not_not] at hcounter
    split
    · exact .inl rfl
    next tag hmac =>
    split
    · exact .inl rfl
    next htag =>
    exact .inr ⟨a, rfl, hcounter.1, ⟨tag, (mac_ok hmac).2.2, not_not.1 htag⟩,
      fun _ => ⟨hcounter.2, rfl⟩, nofun⟩
  | false =>
    simp only [Bool.false_eq_true, if_false, decide_eq_true_eq]
    split
    · exact .inl rfl
    next hcounter =>
    rw [not_or, Nat.not_lt] at hcounter
    split
    · exact .inl rfl
    next tag hmac =>
    split
    · exact .inl rfl
    next htag =>
    split
    · exact .inl rfl
    next hrepeat =>
    refine .inr ⟨_, rfl, hcounter.1, ⟨tag, (mac_ok hmac).2.2, not_not.1 htag⟩, nofun,
      fun _ => ⟨hcounter.2, fun hsame => ?_, rfl⟩⟩
    by_contra hother
    exact hrepeat ⟨hsame, hother⟩

/-- The header of a parity packet always encodes. -/
theorem fecMac_eq (caller : Bool) (counter : Nat) (header : DataHeader) (parity : Bytes) :
    a.fecMac provider caller counter header parity = if a.ready = false ∨ parity.isEmpty
          ∨ maximumDataPayloadSize - authenticatedFecOverhead < parity.length
          ∨ header.messageNumber ≠ 0 then .error .invalidState
        else provider.hmacSha256 a.key (a.fecMacInput caller counter header.bytes parity) := by
  unfold fecMac encodePacket
  simp [packetHeaderSize]

theorem fecMac_ok {header : DataHeader} {parity : Bytes} {tag : Tag}
    (h : a.fecMac provider caller counter header parity = .ok tag) :
    parity ≠ [] ∧ parity.length ≤ maximumDataPayloadSize - authenticatedFecOverhead
      ∧ header.messageNumber = 0
      ∧ provider.hmacSha256 a.key (a.fecMacInput caller counter header.bytes parity) = .ok tag := by
  rw [fecMac_eq] at h
  split at h
  · cases h
  next hok =>
  simp only [not_or, Nat.not_lt, not_not] at hok
  exact ⟨by simpa using hok.2.1, hok.2.2.1, hok.2.2.2, h⟩

section

variable (provider : AuthenticationProvider) (a : SessionAuthentication) (header : DataHeader)

theorem sealFec_cases (parity : Bytes) (capacity : Nat) :
    (∃ e, a.sealFec provider header parity capacity = (a, .error e))
    ∨ ∃ tag : Tag, a.fecSentCounter ≠ maximumCounter
      ∧ a.fecMac provider a.caller (a.fecSentCounter + 1) header parity = .ok tag
      ∧ a.sealFec provider header parity capacity
        = ({ a with fecSentCounter := a.fecSentCounter + 1 },
          .ok (put64 (a.fecSentCounter + 1) ++ parity ++ tag.val)) := by
  unfold sealFec
  split
  · exact .inl ⟨_, rfl⟩
  next hroom =>
  dsimp only
  split
  · exact .inl ⟨_, rfl⟩
  · next tag hmac => exact .inr ⟨tag, (not_or.1 hroom).1, hmac, rfl⟩

theorem openFec_cases (input : Bytes) : a.openFec provider header input = (a, none)
    ∨ (envelopeCounter input ≠ 0 ∧ a.fecReceived.refuses (envelopeCounter input) = false
      ∧ (∃ tag : Tag, a.fecMac provider (!a.caller) (envelopeCounter input) header
          (envelopeBody input) = .ok tag ∧ tag.val = envelopeTag input)
      ∧ a.openFec provider header input
        = ({ a with fecReceived := a.fecReceived.mark (envelopeCounter input) },
          some (envelopeBody input))) := by
  unfold openFec
  dsimp only
  split
  · exact .inl rfl
  split
  · exact .inl rfl
  next hzero =>
  split
  · exact .inl rfl
  next hwindow =>
  split
  · exact .inl rfl
  next tag hmac =>
  split
  · exact .inl rfl
  next htag =>
  exact .inr ⟨hzero, Bool.eq_false_iff.2 hwindow, ⟨tag, hmac, not_not.1 htag⟩, rfl⟩

end

theorem controlMac_ok {wire : Bytes} {tag : Tag} (h : a.controlMac provider caller wire = .ok tag) :
    isAcp1SessionVersion a.version = true
      ∧ provider.hmacSha256 (a.controlKey caller) (controlLabel ++ wire) = .ok tag := by
  unfold controlMac at h
  split at h
  · cases h
  next hok =>
  rw [not_or, not_or, Bool.not_eq_false] at hok
  exact ⟨by simpa using hok.2.1, h⟩

/-- A sealed control: `inner` and `payload` are what `packet` decodes to. -/
structure SealedControl (a : SessionAuthentication) (provider : AuthenticationProvider)
    (packet : Bytes) (inner : ControlHeader) (payload : Bytes) (tag : Tag) : Prop where
  room : a.controlSentCounter ≠ maximumCounter
  size : packet.length ≤ maximumControlSize - authenticatedControlOverhead
  decoded : decodePacket packet = .ok (.control inner payload)
  carried : acp1Control (.control inner payload) a.version = true
  tag : a.controlMac provider a.caller
    ((outerHeader inner).bytes ++ envelopePayload (a.controlSentCounter + 1) packet) = .ok tag

/-- The header of an envelope always encodes. -/
theorem encodePacket_outerHeader (inner : ControlHeader) :
    encodePacket (.control (outerHeader inner) []) maximumControlSize
      = .ok (outerHeader inner).bytes := by
  simp [encodePacket, outerHeader, ControlType.usesZeroWordPayload, maximumControlSize,
    packetHeaderSize]

theorem sealControl_cases (provider : AuthenticationProvider) (a : SessionAuthentication)
    (packet : Bytes) (capacity : Nat) :
    (∃ e, a.sealControl provider packet capacity = (a, .error e))
    ∨ ∃ inner payload tag, SealedControl a provider packet inner payload tag
      ∧ a.sealControl provider packet capacity
        = ({ a with controlSentCounter := a.controlSentCounter + 1 },
          .ok ((outerHeader inner).bytes ++ envelopePayload (a.controlSentCounter + 1) packet
            ++ tag.val)) := by
  unfold sealControl
  split
  · exact .inl ⟨_, rfl⟩
  next hguard =>
  simp only [not_or, Nat.not_lt] at hguard
  obtain ⟨-, -, hsize, -, hroom⟩ := hguard
  split
  · exact .inl ⟨_, rfl⟩
  · exact .inl ⟨_, rfl⟩
  next inner payload hdecoded =>
  split
  · exact .inl ⟨_, rfl⟩
  next hcarried =>
  rw [encodePacket_outerHeader]
  dsimp only
  split
  · exact .inl ⟨_, rfl⟩
  next tag hmac =>
  exact .inr ⟨inner, payload, tag, ⟨hroom, hsize, hdecoded, by simpa using hcarried, hmac⟩, rfl⟩

/-- The shape of an envelope that is looked into at all. -/
def EnvelopeShape (a : SessionAuthentication) (header : ControlHeader) (payload : Bytes) : Prop :=
  ¬ (a.ready = false ∨ isAcp1SessionVersion a.version = false
    ∨ header.type ≠ .userDefined ∨ header.subtype ≠ authenticatedControlSubtype
    ∨ header.typeSpecific ≠ 0 ∨ payload.length < 12 + packetHeaderSize + 4 + 32
    ∨ maximumControlSize - packetHeaderSize < payload.length
    ∨ payload.take 4 ≠ [0, 0, 0, 1])

/-- An opened control. -/
structure OpenedControl (a : SessionAuthentication) (provider : AuthenticationProvider)
    (header : ControlHeader) (payload : Bytes) : Prop where
  shape : EnvelopeShape a header payload
  nonzero : get64 ((payload.drop 4).take 8) ≠ 0
  window : a.controlReceived.refuses (get64 ((payload.drop 4).take 8)) = false
  tag : ∃ wire, ∃ tag : Tag,
    encodePacket (.control header (payload.take (payload.length - 32))) maximumControlSize
      = .ok wire
    ∧ a.controlMac provider (!a.caller) wire = .ok tag
    ∧ tag.val = payload.drop (payload.length - 32)

theorem openControl_cases (provider : AuthenticationProvider) (a : SessionAuthentication)
    (envelope : PacketView) :
    a.openControl provider envelope = (a, none)
    ∨ ∃ header payload packet, envelope = .control header payload
      ∧ OpenedControl a provider header payload
      ∧ a.openControl provider envelope
        = ({ a with controlReceived := a.controlReceived.mark (get64 ((payload.drop 4).take 8)) },
          some packet) := by
  unfold openControl
  split
  · exact .inl rfl
  next header payload =>
  dsimp only
  split
  · exact .inl rfl
  next hshape =>
  split
  · exact .inl rfl
  next hzero =>
  split
  · exact .inl rfl
  next hwindow =>
  split
  · exact .inl rfl
  next packet _ =>
  split
  · exact .inl rfl
  next wire hwire =>
  split
  · exact .inl rfl
  next tag hmac =>
  split
  · exact .inl rfl
  next htag =>
  exact .inr ⟨header, payload, packet, rfl, ⟨hshape, hzero, Bool.eq_false_iff.2 hwindow,
    wire, tag, hwire, hmac, not_not.1 htag⟩, rfl⟩

end Specs

end SessionAuthentication

end Srt
