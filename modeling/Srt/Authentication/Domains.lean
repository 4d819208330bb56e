/-
# `Domains` — no two messages share the bytes of a MAC or of a derivation

Everything `SessionAuthentication` computes under its session key, as one type:
proofs of the handshake, requests and responses of key material, parity
envelopes, and the expansion of the control keys.  Each is laid out as a fixed
front and one field of variable length, so its bytes determine it, and the front
names the kind.  Each call of the session asks for one of them, with its own
domain, direction, counter and material.  The salt the session key is derived
with determines, in the same way, all that the two ends must agree on.
-/
import Srt.Authentication.Session

namespace Srt

open SessionAuthentication

/-! ## Words and headers -/

variable {m n : Nat} {s t : Bytes}

theorem writeU32_append_inj (hm : m < 2 ^ 32) (hn : n < 2 ^ 32)
    (h : writeU32 m ++ s = writeU32 n ++ t) : m = n ∧ s = t := by
  obtain ⟨hword, hrest⟩ := List.append_inj h rfl
  refine ⟨?_, hrest⟩
  simp only [writeU32, writeU16, List.cons_append, List.nil_append, List.cons.injEq, and_true]
    at hword
  rw [← readU32_writeU32 hm, ← readU32_writeU32 hn, hword.1, hword.2.1, hword.2.2.1, hword.2.2.2]

theorem put64_append_inj (hm : m < 2 ^ 64) (hn : n < 2 ^ 64)
    (h : put64 m ++ s = put64 n ++ t) : m = n ∧ s = t := by
  obtain ⟨hcounter, hrest⟩ := List.append_inj h rfl
  exact ⟨put64_injective (Nat.le_sub_one_of_lt hm) (Nat.le_sub_one_of_lt hn) hcounter, hrest⟩

/-- The fields of a header in their widths. -/
structure DataHeader.Sized (h : DataHeader) : Prop where
  messageNumber : h.messageNumber < 2 ^ 26
  destinationSocketId : h.destinationSocketId < 2 ^ 32

/-- The second word of a DATA header. -/
def DataHeader.flags (h : DataHeader) : Nat :=
  h.boundary.value * 2 ^ 30 + h.inOrder.toNat * 2 ^ 29 + h.encryptionKey.value.toNat * 2 ^ 27
    + h.retransmitted.toNat * 2 ^ 26 + h.messageNumber % 2 ^ 26

theorem MessageBoundary.value_lt (b : MessageBoundary) : b.value < 4 := by
  cases b <;> decide

theorem MessageBoundary.value_inj {b b' : MessageBoundary} (h : b.value = b'.value) : b = b' := by
  cases b <;> cases b' <;> first | rfl | cases h

theorem EncryptionKey.value_toNat_lt (k : EncryptionKey) : k.value.toNat < 4 := by
  cases k <;> decide

theorem EncryptionKey.value_inj {k k' : EncryptionKey} (h : k.value = k'.value) : k = k' := by
  rw [← (EncryptionKey.value_masks k).2, ← (EncryptionKey.value_masks k').2, h]

theorem bool_toNat_inj {a b : Bool} (h : a.toNat = b.toNat) : a = b := by
  cases a <;> cases b <;> first | rfl | cases h

theorem DataHeader.flags_inj {h k : DataHeader} (hh : h.Sized) (hk : k.Sized)
    (heq : h.flags = k.flags) :
    h.boundary = k.boundary ∧ h.inOrder = k.inOrder ∧ h.encryptionKey = k.encryptionKey
      ∧ h.retransmitted = k.retransmitted ∧ h.messageNumber = k.messageNumber := by
  -- each field is below the weight of the next one
  have hboundary := h.boundary.value_lt
  have hboundary' := k.boundary.value_lt
  have horder := h.inOrder.toNat_lt
  have horder' := k.inOrder.toNat_lt
  have hkey := h.encryptionKey.value_toNat_lt
  have hkey' := k.encryptionKey.value_toNat_lt
  have hretransmitted := h.retransmitted.toNat_lt
  have hretransmitted' := k.retransmitted.toNat_lt
  have hnumber := hh.messageNumber
  have hnumber' := hk.messageNumber
  unfold flags at heq
  refine ⟨MessageBoundary.value_inj ?_, bool_toNat_inj ?_,
    EncryptionKey.value_inj (UInt8.toNat_inj.1 ?_), bool_toNat_inj ?_, ?_⟩
  all_goals omega

theorem DataHeader.flags_lt (h : DataHeader) : h.flags < 2 ^ 32 := by
  have hboundary := h.boundary.value_lt
  have horder := h.inOrder.toNat_lt
  have hkey := h.encryptionKey.value_toNat_lt
  have hretransmitted := h.retransmitted.toNat_lt
  unfold flags
  omega

theorem DataHeader.bytes_append_inj {h k : DataHeader} (hh : h.Sized) (hk : k.Sized)
    (heq : h.bytes ++ s = k.bytes ++ t) : h = k ∧ s = t := by
  have hbytes : ∀ (d : DataHeader) (r : Bytes), d.bytes ++ r
      = writeU32 d.sequence.value ++ (writeU32 d.flags
        ++ (writeU32 d.timestamp.value.toNat ++ (writeU32 d.destinationSocketId ++ r))) := by
    intro d r
    simp only [DataHeader.bytes, DataHeader.flags, List.append_assoc]
  have hsequence : ∀ d : DataHeader, d.sequence.value < 2 ^ 32 :=
    fun d => d.sequence.value_lt.trans (by decide)
  rw [hbytes, hbytes] at heq
  obtain ⟨h1, heq⟩ := writeU32_append_inj (hsequence h) (hsequence k) heq
  obtain ⟨h2, heq⟩ := writeU32_append_inj h.flags_lt k.flags_lt heq
  obtain ⟨h3, heq⟩ := writeU32_append_inj h.timestamp.value.toNat_lt k.timestamp.value.toNat_lt heq
  obtain ⟨h4, hrest⟩ := writeU32_append_inj hh.destinationSocketId hk.destinationSocketId heq
  obtain ⟨hboundary, horder, hkey, hretransmitted, hnumber⟩ := flags_inj hh hk h2
  have hseq : h.sequence = k.sequence := SequenceNumber.ext h1
  have htime : h.timestamp = k.timestamp := congrArg PacketTimestamp.mk (UInt32.toNat_inj.1 h3)
  refine ⟨?_, hrest⟩
  cases h
  cases k
  simp_all

/-! ## Inputs under the session key -/

/-- Everything a session computes an HMAC of under its session key. -/
inductive SessionInput
  | proof (version : Nat) (caller : Bool) (material : Bytes)
  | keys (version : Nat) (response caller : Bool) (counter : Nat) (material : Bytes)
  | parity (version : Nat) (caller : Bool) (counter : Nat) (header : DataHeader) (parity : Bytes)
  | expansion (caller : Bool)
  deriving DecidableEq, Repr

namespace SessionInput

def bytes : SessionInput → Bytes
  | .proof version caller material =>
    macFrame version 1 caller 0 (writeU16 material.length ++ material)
  | .keys version response caller counter material =>
    macFrame version (keyDomain response) caller counter
      (writeU16 material.length ++ material)
  | .parity version caller counter header payload =>
    macFrame version 4 caller counter (writeU16 payload.length ++ (header.bytes ++ payload))
  | .expansion caller => controlKeyInfo caller

/-- The fields in their widths. -/
def Sized : SessionInput → Prop
  | .proof version _ _ => version < 256
  | .keys version _ _ counter _ => version < 256 ∧ counter < 2 ^ 64
  | .parity version _ counter header _ => version < 256 ∧ counter < 2 ^ 64 ∧ header.Sized
  | .expansion _ => True

end SessionInput

theorem domainLabel_inj {v w : Nat} (hv : v < 256) (hw : w < 256)
    (h : domainLabel v = domainLabel w) : v = w := by
  have hbyte := (List.append_inj h rfl).2
  simp only [List.cons.injEq, and_true] at hbyte
  have hnat := congrArg UInt8.toNat hbyte
  simp only [UInt8.toNat_ofNat'] at hnat
  omega

/-- Version, domain, direction, counter and rest can be read off an input. -/
theorem macFrame_inj {v w : Nat} {d e : UInt8} {caller caller' : Bool} (hv : v < 256) (hw : w < 256)
    (hm : m < 2 ^ 64) (hn : n < 2 ^ 64) (h : macFrame v d caller m s = macFrame w e caller' n t) :
    v = w ∧ d = e ∧ caller = caller' ∧ m = n ∧ s = t := by
  have hversion : v = w := domainLabel_inj hv hw (List.append_inj h rfl).1
  subst hversion
  exact ⟨rfl, macFrame_injective (Nat.le_sub_one_of_lt hm) (Nat.le_sub_one_of_lt hn) h⟩

theorem controlKeyInfo_ne_macFrame (caller caller' : Bool) (v : Nat) (d : UInt8) (n : Nat)
    (s : Bytes) : controlKeyInfo caller ≠ macFrame v d caller' n s := by
  intro h
  -- one label goes on with an A where the other has an S
  have hseventh : (controlKeyInfo caller)[6]? = some 83 := congrArg (fun bytes => bytes[6]?) h
  cases caller <;> exact absurd hseventh (by decide)

theorem writeU16_append_inj (h : writeU16 s.length ++ s = writeU16 t.length ++ t) : s = t :=
  (List.append_inj h rfl).2

theorem keyDomain_inj {r s : Bool} (h : keyDomain r = keyDomain s) : r = s := by
  cases r <;> cases s <;> first | rfl | cases h

theorem keyDomain_between (r : Bool) : keyDomain r ≠ 1 ∧ keyDomain r ≠ 4 := by
  cases r <;> decide

theorem SessionInput.bytes_inj {x y : SessionInput} (hx : x.Sized) (hy : y.Sized)
    (h : x.bytes = y.bytes) : x = y := by
  cases x with
  | proof v c s =>
    cases y with
    | proof w d t =>
      obtain ⟨rfl, -, rfl, -, hrest⟩ := macFrame_inj hx hy (by decide) (by decide) h
      rw [writeU16_append_inj hrest]
    | keys w r d n t =>
      obtain ⟨-, hdomain, -⟩ := macFrame_inj hx hy.1 (by decide) hy.2 h
      exact absurd hdomain.symm (keyDomain_between r).1
    | parity w d n k t =>
      obtain ⟨-, hdomain, -⟩ := macFrame_inj hx hy.1 (by decide) hy.2.1 h
      cases hdomain
    | expansion d => exact absurd h.symm (controlKeyInfo_ne_macFrame _ _ _ _ _ _)
  | keys v r c m s =>
    cases y with
    | proof w d t =>
      obtain ⟨-, hdomain, -⟩ := macFrame_inj hx.1 hy hx.2 (by decide) h
      exact absurd hdomain (keyDomain_between r).1
    | keys w r' d n t =>
      obtain ⟨rfl, hdomain, rfl, rfl, hrest⟩ := macFrame_inj hx.1 hy.1 hx.2 hy.2 h
      rw [writeU16_append_inj hrest, keyDomain_inj hdomain]
    | parity w d n k t =>
      obtain ⟨-, hdomain, -⟩ := macFrame_inj hx.1 hy.1 hx.2 hy.2.1 h
      exact absurd hdomain (keyDomain_between r).2
    | expansion d => exact absurd h.symm (controlKeyInfo_ne_macFrame _ _ _ _ _ _)
  | parity v c m k s =>
    cases y with
    | proof w d t =>
      obtain ⟨-, hdomain, -⟩ := macFrame_inj hx.1 hy hx.2.1 (by decide) h
      cases hdomain
    | keys w r d n t =>
      obtain ⟨-, hdomain, -⟩ := macFrame_inj hx.1 hy.1 hx.2.1 hy.2 h
      exact absurd hdomain.symm (keyDomain_between r).2
    | parity w d n k' t =>
      obtain ⟨rfl, -, rfl, rfl, hrest⟩ := macFrame_inj hx.1 hy.1 hx.2.1 hy.2.1 h
      obtain ⟨rfl, rfl⟩ := DataHeader.bytes_append_inj hx.2.2 hy.2.2 (List.append_inj hrest rfl).2
      rfl
    | expansion d => exact absurd h.symm (controlKeyInfo_ne_macFrame _ _ _ _ _ _)
  | expansion c =>
    cases y with
    | expansion d =>
      have hdirection : (controlKeyInfo c)[16]?
          = (controlKeyInfo d)[16]? := congrArg (fun bytes => bytes[16]?) h
      cases c <;> cases d <;> first | rfl | exact absurd hdirection (by decide)
    | _ => exact absurd h (controlKeyInfo_ne_macFrame _ _ _ _ _ _)

namespace SessionAuthentication

/-- The members in their widths. -/
structure Ranged (a : SessionAuthentication) : Prop where
  version : a.version < 256
  sentCounter : a.sentCounter < 2 ^ 64
  receivedCounter : a.receivedCounter < 2 ^ 64
  fecSentCounter : a.fecSentCounter < 2 ^ 64

/-! ### What a call asks for -/

/-- The counter of the next envelope: a request counts up when its material changes. -/
def keyCounter (a : SessionAuthentication) (response : Bool) (material : Bytes) : Nat :=
  let counter := if response then a.receivedCounter else a.sentCounter
  if !response && material != a.lastSent then counter + 1 else counter

def sealedKeys (a : SessionAuthentication) (response : Bool) (material : Bytes) : SessionInput :=
  .keys a.version response a.caller (a.keyCounter response material) material

def openedKeys (a : SessionAuthentication) (response : Bool) (input : Bytes) : SessionInput :=
  .keys a.version response (!a.caller) (envelopeCounter input) (envelopeBody input)

def sealedFec (a : SessionAuthentication) (header : DataHeader) (parity : Bytes) : SessionInput :=
  .parity a.version a.caller (a.fecSentCounter + 1) header parity

def openedFec (a : SessionAuthentication) (header : DataHeader) (input : Bytes) : SessionInput :=
  .parity a.version (!a.caller) (envelopeCounter input) header (envelopeBody input)

/-- Two providers that answer alike where a session asks for one message. -/
def AnswerAlike (a : SessionAuthentication) (p q : AuthenticationProvider) (x : SessionInput) :
    Prop :=
  x.Sized → p.hmacSha256 a.key x.bytes = q.hmacSha256 a.key x.bytes

section Calls

variable {a : SessionAuthentication} {p q : AuthenticationProvider}

section

variable (hr : a.Ranged)
include hr

theorem handshakeProof_congr (caller : Bool) (material : Bytes)
    (h : a.AnswerAlike p q (.proof a.version caller material)) :
    a.handshakeProof p caller material = a.handshakeProof q caller material := by
  have hproof : p.hmacSha256 a.key (a.macInput 1 caller 0 material)
      = q.hmacSha256 a.key (a.macInput 1 caller 0 material) := h hr.version
  unfold handshakeProof mac
  rw [hproof]

theorem mac_congr (response caller : Bool) {counter : Nat} (hcounter : counter < 2 ^ 64)
    (material : Bytes) (h : a.AnswerAlike p q (.keys a.version response caller counter material)) :
    a.mac p (keyDomain response) caller counter material
      = a.mac q (keyDomain response) caller counter material := by
  have hkeys : p.hmacSha256 a.key (a.macInput (keyDomain response) caller counter material)
      = q.hmacSha256 a.key (a.macInput (keyDomain response) caller counter material) :=
    h ⟨hr.version, hcounter⟩
  unfold mac
  rw [hkeys]

theorem sealKeys_congr (response : Bool) (material : Bytes) (capacity : Nat)
    (h : a.AnswerAlike p q (a.sealedKeys response material)) :
    a.sealKeys p response material capacity = a.sealKeys q response material capacity := by
  have hwidth : (if response = true then a.receivedCounter else a.sentCounter) < 2 ^ 64 := by
    split
    · exact hr.receivedCounter
    · exact hr.sentCounter
  unfold sealedKeys keyCounter at h
  unfold sealKeys
  generalize (if response = true then a.receivedCounter else a.sentCounter) = counter at h hwidth ⊢
  generalize (!response && material != a.lastSent) = changed at h ⊢
  split
  · rfl
  simp only
  split
  · rfl
  next hlast =>
  -- the counter counts up only below its last value
  have hcounter : (if changed = true then counter + 1 else counter) < 2 ^ 64 := by
    unfold maximumCounter at hlast
    split
    · next hchanged =>
      have hne : counter ≠ 2 ^ 64 - 1 := fun heq => hlast ⟨hchanged, heq⟩
      omega
    · exact hwidth
  rw [mac_congr hr response a.caller hcounter material h]

theorem openKeys_congr (response : Bool) (input : Bytes)
    (h : a.AnswerAlike p q (a.openedKeys response input)) :
    a.openKeys p response input = a.openKeys q response input := by
  have hcounter : envelopeCounter input < 2 ^ 64 :=
    Nat.lt_of_le_sub_one (by decide) (envelopeCounter_le input)
  unfold openKeys
  dsimp only
  rw [mac_congr hr response (!a.caller) hcounter (envelopeBody input) h]

variable {header : DataHeader} (hid : header.destinationSocketId < 2 ^ 32)
include hid

theorem fecMac_congr (caller : Bool) {counter : Nat} (hcounter : counter < 2 ^ 64) (parity : Bytes)
    (h : a.AnswerAlike p q (.parity a.version caller counter header parity)) :
    a.fecMac p caller counter header parity = a.fecMac q caller counter header parity := by
  rw [fecMac_eq, fecMac_eq]
  split
  · rfl
  next hok =>
  simp only [not_or, not_not] at hok
  exact h ⟨hr.version, hcounter, by rw [hok.2.2.2]; decide, hid⟩

theorem sealFec_congr (parity : Bytes) (capacity : Nat)
    (h : a.AnswerAlike p q (a.sealedFec header parity)) :
    a.sealFec p header parity capacity = a.sealFec q header parity capacity := by
  unfold sealFec
  split
  · rfl
  next hlast =>
  have hcounter : a.fecSentCounter + 1 < 2 ^ 64 := by
    have hsent := hr.fecSentCounter
    unfold maximumCounter at hlast
    omega
  simp only
  rw [fecMac_congr hr hid a.caller hcounter parity h]

theorem openFec_congr (input : Bytes) (h : a.AnswerAlike p q (a.openedFec header input)) :
    a.openFec p header input = a.openFec q header input := by
  have hcounter : envelopeCounter input < 2 ^ 64 :=
    Nat.lt_of_le_sub_one (by decide) (envelopeCounter_le input)
  unfold openFec
  dsimp only
  rw [fecMac_congr hr hid (!a.caller) hcounter (envelopeBody input) h]

end

theorem deriveControlKeys_congr (h : ∀ caller, a.AnswerAlike p q (.expansion caller)) :
    a.deriveControlKeys p = a.deriveControlKeys q := by
  have hexpand : ∀ caller, p.hmacSha256 a.key (controlKeyInfo caller)
      = q.hmacSha256 a.key (controlKeyInfo caller) := fun caller => h caller trivial
  unfold deriveControlKeys
  rw [hexpand true, hexpand false]

/-- The tag of a sealed request or response. -/
theorem sealKeys_tag {response : Bool} {material out : Bytes} {capacity : Nat}
    (h : (a.sealKeys p response material capacity).2 = .ok out) :
    ∃ tag, p.hmacSha256 a.key (a.sealedKeys response material).bytes = .ok tag
      ∧ out = put64 (a.keyCounter response material) ++ material ++ tag.val := by
  unfold sealKeys at h
  unfold sealedKeys keyCounter
  simp only at h ⊢
  generalize (if response = true then a.receivedCounter else a.sentCounter) = counter at h ⊢
  generalize (!response && material != a.lastSent) = changed at h ⊢
  generalize (if changed = true then counter + 1 else counter) = next at h ⊢
  split at h
  · cases h
  split at h
  · cases h
  split at h
  · cases h
  split at h
  · cases h
  next tag hmac =>
  cases h
  exact ⟨tag, (mac_ok hmac).2.2, rfl⟩

end Calls

/-! ## The salt -/

/-- What the two ends of a session must agree on. -/
structure Agreed where
  version : Nat
  callerNonce : Bytes
  listenerNonce : Bytes
  callerSocketId : Nat
  listenerSocketId : Nat
  callerCookie : Nat
  listenerCookie : Nat
  groupContext : Bytes
  deriving DecidableEq, Repr

/-- The same, as one end of the session sees it. -/
def agreed (a : SessionAuthentication) (localSocketId peerSocketId localCookie peerCookie : Nat)
    (groupContext : Bytes) : Agreed where
  version := a.version
  callerNonce := a.parameters.callerNonce
  listenerNonce := a.parameters.listenerNonce
  callerSocketId := if a.caller then localSocketId else peerSocketId
  listenerSocketId := if a.caller then peerSocketId else localSocketId
  callerCookie := if a.caller then localCookie else peerCookie
  listenerCookie := if a.caller then peerCookie else localCookie
  groupContext := groupContext

namespace Agreed

def rendezvous (g : Agreed) : Bool :=
  g.version == acp1RendezvousSessionVersion || g.version == acp1GroupRendezvousSessionVersion

def salt (g : Agreed) : Bytes :=
  domainLabel g.version ++ (g.callerNonce ++ (g.listenerNonce ++ (put64 g.callerSocketId
    ++ (put64 g.listenerSocketId ++ ((if g.rendezvous then
      put64 g.callerCookie ++ put64 g.listenerCookie else []) ++ g.groupContext)))))

/-- The fields in their widths; there are cookies in a rendezvous only. -/
structure Sized (g : Agreed) : Prop where
  version : g.version < 256
  callerNonce : g.callerNonce.length = 32
  listenerNonce : g.listenerNonce.length = 32
  callerSocketId : g.callerSocketId < 2 ^ 64
  listenerSocketId : g.listenerSocketId < 2 ^ 64
  callerCookie : g.callerCookie < 2 ^ 64
  listenerCookie : g.listenerCookie < 2 ^ 64
  cookies : g.rendezvous = false → g.callerCookie = 0 ∧ g.listenerCookie = 0

theorem salt_inj {g g' : Agreed} (h : g.Sized) (h' : g'.Sized) (heq : g.salt = g'.salt) :
    g = g' := by
  obtain ⟨hlabel, heq⟩ := List.append_inj heq rfl
  have hversion : g.version = g'.version := domainLabel_inj h.version h'.version hlabel
  obtain ⟨hcaller, heq⟩ := List.append_inj heq (h.callerNonce.trans h'.callerNonce.symm)
  obtain ⟨hlistener, heq⟩ := List.append_inj heq (h.listenerNonce.trans h'.listenerNonce.symm)
  obtain ⟨hcallerId, heq⟩ := put64_append_inj h.callerSocketId h'.callerSocketId heq
  obtain ⟨hlistenerId, heq⟩ := put64_append_inj h.listenerSocketId h'.listenerSocketId heq
  have hsame : g.rendezvous = g'.rendezvous := by
    unfold rendezvous
    rw [hversion]
  have hcookies : g.callerCookie = g'.callerCookie ∧ g.listenerCookie = g'.listenerCookie
      ∧ g.groupContext = g'.groupContext := by
    cases hrendezvous : g.rendezvous with
    | false =>
      have hnone := h.cookies hrendezvous
      have hnone' := h'.cookies (hsame ▸ hrendezvous)
      rw [← hsame, hrendezvous] at heq
      exact ⟨hnone.1.trans hnone'.1.symm, hnone.2.trans hnone'.2.symm, heq⟩
    | true =>
      rw [← hsame, hrendezvous, if_pos rfl, if_pos rfl, List.append_assoc, List.append_assoc] at heq
      obtain ⟨hc, heq⟩ := put64_append_inj h.callerCookie h'.callerCookie heq
      obtain ⟨hl, hcontext⟩ := put64_append_inj h.listenerCookie h'.listenerCookie heq
      exact ⟨hc, hl, hcontext⟩
  cases g
  cases g'
  simp_all

end Agreed

theorem salt_eq (a : SessionAuthentication)
    (localSocketId peerSocketId localCookie peerCookie : Nat) (groupContext : Bytes) :
    a.salt localSocketId peerSocketId localCookie peerCookie groupContext
      = (a.agreed localSocketId peerSocketId localCookie peerCookie groupContext).salt := by
  simp only [salt, agreed, Agreed.salt, Agreed.rendezvous, List.append_assoc]
  rfl

/-- The arguments of `establish` and the members it reads, in their widths. -/
structure Presented (a : SessionAuthentication)
    (localSocketId peerSocketId localCookie peerCookie : Nat) : Prop where
  version : a.version < 256
  callerNonce : a.parameters.callerNonce.length = 32
  listenerNonce : a.parameters.listenerNonce.length = 32
  localSocketId : localSocketId < 2 ^ 32
  peerSocketId : peerSocketId < 2 ^ 32
  localCookie : localCookie < 2 ^ 32
  peerCookie : peerCookie < 2 ^ 32

theorem sized_agreed {a : SessionAuthentication} {passphrase : Bytes}
    {peer : SessionAuthenticationParameters}
    {localSocketId peerSocketId localCookie peerCookie : Nat} {groupContext : Bytes}
    (h : a.Presented localSocketId peerSocketId localCookie peerCookie)
    (hcheck : a.checkEstablish passphrase peer localSocketId peerSocketId localCookie peerCookie
      groupContext = .ok ()) :
    (a.agreed localSocketId peerSocketId localCookie peerCookie groupContext).Sized := by
  have hpick : ∀ {b : Bool} {m n : Nat}, m < 2 ^ 32 → n < 2 ^ 32 →
      (if b = true then m else n) < 2 ^ 64 := by
    intro b m n hm hn
    split <;> omega
  refine ⟨h.version, h.callerNonce, h.listenerNonce, hpick h.localSocketId h.peerSocketId,
    hpick h.peerSocketId h.localSocketId, hpick h.localCookie h.peerCookie,
    hpick h.peerCookie h.localCookie, fun hplain => ?_⟩
  -- without a rendezvous `establish` refuses any cookie
  have hnone : localCookie = 0 ∧ peerCookie = 0 := by
    have hno : (a.version == acp1RendezvousSessionVersion
        || a.version == acp1GroupRendezvousSessionVersion) = false := hplain
    unfold checkEstablish at hcheck
    rw [hno] at hcheck
    by_contra hcookie
    have hrefused : decide (localCookie ≠ 0 ∨ peerCookie ≠ 0) = true := by
      simp only [decide_eq_true_eq]
      omega
    simp only [Bool.false_eq_true, if_false, hrefused, if_true] at hcheck
    split at hcheck <;> cases hcheck
  simp only [agreed, hnone, ite_self, and_self]

/-- Every function that asks the provider under the session key asks for its own message and
nothing else. -/
structure AsksOnly (a : SessionAuthentication) (p q : AuthenticationProvider) : Prop where
  handshakeProof : ∀ caller material, a.AnswerAlike p q (.proof a.version caller material) →
    a.handshakeProof p caller material = a.handshakeProof q caller material
  sealKeys : ∀ response material capacity, a.AnswerAlike p q (a.sealedKeys response material) →
    a.sealKeys p response material capacity = a.sealKeys q response material capacity
  openKeys : ∀ response input, a.AnswerAlike p q (a.openedKeys response input) →
    a.openKeys p response input = a.openKeys q response input
  sealFec : ∀ header parity capacity, header.destinationSocketId < 2 ^ 32 →
    a.AnswerAlike p q (a.sealedFec header parity) →
    a.sealFec p header parity capacity = a.sealFec q header parity capacity
  openFec : ∀ header input, header.destinationSocketId < 2 ^ 32 →
    a.AnswerAlike p q (a.openedFec header input) →
    a.openFec p header input = a.openFec q header input
  deriveControlKeys : (∀ caller, a.AnswerAlike p q (.expansion caller)) →
    a.deriveControlKeys p = a.deriveControlKeys q

/-- The tags and keys that come out are the answers for these messages. -/
structure Answers (a : SessionAuthentication) (p : AuthenticationProvider) : Prop where
  handshakeProof : ∀ caller material r, a.handshakeProof p caller material = .ok r →
    ∃ tag, p.hmacSha256 a.key (SessionInput.proof a.version caller material).bytes = .ok tag
      ∧ r.proof = tag.val
  sealKeys : ∀ response material capacity out,
    (a.sealKeys p response material capacity).2 = .ok out →
    ∃ tag, p.hmacSha256 a.key (a.sealedKeys response material).bytes = .ok tag
      ∧ out = put64 (a.keyCounter response material) ++ material ++ tag.val
  openKeys : ∀ response input payload, (a.openKeys p response input).2 = some payload →
    ∃ tag, p.hmacSha256 a.key (a.openedKeys response input).bytes = .ok tag
      ∧ tag.val = envelopeTag input
  sealFec : ∀ header parity capacity out, (a.sealFec p header parity capacity).2 = .ok out →
    ∃ tag, p.hmacSha256 a.key (a.sealedFec header parity).bytes = .ok tag
      ∧ out = put64 (a.fecSentCounter + 1) ++ parity ++ tag.val
  openFec : ∀ header input payload, (a.openFec p header input).2 = some payload →
    ∃ tag, p.hmacSha256 a.key (a.openedFec header input).bytes = .ok tag
      ∧ tag.val = envelopeTag input
  deriveControlKeys : isAcp1SessionVersion a.version = true →
    (a.deriveControlKeys p).2 = .ok () → ∀ caller,
    ∃ tag, p.hmacSha256 a.key (SessionInput.expansion caller).bytes = .ok tag
      ∧ (a.deriveControlKeys p).1.controlKey caller = tag.val

theorem answers (a : SessionAuthentication) (p : AuthenticationProvider) : a.Answers p where
  handshakeProof caller material r h := by
    unfold SessionAuthentication.handshakeProof at h
    split at h
    · cases h
    next tag hmac =>
    cases h
    exact ⟨tag, (mac_ok hmac).2.2, rfl⟩
  sealKeys _ _ _ _ h := sealKeys_tag h
  openKeys response input payload h := by
    rcases openKeys_cases p a response input with heq | ⟨_, heq, hopened⟩
    · rw [heq] at h
      cases h
    · exact hopened.tag
  sealFec header parity capacity out h := by
    rcases sealFec_cases p a header parity capacity with ⟨_, heq⟩ | ⟨tag, -, hmac, heq⟩
    · rw [heq] at h
      cases h
    rw [heq] at h
    cases h
    exact ⟨tag, (fecMac_ok hmac).2.2.2, rfl⟩
  openFec header input payload h := by
    rcases openFec_cases p a header input with heq | ⟨-, -, ⟨tag, hmac, htag⟩, -⟩
    · rw [heq] at h
      cases h
    · exact ⟨tag, (fecMac_ok hmac).2.2.2, htag⟩
  deriveControlKeys hversion h caller := by
    obtain ⟨callerKey, listenerKey, hcaller, hlistener, heq⟩ :=
      (deriveControlKeys_ok h).acp1 hversion
    rw [heq]
    cases caller
    · exact ⟨listenerKey, hlistener, rfl⟩
    · exact ⟨callerKey, hcaller, rfl⟩

/-- A caller and a listener of the default version, before `establish`. -/
def exampleEnd (caller : Bool) : SessionAuthentication :=
  { caller, started := true
    parameters := { callerNonce := List.replicate 32 1, listenerNonce := List.replicate 32 2 } }

theorem length_constantTag (byte : UInt8) : (List.replicate 32 byte).length = 32 :=
  List.length_replicate

/-- A provider whose answers are all one byte. -/
def constantProvider (byte : UInt8) : AuthenticationProvider where
  randomBytes := .error .cryptographicFailure
  pbkdf2HmacSha1 := fun _ _ _ => .error .cryptographicFailure
  hmacSha256 := fun _ _ => .ok ⟨List.replicate 32 byte, length_constantTag byte⟩

/-- The same but for one input. -/
def answering (byte : UInt8) (x : SessionInput) : AuthenticationProvider :=
  { constantProvider 0 with
    hmacSha256 := fun key input =>
      (constantProvider (if input = x.bytes then byte else 0)).hmacSha256 key input }

end SessionAuthentication

end Srt
