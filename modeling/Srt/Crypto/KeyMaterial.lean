/-
# `Crypto.KeyMaterial` — crypto suites and the key-material message

`decode_key_material` and `encode_key_material` of `src/crypto.cpp`, with the
suite table of `crypto.hpp` they consult.  A key-material message is a
sixteen-byte header, the salt and the wrapped traffic keys; KMREQ and KMRSP
carry the same bytes.
-/
import Srt.Packet

namespace Srt

inductive KeyMaterialCipher
  | none
  | aesCtr
  | aesGcm
  deriving DecidableEq, Repr, Inhabited

inductive KeyMaterialAuthentication
  | none
  | aesGcm
  deriving DecidableEq, Repr, Inhabited

inductive CryptoMode
  | automatic
  | aesCtr
  | aesGcm
  deriving DecidableEq, Repr, Inhabited

inductive StreamEncapsulation
  | unspecified
  | mpegTsUdp
  | mpegTsSrt
  deriving DecidableEq, Repr, Inhabited

def KeyMaterialCipher.value : KeyMaterialCipher → UInt8
  | .none => 0
  | .aesCtr => 2
  | .aesGcm => 4

/-- The cast of a wire byte.  A byte that names no cipher is a value no suite
has, which is all `crypto_suite_for_key_material` can tell about it. -/
def KeyMaterialCipher.ofByte (b : UInt8) : Option KeyMaterialCipher :=
  if b = 0 then some .none
  else if b = 2 then some .aesCtr
  else if b = 4 then some .aesGcm
  else Option.none

def KeyMaterialAuthentication.value : KeyMaterialAuthentication → UInt8
  | .none => 0
  | .aesGcm => 1

def KeyMaterialAuthentication.ofByte (b : UInt8) : Option KeyMaterialAuthentication :=
  if b = 0 then some .none
  else if b = 1 then some .aesGcm
  else Option.none

def StreamEncapsulation.value : StreamEncapsulation → UInt8
  | .unspecified => 0
  | .mpegTsUdp => 1
  | .mpegTsSrt => 2

def EncryptionKey.value : EncryptionKey → UInt8
  | .none => 0
  | .even => 1
  | .odd => 2
  | .reserved => 3

/-- The cast of the two low bits of the selector byte. -/
def EncryptionKey.ofBits (b : UInt8) : EncryptionKey :=
  if b = 1 then .even
  else if b = 2 then .odd
  else if b = 3 then .reserved
  else .none

def otherKey : EncryptionKey → EncryptionKey
  | .even => .odd
  | _ => .even

def srtSaltSize : Nat := 16

def srtGcmAuthenticationTagSize : Nat := 16

def keyMaterialHeaderSize : Nat := 16

/-- `maximum_key_material_size`: header, salt and two wrapped 32-byte keys. -/
def maximumKeyMaterialSize : Nat := 104

structure CryptoSuite where
  mode : CryptoMode
  cipher : KeyMaterialCipher
  authentication : KeyMaterialAuthentication
  authenticationTagSize : Nat
  deriving DecidableEq, Repr

def aesCtrCryptoSuite : CryptoSuite := ⟨.aesCtr, .aesCtr, .none, 0⟩

def aesGcmCryptoSuite : CryptoSuite :=
  ⟨.aesGcm, .aesGcm, .aesGcm, srtGcmAuthenticationTagSize⟩

def cryptoSuiteForMode : CryptoMode → Option CryptoSuite
  | .aesCtr => some aesCtrCryptoSuite
  | .aesGcm => some aesGcmCryptoSuite
  | .automatic => none

def cryptoSuiteForKeyMaterial :
    KeyMaterialCipher → KeyMaterialAuthentication → Option CryptoSuite
  | .aesCtr, .none => some aesCtrCryptoSuite
  | .aesGcm, .aesGcm => some aesGcmCryptoSuite
  | _, _ => Option.none

def validAesKeySize (size : Nat) : Bool := size == 16 || size == 24 || size == 32

def readU16 (hi lo : UInt8) : Nat := hi.toNat * 256 + lo.toNat

def readU32 (a b c d : UInt8) : Nat := readU16 a b * 65536 + readU16 c d

def writeU16 (n : Nat) : Bytes := [UInt8.ofNat (n / 256), UInt8.ofNat n]

def writeU32 (n : Nat) : Bytes := writeU16 (n / 65536) ++ writeU16 n

def keyMaterialFirstByte : UInt8 := 0x12

def keyMaterialSignature : Nat := 0x2029

structure KeyMaterialView where
  keys : EncryptionKey := .none
  keyEncryptingKeyIndex : Nat := 0
  cipher : KeyMaterialCipher := .aesCtr
  authentication : KeyMaterialAuthentication := .none
  streamEncapsulation : StreamEncapsulation := .mpegTsSrt
  salt : Bytes := []
  keyLength : Nat := 0
  wrappedKeys : Bytes := []
  deriving DecidableEq, Repr

def EncryptionKey.keyCount (keys : EncryptionKey) : Nat :=
  if keys = .reserved then 2 else 1

namespace KeyMaterialView

def keyCount (m : KeyMaterialView) : Nat := m.keys.keyCount

end KeyMaterialView

/-- The header test of `decode_key_material`, with the cipher and the
authentication it has looked a suite up for. -/
def keyMaterialHeaderValid (b : Nat → UInt8) : Bool :=
  b 0 == keyMaterialFirstByte && readU16 (b 1) (b 2) == keyMaterialSignature
    && b 3 &&& 0xfc == 0 && EncryptionKey.ofBits (b 3 &&& 3) != .none
    && readU32 (b 4) (b 5) (b 6) (b 7) == 0
    && b 10 == StreamEncapsulation.value .mpegTsSrt && b 11 == 0
    && readU16 (b 12) (b 13) == 0
    && (b 14).toNat * 4 == srtSaltSize && validAesKeySize ((b 15).toNat * 4)

def decodeKeyMaterial (bytes : Bytes) : Except Error KeyMaterialView :=
  let b := fun i => bytes.getD i 0
  let keys := EncryptionKey.ofBits (b 3 &&& 3)
  let saltSize := (b 14).toNat * 4
  let keySize := (b 15).toNat * 4
  let wrappedSize := keys.keyCount * keySize + 8
  if bytes.length < keyMaterialHeaderSize then .error .invalidKeyMaterial
  else
    match KeyMaterialCipher.ofByte (b 8), KeyMaterialAuthentication.ofByte (b 9) with
    | some cipher, some authentication =>
      if cryptoSuiteForKeyMaterial cipher authentication = none then
        .error .invalidKeyMaterial
      else if keyMaterialHeaderValid b = false then .error .invalidKeyMaterial
      else if bytes.length ≠ keyMaterialHeaderSize + saltSize + wrappedSize then
        .error .invalidKeyMaterial
      else .ok
        { keys, cipher, authentication
          salt := (bytes.drop keyMaterialHeaderSize).take saltSize
          keyLength := keySize
          wrappedKeys := (bytes.drop (keyMaterialHeaderSize + saltSize)).take wrappedSize }
    | _, _ => .error .invalidKeyMaterial

/-- The checks `encode_key_material` makes on the view itself. -/
def KeyMaterialView.encodable (m : KeyMaterialView) : Bool :=
  m.keys != .none && m.keyEncryptingKeyIndex == 0
    && (cryptoSuiteForKeyMaterial m.cipher m.authentication).isSome
    && m.streamEncapsulation == .mpegTsSrt
    && m.salt.length == srtSaltSize && validAesKeySize m.keyLength
    && m.wrappedKeys.length == m.keyCount * m.keyLength + 8

def encodeKeyMaterial (m : KeyMaterialView) (capacity : Nat) : Except Error Bytes :=
  if m.encodable = false then .error .invalidKeyMaterial
  else if capacity < keyMaterialHeaderSize + m.salt.length + m.wrappedKeys.length then
    .error .bufferTooSmall
  else .ok ([keyMaterialFirstByte] ++ writeU16 keyMaterialSignature ++ [m.keys.value]
    ++ writeU32 m.keyEncryptingKeyIndex
    ++ [m.cipher.value, m.authentication.value, m.streamEncapsulation.value, 0, 0, 0,
      UInt8.ofNat (m.salt.length / 4), UInt8.ofNat (m.keyLength / 4)]
    ++ m.salt ++ m.wrappedKeys)

/-! ## The round trip -/

@[simp] theorem KeyMaterialCipher.ofByte_value (c : KeyMaterialCipher) :
    KeyMaterialCipher.ofByte c.value = some c := by
  cases c <;> rfl

@[simp] theorem KeyMaterialAuthentication.ofByte_value (a : KeyMaterialAuthentication) :
    KeyMaterialAuthentication.ofByte a.value = some a := by
  cases a <;> rfl

theorem EncryptionKey.value_masks (k : EncryptionKey) :
    k.value &&& 0xfc = 0 ∧ EncryptionKey.ofBits (k.value &&& 3) = k := by
  cases k <;> exact ⟨by decide, by decide⟩

/-- A key-material message decodes to the view it was encoded from. -/
theorem decodeKeyMaterial_encodeKeyMaterial {m : KeyMaterialView} {capacity : Nat} {bytes : Bytes}
    (h : encodeKeyMaterial m capacity = .ok bytes) : decodeKeyMaterial bytes = .ok m := by
  unfold encodeKeyMaterial at h
  split at h
  · cases h
  rename_i henc
  split at h
  · cases h
  obtain rfl := Except.ok.inj h
  obtain ⟨keys, index, cipher, authentication, encapsulation, salt, keyLength, wrapped⟩ := m
  rw [Bool.not_eq_false] at henc
  simp only [KeyMaterialView.encodable, KeyMaterialView.keyCount, Bool.and_eq_true,
    bne_iff_ne, ne_eq, beq_iff_eq, srtSaltSize] at henc
  obtain ⟨⟨⟨⟨⟨⟨hkeys, rfl⟩, hsuite⟩, rfl⟩, hsalt⟩, hlen⟩, hwrapped⟩ := henc
  obtain ⟨hhigh, hlow⟩ := keys.value_masks
  have hsuite' : cryptoSuiteForKeyMaterial cipher authentication ≠ none :=
    Option.isSome_iff_ne_none.1 hsuite
  -- The stored quarter of the key length is exact: the three sizes are multiples of four.
  have hquarter : keyLength / 4 % 256 * 4 = keyLength := by
    simp only [validAesKeySize, Bool.or_eq_true, beq_iff_eq] at hlen
    rcases hlen with (rfl | rfl) | rfl <;> rfl
  have htotal : ¬ 32 + (keys.keyCount * keyLength + 8) < 16 := by omega
  have hexact : 16 + (keys.keyCount * keyLength + 8) + 16
      = 32 + (keys.keyCount * keyLength + 8) := by omega
  have htake : wrapped.take (keys.keyCount * keyLength + 8) = wrapped :=
    List.take_of_length_le (Nat.le_of_eq hwrapped)
  simp [htotal, hexact, htake, decodeKeyMaterial, keyMaterialHeaderValid, writeU16, writeU32,
    hhigh, hlow, hsuite', hsalt, hquarter, hlen, hwrapped, hkeys, keyMaterialHeaderSize,
    keyMaterialSignature, keyMaterialFirstByte, readU16, readU32, srtSaltSize,
    StreamEncapsulation.value, List.getElem?_cons_zero, -getElem?_pos]

end Srt
