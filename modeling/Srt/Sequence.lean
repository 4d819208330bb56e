/-
# `Sequence` — 31-bit packet sequence numbers

`SequenceNumber` wraps at `2^31` and is compared by a signed distance that
is only meaningful within half the sequence space
(`include/robotweax/srt/sequence.hpp`).  Proofs count packets by unbounded
positions instead; `isn.advanced p` is the number position `p` carries on
the wire when the stream starts at `isn`.

The distance is the balanced remainder of the difference
(`distanceFrom_eq_bmod`), so two positions less than `halfRange` apart are
told apart exactly (`distanceFrom_advanced`).
-/
import Mathlib.Algebra.Group.Int.Defs
import Mathlib.Algebra.Group.Nat.Defs
import Mathlib.Data.Int.Basic
import Mathlib.Tactic.Common

namespace Srt

/-- A wrap-aware sequence number; the constructor's mask is the bound. -/
structure SequenceNumber where
  value : Nat
  value_lt : value < 2 ^ 31
  deriving DecidableEq, Repr

namespace SequenceNumber

/-- `SequenceNumber::modulus`. -/
def modulus : Nat := 0x80000000

/-- `SequenceNumber::mask`; advancing by it is one step back. -/
def mask : Nat := 0x7fffffff

/-- `SequenceNumber::half_range`. -/
def halfRange : Nat := modulus / 2

/-- The explicit constructor, which masks its argument. -/
def ofNat (n : Nat) : SequenceNumber :=
  ⟨n % 2 ^ 31, Nat.mod_lt _ (by decide)⟩

instance : Inhabited SequenceNumber := ⟨ofNat 0⟩

def advanced (s : SequenceNumber) (count : Nat) : SequenceNumber :=
  ofNat (s.value + count)

def next (s : SequenceNumber) : SequenceNumber :=
  ofNat (s.value + 1)

def distanceFrom (s origin : SequenceNumber) : Int :=
  let forward := (s.value + modulus - origin.value) % modulus
  if forward ≥ halfRange then -((modulus - forward : Nat) : Int) else forward

def isAfter (s other : SequenceNumber) : Bool :=
  s.distanceFrom other > 0

@[simp] theorem ofNat_value (n : Nat) : (ofNat n).value = n % 2 ^ 31 := rfl

variable (s : SequenceNumber)

@[simp] theorem advanced_value (n : Nat) : (s.advanced n).value = (s.value + n) % 2 ^ 31 := rfl

@[ext] theorem ext {s t : SequenceNumber} (h : s.value = t.value) : s = t := by
  cases s; cases t; cases h; rfl

/-! ## Advancing -/

@[simp] theorem advanced_zero : s.advanced 0 = s := by
  have := s.value_lt
  ext
  simp only [advanced_value]
  omega

@[simp] theorem advanced_advanced (m n : Nat) : (s.advanced m).advanced n = s.advanced (m + n) := by
  ext
  simp only [advanced_value]
  omega

theorem next_eq_advanced : s.next = s.advanced 1 := rfl

@[simp] theorem next_advanced (n : Nat) : (s.advanced n).next = s.advanced (n + 1) := by
  rw [next_eq_advanced, advanced_advanced]

variable {m n : Nat}

/-- Two positions carry one number exactly when they are a whole number of
epochs apart. -/
theorem advanced_inj_iff {s : SequenceNumber} :
    s.advanced m = s.advanced n ↔ m % 2 ^ 31 = n % 2 ^ 31 := by
  rw [SequenceNumber.ext_iff, advanced_value, advanced_value]
  omega

/-- Positions within one epoch are told apart by their numbers. -/
theorem advanced_inj_of_lt {s : SequenceNumber} (hmn : m < n + 2 ^ 31) (hnm : n < m + 2 ^ 31) :
    s.advanced m = s.advanced n ↔ m = n := by
  rw [advanced_inj_iff]
  omega

/-! ## Distance -/

theorem distanceFrom_eq_bmod (s o : SequenceNumber) :
    s.distanceFrom o = Int.bmod ((s.value : Int) - o.value) (2 ^ 31) := by
  have := s.value_lt
  have := o.value_lt
  simp only [distanceFrom, modulus, halfRange, Int.bmod_def]
  omega

theorem distanceFrom_advanced_eq_bmod (m n : Nat) :
    (s.advanced m).distanceFrom (s.advanced n) = Int.bmod ((m : Int) - n) (2 ^ 31) := by
  rw [distanceFrom_eq_bmod, advanced_value, advanced_value]
  simp only [Int.bmod_def]
  omega

/-- Within half the sequence space the distance is the difference of the
positions. -/
theorem distanceFrom_advanced (hnm : n ≤ m + 2 ^ 30) (hmn : m < n + 2 ^ 30) :
    (s.advanced m).distanceFrom (s.advanced n) = (m : Int) - n := by
  rw [distanceFrom_advanced_eq_bmod]
  simp only [Int.bmod_def]
  omega

theorem distanceFrom_lt (s o : SequenceNumber) : s.distanceFrom o < 2 ^ 30 := by
  rw [distanceFrom_eq_bmod, Int.bmod_def]
  omega

/-- A number is its origin advanced by the distance, when that is not
negative. -/
theorem advanced_distanceFrom {s o : SequenceNumber} (h : 0 ≤ s.distanceFrom o) :
    o.advanced (s.distanceFrom o).toNat = s := by
  have := s.value_lt
  have := o.value_lt
  ext
  rw [distanceFrom_eq_bmod, Int.bmod_def] at h ⊢
  simp only [advanced_value]
  omega

end SequenceNumber

end Srt
