/-
# `RandomIdentity` — registry handles are drawn from a permutation

`src/compat/random_identity.cpp`.  A handle is the image of the allocation
index under eight Feistel rounds over the two 15-bit halves of the index; the
one index whose image is zero is passed over.  The cipher is an arbitrary
function of space, round and half, and a call to it may fail.

The network permutes the handle space for any round function
(`permutation_bijOn`), so all that is left of a run of calls is where it passes
over the index of zero (`indexAfter_eq`, `issued_eq`).
-/
import Srt.Lib.Feistel
import Mathlib.Order.Interval.Finset.Nat

namespace Srt

variable {index n : Nat}

inductive HandleSpace
  | socket
  | group
  deriving DecidableEq, Repr

namespace RandomIdentity

def registryHandleSpace : Nat := 2 ^ 30

def handleHalfBits : Nat := 15

def handleHalfMask : Nat := 2 ^ handleHalfBits - 1

def handleRounds : Nat := 8

/-- What the generator answers during one permutation: whether it is seeded,
and the first two bytes the cipher gives for a space, a round and a half.  A
permutation asks each round once, so this covers a cipher that fails midway. -/
structure Cipher where
  seeded : Bool
  transform : HandleSpace → Nat → Nat → Option Nat

def roundFunctionLocked (c : Cipher) (space : HandleSpace) (round value : Nat) : Option Nat :=
  (c.transform space round value).map (· &&& handleHalfMask)

/-- The loop of `permute`, with the number of rounds left. -/
def permuteFrom (c : Cipher) (space : HandleSpace) : Nat → Nat → Nat × Nat → Option (Nat × Nat)
  | 0, _, halves => some halves
  | n + 1, round, (left, right) =>
    match roundFunctionLocked c space round right with
    | none => none
    | some mixed => permuteFrom c space n (round + 1) (right, left ^^^ mixed)

def permute (c : Cipher) (space : HandleSpace) (value : Nat) : Option Nat :=
  if c.seeded then
    (permuteFrom c space handleRounds 0
      (value >>> handleHalfBits, value &&& handleHalfMask)).map
        fun halves => halves.1 <<< handleHalfBits ||| halves.2
  else none

/-- `next_registry_handle`: the handle, `none` for `SRT_INVALID_SOCK`, and the
index it leaves.  `generator i` is the generator while index `i` is permuted. -/
def nextRegistryHandle (generator : Nat → Cipher) (space : HandleSpace) (index : Nat) :
    Option Nat × Nat :=
  if index < registryHandleSpace then
    match permute (generator index) space index with
    | none => (none, index)
    | some 0 => nextRegistryHandle generator space (index + 1)
    | some (handle + 1) => (some (handle + 1), index + 1)
  else (none, index)
  termination_by registryHandleSpace - index

/-! ## The permutation -/

variable (f : HandleSpace → Nat → Nat → Nat) (space : HandleSpace)

/-- The seeded generator whose cipher computes `f` and never fails. -/
def sound : Cipher := ⟨true, fun space round value => some (f space round value)⟩

/-- Whatever the cipher answers, it answers with `f`. -/
def Computes (c : Cipher) : Prop :=
  ∀ space round value mixed, c.transform space round value = some mixed →
    mixed = f space round value

def mixing (round value : Nat) : Nat :=
  f space round value &&& handleHalfMask

/-- The halves index `value` goes to when no round fails. -/
def image (value : Nat) : Nat × Nat :=
  Feistel.network (mixing f space) handleRounds 0
    (value >>> handleHalfBits, value &&& handleHalfMask)

def permutation (value : Nat) : Nat :=
  (image f space value).1 <<< handleHalfBits ||| (image f space value).2

variable {f space}

theorem permuteFrom_computes {c : Cipher} (hc : Computes f c) :
    ∀ {n round : Nat} {halves result : Nat × Nat},
      permuteFrom c space n round halves = some result →
        result = Feistel.network (mixing f space) n round halves
  | 0, _, _, _, h => (Option.some.inj h).symm
  | n + 1, round, (left, right), result, h => by
    unfold permuteFrom roundFunctionLocked at h
    cases hm : c.transform space round right with
    | none => rw [hm] at h; cases h
    | some mixed =>
      rw [hm] at h
      have hrest := permuteFrom_computes hc h
      rw [hc _ _ _ _ hm] at hrest
      exact hrest

theorem permute_computes {c : Cipher} (hc : Computes f c) {value handle : Nat}
    (h : permute c space value = some handle) : handle = permutation f space value := by
  unfold permute at h
  split at h
  · obtain ⟨halves, hhalves, rfl⟩ := Option.map_eq_some_iff.1 h
    rw [permuteFrom_computes hc hhalves]
    rfl
  · cases h

theorem permuteFrom_sound : ∀ (n round : Nat) (halves : Nat × Nat),
    permuteFrom (sound f) space n round halves
      = some (Feistel.network (mixing f space) n round halves)
  | 0, _, _ => rfl
  | n + 1, round, (_, right) => permuteFrom_sound n (round + 1) (right, _)

theorem permute_sound (value : Nat) :
    permute (sound f) space value = some (permutation f space value) := by
  unfold permute
  rw [permuteFrom_sound]
  rfl

theorem mixing_lt (round value : Nat) : mixing f space round value < 2 ^ 15 :=
  Nat.and_lt_two_pow _ (by decide)

theorem split_eq (value : Nat) :
    (value >>> handleHalfBits, value &&& handleHalfMask) = (value / 2 ^ 15, value % 2 ^ 15) := by
  rw [Nat.shiftRight_eq_div_pow]
  exact congrArg _ (Nat.and_two_pow_sub_one_eq_mod value 15)

section

variable {value : Nat} (h : value < registryHandleSpace)
include h

theorem image_lt : (image f space value).1 < 2 ^ 15 ∧ (image f space value).2 < 2 ^ 15 := by
  unfold registryHandleSpace at h
  unfold image
  rw [split_eq]
  exact Feistel.network_lt mixing_lt _ _ _ (by omega) (by omega)

theorem permutation_eq :
    permutation f space value = (image f space value).1 * 2 ^ 15 + (image f space value).2 := by
  unfold permutation handleHalfBits
  rw [← Nat.shiftLeft_add_eq_or_of_lt (image_lt h).2, Nat.shiftLeft_eq]

theorem permutation_lt : permutation f space value < registryHandleSpace := by
  have hlt := @image_lt f space _ h
  rw [permutation_eq h]
  unfold registryHandleSpace
  omega

end

theorem permutation_inj {a b : Nat} (ha : a < registryHandleSpace) (hb : b < registryHandleSpace)
    (h : permutation f space a = permutation f space b) : a = b := by
  have hla := @image_lt f space _ ha
  have hlb := @image_lt f space _ hb
  rw [permutation_eq ha, permutation_eq hb] at h
  have himage : image f space a = image f space b := Prod.ext (by omega) (by omega)
  have hsplit := Feistel.network_injective _ _ _ himage
  rw [split_eq, split_eq] at hsplit
  obtain ⟨hleft, hright⟩ := Prod.mk.inj hsplit
  omega

/-- Injective into a finite set of its own size, hence onto. -/
theorem permutation_surj {handle : Nat} (h : handle < registryHandleSpace) :
    ∃ index < registryHandleSpace, permutation f space index = handle := by
  let g : Fin registryHandleSpace → Fin registryHandleSpace :=
    fun i => ⟨permutation f space i, permutation_lt i.isLt⟩
  have hinj : Function.Injective g := by
    intro i j hij
    exact Fin.ext (permutation_inj i.isLt j.isLt (congrArg Fin.val hij))
  obtain ⟨i, hi⟩ := Finite.surjective_of_injective hinj ⟨handle, h⟩
  exact ⟨i, i.isLt, congrArg Fin.val hi⟩

/-! ## Runs of calls -/

section Calls

variable (f space)

/-- The index after `n` calls from index 0, all of them with a sound cipher. -/
def indexAfter : Nat → Nat
  | 0 => 0
  | n + 1 => (nextRegistryHandle (fun _ => sound f) space (indexAfter n)).2

/-- What call `n` returns. -/
def issued (n : Nat) : Option Nat :=
  (nextRegistryHandle (fun _ => sound f) space (indexAfter f space n)).1

variable {f space}

theorem nextRegistryHandle_sound (h : index < registryHandleSpace)
    (hne : permutation f space index ≠ 0) :
    nextRegistryHandle (fun _ => sound f) space index
      = (some (permutation f space index), index + 1) := by
  rw [nextRegistryHandle, if_pos h, permute_sound]
  obtain ⟨k, hk⟩ := Nat.exists_eq_succ_of_ne_zero hne
  rw [hk]

theorem nextRegistryHandle_zero (h : index < registryHandleSpace)
    (hzero : permutation f space index = 0) :
    nextRegistryHandle (fun _ => sound f) space index
      = nextRegistryHandle (fun _ => sound f) space (index + 1) := by
  rw [nextRegistryHandle, if_pos h, permute_sound, hzero]

theorem nextRegistryHandle_end (generator : Nat → Cipher) :
    nextRegistryHandle generator space registryHandleSpace = (none, registryHandleSpace) := by
  rw [nextRegistryHandle, if_neg (Nat.lt_irrefl _)]

variable {z : Nat} (hz : z < registryHandleSpace) (hzero : permutation f space z = 0)
include hz hzero

/-- Only index `z` is passed over. -/
theorem permutation_ne_zero (h : index < registryHandleSpace) (hne : index ≠ z) :
    permutation f space index ≠ 0 :=
  fun h0 => hne (permutation_inj h hz (h0.trans hzero.symm))

/-- The index call `n` takes its handle from. -/
theorem nextRegistryHandle_passing (hn : n + 1 < registryHandleSpace) :
    nextRegistryHandle (fun _ => sound f) space (if n ≤ z then n else n + 1)
      = (some (permutation f space (if n < z then n else n + 1)),
          if n + 1 ≤ z then n + 1 else n + 2) := by
  rcases Nat.lt_trichotomy n z with hlt | rfl | hgt
  · rw [if_pos hlt.le, if_pos hlt, if_pos (Nat.succ_le_of_lt hlt),
      nextRegistryHandle_sound (by omega) (permutation_ne_zero hz hzero (by omega) (by omega))]
  · rw [if_pos (Nat.le_refl n), if_neg (Nat.lt_irrefl n), if_neg (by omega),
      nextRegistryHandle_zero hz hzero,
      nextRegistryHandle_sound hn (permutation_ne_zero hz hzero hn (by omega))]
  rw [if_neg (by omega), if_neg (by omega), if_neg (by omega),
    nextRegistryHandle_sound hn (permutation_ne_zero hz hzero hn (by omega))]

theorem indexAfter_eq : ∀ {n : Nat}, n < registryHandleSpace →
    indexAfter f space n = if n ≤ z then n else n + 1
  | 0, _ => (if_pos (Nat.zero_le z)).symm
  | n + 1, hn => by
    rw [indexAfter, indexAfter_eq (Nat.lt_of_succ_lt hn), nextRegistryHandle_passing hz hzero hn]

theorem issued_eq (hn : n + 1 < registryHandleSpace) :
    issued f space n = some (permutation f space (if n < z then n else n + 1)) := by
  rw [issued, indexAfter_eq hz hzero (Nat.lt_of_succ_lt hn), nextRegistryHandle_passing hz hzero hn]

/-- After the last handle the index runs to the end and stays there. -/
theorem nextRegistryHandle_used_up (hn : registryHandleSpace ≤ n + 1) :
    nextRegistryHandle (fun _ => sound f) space (indexAfter f space n)
      = (none, registryHandleSpace) := by
  obtain ⟨k, hk⟩ := Nat.exists_eq_add_of_le hn
  induction k generalizing n with
  | zero =>
    rw [indexAfter_eq hz hzero (by omega)]
    by_cases hlast : n ≤ z
    · have : n = z := by omega
      subst this
      rw [if_pos hlast, nextRegistryHandle_zero hz hzero, hk]
      exact nextRegistryHandle_end _
    rw [if_neg hlast, hk]
    exact nextRegistryHandle_end _
  | succ k ih =>
    obtain ⟨m, rfl⟩ : ∃ m, n = m + 1 := ⟨n - 1, by unfold registryHandleSpace at *; omega⟩
    rw [indexAfter, ih (n := m) (by omega) (by omega)]
    exact nextRegistryHandle_end _

end Calls

/-- A call the cipher fails stops at the index it failed at: its own, or the
next one if its own goes to zero. -/
theorem failed_index {generator : Nat → Cipher} (hg : ∀ i, Computes f (generator i)) {k : Nat}
    (h : nextRegistryHandle generator space index = (none, k)) (hk : k < registryHandleSpace) :
    permute (generator k) space k = none ∧
      (k = index ∨ (k = index + 1 ∧ permutation f space index = 0)) := by
  -- the first index, and the one behind it once the first went to zero
  rw [nextRegistryHandle] at h
  split at h
  next hindex =>
    split at h
    next hfail =>
      cases h
      exact ⟨hfail, .inl rfl⟩
    next hzero =>
      have hzero' := permute_computes (hg index) hzero
      rw [nextRegistryHandle] at h
      split at h
      next hnext =>
        split at h
        next hfail =>
          cases h
          exact ⟨hfail, .inr ⟨rfl, hzero'.symm⟩⟩
        next hagain =>
          have hagain' := permute_computes (hg (index + 1)) hagain
          have := permutation_inj hindex hnext (hzero'.symm.trans hagain')
          omega
        next => cases h
      next => cases h; contradiction
    next => cases h
  next => cases h; contradiction

/-- The handles of a run of calls from index 0, for any round function, and the
index of a call that fails midway. -/
theorem handles_never_repeat (f : HandleSpace → Nat → Nat → Nat) (space : HandleSpace) :
    (∀ n, n + 1 < registryHandleSpace → ∃ handle, issued f space n = some handle ∧
        1 ≤ handle ∧ handle < registryHandleSpace) ∧
      (∀ m n, m + 1 < registryHandleSpace → n + 1 < registryHandleSpace →
        issued f space m = issued f space n → m = n) ∧
      (∀ n, registryHandleSpace ≤ n + 1 → issued f space n = none) ∧
      (∀ handle, 1 ≤ handle → handle < registryHandleSpace →
        ∃ n, n + 1 < registryHandleSpace ∧ issued f space n = some handle) ∧
      ∀ (generator : Nat → Cipher) (index k : Nat), (∀ i, Computes f (generator i)) →
        nextRegistryHandle generator space index = (none, k) → k < registryHandleSpace →
          permute (generator k) space k = none ∧
            (k = index ∨ (k = index + 1 ∧ permutation f space index = 0)) := by
  obtain ⟨z, hz, hzero⟩ := @permutation_surj f space 0 (by decide)
  refine ⟨?_, ?_, ?_, ?_, fun _ _ _ hg h => failed_index hg h⟩
  · intro n hn
    have hpos := permutation_ne_zero hz hzero
      (show (if n < z then n else n + 1) < registryHandleSpace by split <;> omega)
      (by split <;> omega)
    exact ⟨_, issued_eq hz hzero hn, Nat.pos_of_ne_zero hpos, permutation_lt (by split <;> omega)⟩
  · intro m n hm hn h
    rw [issued_eq hz hzero hm, issued_eq hz hzero hn] at h
    have hindex := permutation_inj (by split <;> omega) (by split <;> omega) (Option.some.inj h)
    split at hindex <;> split at hindex <;> omega
  · intro n hn
    rw [issued, nextRegistryHandle_used_up hz hzero hn]
  intro handle hpos hlt
  obtain ⟨i, hi, rfl⟩ := @permutation_surj f space handle hlt
  have hne : i ≠ z := by
    rintro rfl
    omega
  by_cases hiz : i < z
  · refine ⟨i, by omega, ?_⟩
    rw [issued_eq hz hzero (by omega), if_pos hiz]
  refine ⟨i - 1, by omega, ?_⟩
  rw [issued_eq hz hzero (by omega), if_neg (by omega), Nat.sub_add_cancel (by omega)]

/-- With a round function that is zero, index 0 goes to zero; if the cipher
fails at index 1, the call returns no handle and has moved the index. -/
theorem failed_call_moves_the_index :
    nextRegistryHandle
      (fun i => if i = 0 then sound (fun _ _ _ => 0) else ⟨true, fun _ _ _ => none⟩)
      .socket 0 = (none, 1) := by
  rw [nextRegistryHandle, if_pos (by decide)]
  show nextRegistryHandle _ .socket 1 = (none, 1)
  rw [nextRegistryHandle, if_pos (by decide)]
  rfl

end RandomIdentity
end Srt
