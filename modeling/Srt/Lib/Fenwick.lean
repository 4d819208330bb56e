/-
# `Fenwick` — prefix sums under point updates

Cell `i` holds the sum over the `lowBit i` positions below `i`.  A prefix is
read off by clearing one bit after the other, and a position is counted in by
adding the lowest bit until the end.  `Represents c n f` says what the cells
hold; `prefixSum_eq` reads a prefix and `Represents.update` writes a position.

Both walks rest on two facts about the lowest bit: the cell `i + lowBit i`
covers what cell `i` covers, and no cell between the two covers any of it.
-/
import Mathlib.Algebra.BigOperators.Intervals
import Mathlib.Data.Nat.Bitwise
import Mathlib.Tactic.Ring

namespace Fenwick

/-- `i & (~i + 1)` on words of `w` bits. -/
def lowBit (w i : Nat) : Nat :=
  i &&& ((2 ^ w - i) % 2 ^ w)

/-- The loop of an update: `g` is applied to the cells from `i` on. -/
def updateFrom (w n : Nat) (g : Nat → Nat) : Nat → Nat → (Nat → Nat) → Nat → Nat
  | 0, _, c => c
  | fuel + 1, i, c =>
    if n < i then c
    else updateFrom w n g fuel (i + lowBit w i) (fun j => if j = i then g (c j) else c j)

/-- The position `p` is counted up or down by `g`. -/
def update (w n : Nat) (g : Nat → Nat) (p : Nat) (c : Nat → Nat) : Nat → Nat :=
  updateFrom w n g n (p + 1) c

/-- The loop of a prefix sum. -/
def prefixFrom (w : Nat) (c : Nat → Nat) : Nat → Nat → Nat
  | 0, _ => 0
  | fuel + 1, i => if i = 0 then 0 else c i + prefixFrom w c fuel (i - lowBit w i)

/-- The sum over the positions below `i`. -/
def prefixSum (w : Nat) (c : Nat → Nat) (i : Nat) : Nat :=
  prefixFrom w c i i

/-! ## The lowest bit -/

theorem lowBit_two_mul (w i : Nat) : lowBit (w + 1) (2 * i) = 2 * lowBit w i := by
  unfold lowBit
  rw [pow_succ, Nat.mul_comm (2 ^ w) 2, ← Nat.mul_sub, Nat.mul_mod_mul_left]
  exact Nat.land_bit false i false _

theorem lowBit_two_mul_add_one (w i : Nat) (h : i < 2 ^ w) : lowBit (w + 1) (2 * i + 1) = 1 := by
  have hlt : 2 ^ (w + 1) - (2 * i + 1) < 2 ^ (w + 1) := by
    have := Nat.two_pow_pos (w + 1)
    omega
  have hodd : 2 ^ (w + 1) - (2 * i + 1) = 2 * (2 ^ w - (i + 1)) + 1 := by
    rw [pow_succ]
    omega
  have hnone : i &&& (2 ^ w - (i + 1)) = 0 := by
    apply Nat.eq_of_testBit_eq
    intro k
    rw [Nat.testBit_and, Nat.testBit_two_pow_sub_succ h, Nat.zero_testBit]
    cases i.testBit k <;> simp
  unfold lowBit
  rw [Nat.mod_eq_of_lt hlt, hodd]
  have hland := Nat.land_bit true i true (2 ^ w - (i + 1))
  simp only [Nat.bit_val, hnone] at hland
  exact hland

/-- A number in terms of its lowest bit. -/
theorem lowBit_spec (w i : Nat) (hpos : 0 < i) (h : i < 2 ^ w) :
    ∃ k m, i = 2 ^ k * (2 * m + 1) ∧ lowBit w i = 2 ^ k := by
  induction w generalizing i with
  | zero => omega
  | succ w ih =>
    rw [pow_succ] at h
    obtain ⟨j, rfl | rfl⟩ : ∃ j, i = 2 * j ∨ i = 2 * j + 1 := ⟨i / 2, by omega⟩
    · obtain ⟨k, m, hj, hlow⟩ := ih j (by omega) (by omega)
      refine ⟨k + 1, m, ?_, ?_⟩
      · rw [hj, pow_succ]
        ring
      · rw [lowBit_two_mul w j, hlow, pow_succ, Nat.mul_comm]
    · exact ⟨0, j, by ring, lowBit_two_mul_add_one w j (by omega)⟩

variable {w i : Nat}

theorem lowBit_pos (hpos : 0 < i) (h : i < 2 ^ w) : 0 < lowBit w i := by
  obtain ⟨k, m, -, hlow⟩ := lowBit_spec w i hpos h
  rw [hlow]
  exact Nat.two_pow_pos k

theorem two_pow_le_lowBit {k : Nat} (hpos : 0 < i) (h : i < 2 ^ w) (hdvd : 2 ^ k ∣ i) :
    2 ^ k ≤ lowBit w i := by
  obtain ⟨l, m, hi, hlow⟩ := lowBit_spec w i hpos h
  rw [hlow]
  refine Nat.pow_le_pow_right (by decide) ?_
  by_contra hlt
  have hmul : 2 ^ (l + 1) ∣ 2 ^ l * (2 * m + 1) := hi ▸ (Nat.pow_dvd_pow 2 (by omega)).trans hdvd
  rw [pow_succ, Nat.mul_dvd_mul_iff_left (Nat.two_pow_pos l)] at hmul
  omega

variable {j : Nat}

/-- Between a multiple of `2 ^ k` and the next the lowest bit does not reach back. -/
theorem lowBit_le_of_lt {r k : Nat} (hr : 0 < r) (hrk : r < 2 ^ k) (hj : 2 ^ k ∣ j)
    (h : j + r < 2 ^ w) : lowBit w (j + r) ≤ r := by
  obtain ⟨l, m, hi, hlow⟩ := lowBit_spec w (j + r) (by omega) h
  have hlk : l < k := by
    by_contra hge
    have hdvd : 2 ^ k ∣ j + r := hi ▸ Dvd.dvd.mul_right (Nat.pow_dvd_pow 2 (by omega)) _
    have := Nat.le_of_dvd hr ((Nat.dvd_add_right hj).1 hdvd)
    omega
  have hdvd : 2 ^ l ∣ r := by
    have hsum : 2 ^ l ∣ j + r := hi ▸ Dvd.intro _ rfl
    exact (Nat.dvd_add_right ((Nat.pow_dvd_pow 2 (by omega)).trans hj)).1 hsum
  rw [hlow]
  exact Nat.le_of_dvd hr hdvd

/-! ## Coverage -/

/-- Cell `i` counts position `p`. -/
def Covers (w i p : Nat) : Prop :=
  i - lowBit w i ≤ p ∧ p < i

variable {p : Nat}

theorem covers_first (h : p + 1 < 2 ^ w) : Covers w (p + 1) p := by
  have hpos := lowBit_pos (w := w) (i := p + 1) (Nat.succ_pos p) h
  exact ⟨by omega, Nat.lt_succ_self p⟩

theorem Covers.next (hc : Covers w i p) (h : i + lowBit w i < 2 ^ w) :
    Covers w (i + lowBit w i) p := by
  have hpos : 0 < i := by have := hc.2; omega
  obtain ⟨k, m, hi, hlow⟩ := lowBit_spec w i hpos (by omega)
  have hsum : i + lowBit w i = 2 ^ (k + 1) * (m + 1) := by
    rw [hlow, hi, pow_succ]
    ring
  have hbig := two_pow_le_lowBit (w := w) (i := i + lowBit w i) (k := k + 1) (by omega) h
    (hsum ▸ Dvd.intro _ rfl)
  have hdouble : 2 ^ (k + 1) = 2 * lowBit w i := by rw [hlow, pow_succ, Nat.mul_comm]
  obtain ⟨hle, hlt⟩ := hc
  exact ⟨by omega, by omega⟩

theorem not_covers_between (hc : Covers w i p) (hij : i < j)
    (hj : j < i + lowBit w i) (h : j < 2 ^ w) : ¬ Covers w j p := by
  have hpos : 0 < i := by have := hc.2; omega
  obtain ⟨k, m, hi, hlow⟩ := lowBit_spec w i hpos (by omega)
  have hle := lowBit_le_of_lt (w := w) (j := i) (r := j - i) (k := k) (by omega) (by omega)
    (hi ▸ Dvd.intro _ rfl) (by omega)
  rw [show i + (j - i) = j by omega] at hle
  have hlt := hc.2
  rintro ⟨hcovers, -⟩
  omega

/-! ## The two walks -/

variable {n : Nat} {c : Nat → Nat}

/-- The walk of an update meets exactly the cells that cover the position. -/
theorem updateFrom_eq {g : Nat → Nat} (hw : n < 2 ^ w) {fuel : Nat}
    (hc : i ≤ n → Covers w i p) (hpos : 0 < i) (hfuel : n < i + fuel) (hj : j ≤ n) :
    updateFrom w n g fuel i c j = if i ≤ j ∧ j - lowBit w j ≤ p ∧ p < j then g (c j) else c j := by
  induction fuel generalizing i c with
  | zero => exact (if_neg (by omega)).symm
  | succ fuel ih =>
    unfold updateFrom
    split
    · next hn => exact (if_neg (by omega)).symm
    next hn =>
    have hi := hc (by omega)
    have hlow := lowBit_pos hpos (show i < 2 ^ w by omega)
    rw [ih (fun hle => hi.next (by omega)) (by omega) (by omega)]
    by_cases hji : j = i
    · subst hji
      have hself : j ≤ j ∧ j - lowBit w j ≤ p ∧ p < j := ⟨le_rfl, hi⟩
      rw [if_neg (by omega), if_pos hself, if_pos rfl]
    rw [if_neg hji]
    by_cases hbetween : i < j ∧ j < i + lowBit w i
    · have hnot := not_covers_between hi hbetween.1 hbetween.2 (by omega)
      rw [if_neg (by omega), if_neg (fun h => hnot h.2)]
    congr 1
    apply propext
    constructor
    · rintro ⟨hle, hrest⟩
      exact ⟨by omega, hrest⟩
    rintro ⟨hle, hrest⟩
    exact ⟨by omega, hrest⟩

/-- Each cell holds the sum it stands for. -/
def Represents (w n : Nat) (c f : Nat → Nat) : Prop :=
  ∀ i, 0 < i → i ≤ n → c i = ∑ p ∈ Finset.Ico (i - lowBit w i) i, f p

theorem represents_zero (w n : Nat) : Represents w n (fun _ => 0) (fun _ => 0) := by
  intro i _ _
  simp

variable {f : Nat → Nat}

theorem prefixFrom_eq (h : Represents w n c f) (hw : n < 2 ^ w) {fuel : Nat} (hi : i ≤ n)
    (hfuel : i ≤ fuel) : prefixFrom w c fuel i = ∑ p ∈ Finset.range i, f p := by
  induction fuel generalizing i with
  | zero =>
    obtain rfl : i = 0 := by omega
    rfl
  | succ fuel ih =>
    unfold prefixFrom
    split
    · next hzero => rw [hzero, Finset.range_zero, Finset.sum_empty]
    next hzero =>
    have hpos := lowBit_pos (w := w) (Nat.pos_of_ne_zero hzero) (by omega)
    rw [h i (by omega) hi, ih (by omega) (by omega), Nat.add_comm,
      Finset.sum_range_add_sum_Ico f (Nat.sub_le _ _)]

theorem prefixSum_eq (h : Represents w n c f) (hw : n < 2 ^ w)
    (hi : i ≤ n) : prefixSum w c i = ∑ p ∈ Finset.range i, f p :=
  prefixFrom_eq h hw hi le_rfl

theorem Represents.update {f' : Nat → Nat} (h : Represents w n c f) (hw : n < 2 ^ w) (hp : p < n)
    {g : Nat → Nat} (hrest : ∀ q < n, q ≠ p → f' q = f q) (hg : ∀ a, g (f p + a) = f' p + a) :
    Represents w n (update w n g p c) f' := by
  intro i hpos hi
  unfold Fenwick.update
  rw [updateFrom_eq hw (fun hle => covers_first (by omega)) (Nat.succ_pos p) (by omega) hi]
  by_cases hc : i - lowBit w i ≤ p ∧ p < i
  · have hmem : p ∈ Finset.Ico (i - lowBit w i) i := Finset.mem_Ico.2 hc
    rw [if_pos ⟨by omega, hc⟩, h i hpos hi, ← Finset.add_sum_erase _ f hmem,
      ← Finset.add_sum_erase _ f' hmem, hg]
    congr 1
    refine Finset.sum_congr rfl ?_
    intro q hq
    rw [Finset.mem_erase, Finset.mem_Ico] at hq
    exact (hrest q (by omega) hq.1).symm
  rw [if_neg (fun hall => hc hall.2), h i hpos hi]
  refine Finset.sum_congr rfl ?_
  intro q hq
  rw [Finset.mem_Ico] at hq
  refine (hrest q (by omega) ?_).symm
  rintro rfl
  exact hc hq

end Fenwick
