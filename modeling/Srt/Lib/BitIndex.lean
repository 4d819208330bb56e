/-
# `BitIndex` — a bitmap with summary levels

Level 0 has one bit a position, packed into words of `w` bits; each level
above has one bit a word of the level below, set when that word is not zero.
A write stops climbing as soon as a word keeps its emptiness, and a search
skips empty words by going up and coming down again.

`Summarized` is the property the levels keep between writes, and a write
changes one leaf (`bit_write`, `Summarized.write`).
-/
import Mathlib.Data.List.Range

structure BitIndex (w : Nat) where
  levels : Nat
  words : Nat → Nat → BitVec w

namespace BitIndex

variable {w : Nat}

/-- The bit of a position of one level. -/
def bit (ix : BitIndex w) (level p : Nat) : Bool :=
  (ix.words level (p / w)).getLsbD (p % w)

/-- A word with one bit written. -/
def putBit (word : BitVec w) (i : Nat) (b : Bool) : BitVec w :=
  if b then word ||| BitVec.twoPow w i else word &&& ~~~ BitVec.twoPow w i

def setBit (ix : BitIndex w) (level p : Nat) (b : Bool) : BitIndex w :=
  { ix with words := fun l q =>
      if l = level ∧ q = p / w then putBit (ix.words l q) (p % w) b else ix.words l q }

/-- Write a bit of `level` and, while a word turns empty or non-empty, the
bit that summarises it. -/
def writeFrom (ix : BitIndex w) : Nat → Nat → Nat → Bool → BitIndex w
  | 0, _, _, _ => ix
  | n + 1, level, p, b =>
    let next := ix.setBit level p b
    let nonempty := decide (next.words level (p / w) ≠ 0)
    if decide (ix.words level (p / w) ≠ 0) = nonempty then next
    else next.writeFrom n (level + 1) (p / w) nonempty

def write (ix : BitIndex w) (p : Nat) (b : Bool) : BitIndex w :=
  ix.writeFrom ix.levels 0 p b

/-- How many levels `n` words of leaves need until one word is left. -/
def levelsFor (w : Nat) : Nat → Nat → Nat
  | 0, _ => 1
  | fuel + 1, n => if n ≤ 1 then 1 else levelsFor w fuel ((n + w - 1) / w) + 1

def empty (levels : Nat) : BitIndex w :=
  ⟨levels, fun _ _ => 0⟩

/-- Each summary bit says whether its word is not zero. -/
def Summarized (ix : BitIndex w) : Prop :=
  ∀ l p, l + 1 < ix.levels → ix.bit (l + 1) p = decide (ix.words l p ≠ 0)

theorem summarized_empty (levels : Nat) : (empty levels : BitIndex w).Summarized := by
  intro l p _
  simp [bit, empty]

@[simp] theorem bit_empty (levels level p : Nat) :
    (empty levels : BitIndex w).bit level p = false := by
  simp [bit, empty]

/-! ## Writing -/

theorem getLsbD_putBit (word : BitVec w) {i j : Nat} (hj : j < w) (b : Bool) :
    (putBit word i b).getLsbD j = if j = i then b else word.getLsbD j := by
  by_cases hij : j = i
  · subst hij
    cases b <;> simp [putBit, hj]
  · cases b <;> simp [putBit, hij, hj]

variable (ix : BitIndex w)

@[simp] theorem setBit_levels (level p : Nat) (b : Bool) :
    (ix.setBit level p b).levels = ix.levels := rfl

theorem bit_setBit (hw : 0 < w) (ix : BitIndex w) (level p l q : Nat) (b : Bool) :
    (ix.setBit level p b).bit l q = if l = level ∧ q = p then b else ix.bit l q := by
  have hq := Nat.mod_lt q hw
  simp only [bit, setBit]
  by_cases hl : l = level
  · by_cases hword : q / w = p / w
    · have hiff : q % w = p % w ↔ q = p := by
        constructor
        · intro hm
          rw [← Nat.div_add_mod q w, ← Nat.div_add_mod p w, hword, hm]
        intro h
        rw [h]
      simp only [hl, hword, and_self, if_true, getLsbD_putBit _ hq, hiff, true_and]
    have hne : q ≠ p := fun h => hword (by rw [h])
    simp [hl, hword, hne]
  · simp [hl]

variable {level p : Nat}

theorem words_setBit_of_ne {l q : Nat} (b : Bool)
    (h : l ≠ level ∨ q ≠ p / w) : (ix.setBit level p b).words l q = ix.words l q := by
  apply if_neg
  rintro ⟨rfl, rfl⟩
  simp at h

@[simp] theorem writeFrom_levels (n level p : Nat) (b : Bool) :
    (ix.writeFrom n level p b).levels = ix.levels := by
  induction n generalizing ix level p b with
  | zero => rfl
  | succ n ih =>
    simp only [writeFrom]
    split
    · rfl
    · rw [ih, setBit_levels]

@[simp] theorem write_levels (p : Nat) (b : Bool) : (ix.write p b).levels = ix.levels :=
  writeFrom_levels ..

/-- A write that starts at `level` leaves the levels below it alone. -/
theorem words_writeFrom_of_lt (n : Nat) {l : Nat} (p q : Nat) (b : Bool)
    (h : l < level) : (ix.writeFrom n level p b).words l q = ix.words l q := by
  induction n generalizing ix level p b with
  | zero => rfl
  | succ n ih =>
    simp only [writeFrom]
    split
    · exact ix.words_setBit_of_ne b (.inl (by omega))
    · rw [ih _ _ _ (by omega), ix.words_setBit_of_ne b (.inl (by omega))]

theorem bit_write (hw : 0 < w) (ix : BitIndex w) (hlevels : 0 < ix.levels) (p q : Nat) (b : Bool) :
    (ix.write p b).bit 0 q = if q = p then b else ix.bit 0 q := by
  obtain ⟨n, hn⟩ : ∃ n, ix.levels = n + 1 := ⟨ix.levels - 1, by omega⟩
  have hset := ix.bit_setBit hw 0 p 0 q b
  simp only [true_and] at hset
  unfold write
  rw [hn]
  simp only [writeFrom]
  split
  · exact hset
  rw [← hset]
  unfold bit
  rw [words_writeFrom_of_lt _ _ _ _ _ (Nat.zero_lt_one)]

/-- All summary bits are right, except perhaps the one of word `p` below
`level`, which is about to become `b`. -/
def SummarizedExcept (ix : BitIndex w) (level p : Nat) (b : Bool) : Prop :=
  ∀ l q, l + 1 < ix.levels →
    (if l + 1 = level ∧ q = p then b else ix.bit (l + 1) q) = decide (ix.words l q ≠ 0)

section

variable (hw : 0 < w) {ix : BitIndex w} {b : Bool}
include hw

/-- The step: writing the exceptional bit leaves at most its own summary
wrong. -/
theorem SummarizedExcept.setBit (h : ix.SummarizedExcept level p b) (c : Bool)
    (hc : c = decide ((ix.setBit level p b).words level (p / w) ≠ 0)) :
    (ix.setBit level p b).SummarizedExcept (level + 1) (p / w) c := by
  intro l q hl
  have hold := h l q hl
  by_cases htop : l = level
  · by_cases hq : q = p / w
    · simp only [htop, hq, and_self, if_true, hc]
    rw [if_neg (by simp [hq]), ix.bit_setBit hw, if_neg (by omega),
      ix.words_setBit_of_ne b (.inr hq), ← hold, if_neg (by omega)]
  · rw [if_neg (by omega), ix.bit_setBit hw, ix.words_setBit_of_ne b (.inl htop), ← hold]

theorem SummarizedExcept.writeFrom {n : Nat} (hn : ix.levels ≤ n + level)
    (h : ix.SummarizedExcept level p b) : (ix.writeFrom n level p b).Summarized := by
  induction n generalizing ix level p b with
  | zero =>
    intro l q hl
    have hold := h l q hl
    simp only [BitIndex.writeFrom] at hl ⊢
    rwa [if_neg (by omega)] at hold
  | succ n ih =>
    simp only [BitIndex.writeFrom]
    split
    · next heq =>
      -- The word keeps its emptiness, so the bit above it is right already.
      intro l q hl
      have hset := h.setBit hw _ heq l q hl
      by_cases htop : l = level ∧ q = p / w
      · obtain ⟨rfl, rfl⟩ := htop
        have hold := h l (p / w) hl
        rw [if_neg (by omega)] at hold
        rw [ix.bit_setBit hw, if_neg (by omega), hold, heq]
      · rwa [if_neg (by omega)] at hset
    apply ih
    · simp only [setBit_levels]
      omega
    · exact h.setBit hw _ rfl

theorem Summarized.write (h : ix.Summarized) (p : Nat) (b : Bool) : (ix.write p b).Summarized := by
  apply SummarizedExcept.writeFrom hw (by omega)
  intro l q hl
  rw [if_neg (by omega)]
  exact h l q hl

end

/-! ## Searching -/

/-- The index of the lowest set bit, `w` when there is none. -/
def countrZero (word : BitVec w) : Nat :=
  ((List.range w).find? word.getLsbD).getD w

/-- The first set position of `[first, last)` on `level`: look in the first
word, then let the level above name the next word that is not zero. -/
def nextBitFrom (ix : BitIndex w) : Nat → Nat → Nat → Nat → Option Nat
  | 0, _, _, _ => none
  | n + 1, level, first, last =>
    if last ≤ first then none
    else
      let word := ix.words level (first / w) &&& (BitVec.allOnes w <<< (first % w))
      if word ≠ 0 then
        let found := first / w * w + countrZero word
        if found < last then some found else none
      else if n = 0 then none
      else
        match ix.nextBitFrom n (level + 1) (first / w + 1) ((last + w - 1) / w) with
        | none => none
        | some nextWord =>
          let found := nextWord * w + countrZero (ix.words level nextWord)
          if found < last then some found else none

def nextBit (ix : BitIndex w) (first last : Nat) : Option Nat :=
  ix.nextBitFrom ix.levels 0 first last

theorem levelsFor_pos (w fuel n : Nat) : 0 < levelsFor w fuel n := by
  cases fuel with
  | zero => exact Nat.one_pos
  | succ fuel =>
    simp only [levelsFor]
    split <;> omega

end BitIndex
