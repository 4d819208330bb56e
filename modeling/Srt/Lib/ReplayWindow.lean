/-
# `ReplayWindow` — a bitmap of recent counters

A receiver that must take every counter at most once keeps the greatest one
it took and a bit for each of the `w` counters up to it; older ones it
refuses.  Bit `age` stands for the counter that is `age` below the greatest.

`Remembers A v` says that the window is exact for the set `A` of counters
taken so far.  It survives every `mark` the window allows, and then
`refuses` decides membership in `A` as far as the window reaches
(`Remembers.refuses_eq_false`).
-/
import Mathlib.Data.Set.Insert

structure ReplayWindow (w : Nat) where
  highest : Nat := 0
  bitmap : BitVec w := 0#w
  deriving DecidableEq, Repr

namespace ReplayWindow

variable {w : Nat}

/-- The counter is below the window, or its bit is set. -/
def refuses (v : ReplayWindow w) (c : Nat) : Bool :=
  decide (c ≤ v.highest) && (decide (w ≤ v.highest - c) || v.bitmap.getLsbD (v.highest - c))

/-- A counter that was taken: a greater one shifts the window up. -/
def mark (v : ReplayWindow w) (c : Nat) : ReplayWindow w :=
  if v.highest < c then
    { highest := c
      bitmap := if w ≤ c - v.highest then 1#w else (v.bitmap <<< (c - v.highest)) ||| 1#w }
  else { v with bitmap := v.bitmap ||| (1#w <<< (v.highest - c)) }

/-- The window is exact for the set of counters taken. -/
structure Remembers (A : Set Nat) (v : ReplayWindow w) : Prop where
  le_highest : ∀ c ∈ A, c ≤ v.highest
  highest_mem : v.highest = 0 ∨ v.highest ∈ A
  bit : ∀ age < w, v.bitmap.getLsbD age = true ↔ age ≤ v.highest ∧ v.highest - age ∈ A

variable {A : Set Nat} {v : ReplayWindow w} {c : Nat}

theorem remembers_empty : Remembers ∅ ({} : ReplayWindow w) where
  le_highest := by simp
  highest_mem := .inl rfl
  bit := by simp

/-- What the window lets through is new and not too old. -/
theorem Remembers.refuses_eq_false (h : Remembers A v) :
    v.refuses c = false ↔ c ∉ A ∧ v.highest < c + w := by
  unfold refuses
  by_cases hc : c ≤ v.highest
  · by_cases hage : w ≤ v.highest - c
    · have hold : ¬ v.highest < c + w := by omega
      simp [hc, hage, hold]
    have hback : v.highest - (v.highest - c) = c := by omega
    have hbit := h.bit (v.highest - c) (Nat.lt_of_not_le hage)
    rw [hback] at hbit
    have hle : v.highest - c ≤ v.highest := Nat.sub_le _ _
    have hnew : v.highest < c + w := by omega
    cases hget : v.bitmap.getLsbD (v.highest - c) with
    | true => simp [hc, hage, (hbit.1 hget).2]
    | false =>
      have hmem : c ∉ A := fun hA => by
        rw [hbit.2 ⟨hle, hA⟩] at hget
        cases hget
      simp [hc, hage, hmem, hnew]
  have hmem : c ∉ A := fun hA => hc (h.le_highest c hA)
  have hnew : v.highest < c + w := by omega
  simp [hc, hmem, hnew]

/-- The bit of a counter that is set inside the window. -/
theorem getLsbD_twoPow_or {b : BitVec w} {d age : Nat} (hage : age < w) :
    (b ||| (1#w <<< d)).getLsbD age = true ↔ b.getLsbD age = true ∨ age = d := by
  rw [BitVec.getLsbD_or, Bool.or_eq_true, ← BitVec.twoPow_eq, BitVec.getLsbD_twoPow]
  refine or_congr_right ?_
  simp only [Bool.and_eq_true, decide_eq_true_eq]
  constructor
  · rintro ⟨-, rfl⟩
    rfl
  rintro rfl
  exact ⟨hage, rfl⟩

theorem Remembers.mark (h : Remembers A v) (hc : v.refuses c = false) :
    Remembers (insert c A) (v.mark c) := by
  have hnew : c ∉ A ∧ v.highest < c + w := h.refuses_eq_false.1 hc
  unfold ReplayWindow.mark
  by_cases hup : v.highest < c
  · rw [if_pos hup]
    refine ⟨?_, .inr (Set.mem_insert c A), ?_⟩
    · rintro d (rfl | hd)
      · exact Nat.le_refl d
      · exact (h.le_highest d hd).trans hup.le
    intro age hage
    have hcounter : (age ≤ c ∧ c - age ∈ insert c A)
        ↔ age = 0 ∨ (c - v.highest ≤ age ∧ age - (c - v.highest) ≤ v.highest
          ∧ v.highest - (age - (c - v.highest)) ∈ A) := by
      rw [Set.mem_insert_iff]
      constructor
      · rintro ⟨hle, heq | hA⟩
        · exact .inl (by omega)
        have hbelow := h.le_highest _ hA
        refine .inr ⟨by omega, by omega, ?_⟩
        rwa [show v.highest - (age - (c - v.highest)) = c - age by omega]
      rintro (rfl | ⟨h₁, h₂, hA⟩)
      · exact ⟨Nat.zero_le c, .inl rfl⟩
      refine ⟨by omega, .inr ?_⟩
      rwa [show c - age = v.highest - (age - (c - v.highest)) by omega]
    dsimp only
    rw [hcounter]
    split
    · next hfar =>
      have hgone : ¬ (c - v.highest ≤ age) := by omega
      simp [hage, hgone]
    have hone : (1#w : BitVec w) = 1#w <<< 0 := by simp
    rw [hone, getLsbD_twoPow_or hage, BitVec.getLsbD_shiftLeft]
    by_cases hshift : c - v.highest ≤ age
    · have hbit := h.bit (age - (c - v.highest)) (by omega)
      simp [hage, hshift, hbit, or_comm]
    · simp [hshift]
  rw [if_neg hup]
  refine ⟨?_, ?_, ?_⟩
  · rintro d (rfl | hd)
    · exact Nat.le_of_not_lt hup
    · exact h.le_highest d hd
  · exact h.highest_mem.imp id (Set.mem_insert_of_mem c)
  intro age hage
  dsimp only
  rw [getLsbD_twoPow_or hage, h.bit age hage, Set.mem_insert_iff]
  constructor
  · rintro (⟨hle, hA⟩ | rfl)
    · exact ⟨hle, .inr hA⟩
    · exact ⟨Nat.sub_le _ _, .inl (by omega)⟩
  rintro ⟨hle, heq | hA⟩
  · exact .inr (by omega)
  · exact .inl ⟨hle, hA⟩

end ReplayWindow
