/-
# `SlotRing` — a ring of slots read from a moving head

A fixed number of physical slots is read through offsets from a head.  The
head moves forward and the physical slots stay where they are, so advancing
by `n` shifts the view by `n` (`get_advance`) and the slots that were passed
come round again at the end of the window (`get_add_capacity`): whoever
advances is answerable for what they leave behind.

`total f` adds up `f` over the physical slots; it does not depend on the
head and changes by one term when one slot is written
(`total_set`).
-/
import Mathlib.Algebra.Order.BigOperators.Group.Finset

structure SlotRing (α : Type*) where
  capacity : Nat
  capacity_pos : 0 < capacity
  slots : Nat → α
  head : Nat
  head_lt : head < capacity

namespace SlotRing

open Finset

variable {α : Type*}

/-- The physical slot behind an offset. -/
def position (r : SlotRing α) (offset : Nat) : Nat :=
  (r.head + offset) % r.capacity

def get (r : SlotRing α) (offset : Nat) : α :=
  r.slots (r.position offset)

def set (r : SlotRing α) (offset : Nat) (a : α) : SlotRing α :=
  { r with slots := fun p => if p = r.position offset then a else r.slots p }

def advance (r : SlotRing α) (n : Nat) : SlotRing α :=
  { r with head := (r.head + n) % r.capacity, head_lt := Nat.mod_lt _ r.capacity_pos }

/-- A ring whose slots all hold `a`. -/
def replicate (n : Nat) (h : 0 < n) (a : α) : SlotRing α :=
  ⟨n, h, fun _ => a, 0, h⟩

variable (r : SlotRing α)

@[simp] theorem set_capacity (i : Nat) (a : α) : (r.set i a).capacity = r.capacity := rfl

/-! ## Positions -/

theorem position_lt (i : Nat) : r.position i < r.capacity := Nat.mod_lt _ r.capacity_pos

variable {i : Nat}

/-- Inside the window the sum wraps at most once. -/
theorem position_eq (hi : i < r.capacity) :
    r.position i = if r.head + i < r.capacity then r.head + i else r.head + i - r.capacity := by
  have hhead := r.head_lt
  unfold position
  split
  · next h => exact Nat.mod_eq_of_lt h
  next h =>
  rw [Nat.mod_eq_sub_mod (by omega)]
  exact Nat.mod_eq_of_lt (by omega)

variable {j : Nat}

theorem position_inj (hi : i < r.capacity) (hj : j < r.capacity) :
    r.position i = r.position j ↔ i = j := by
  have hhead := r.head_lt
  constructor
  · intro h
    rw [r.position_eq hi, r.position_eq hj] at h
    split at h <;> split at h <;> omega
  intro h
  rw [h]

/-- Every physical slot is behind some offset of the window. -/
theorem exists_position {p : Nat} (hp : p < r.capacity) : ∃ i < r.capacity, r.position i = p := by
  have hhead := r.head_lt
  by_cases h : r.head ≤ p
  · refine ⟨p - r.head, by omega, ?_⟩
    rw [r.position_eq (by omega), if_pos (by omega)]
    omega
  refine ⟨p + r.capacity - r.head, by omega, ?_⟩
  rw [r.position_eq (by omega), if_neg (by omega)]
  omega

theorem position_advance (n j : Nat) : (r.advance n).position j = r.position (n + j) := by
  simp only [position, advance, Nat.mod_add_mod, Nat.add_assoc]

theorem position_add_capacity (i : Nat) : r.position (i + r.capacity) = r.position i := by
  simp only [position, ← Nat.add_assoc, Nat.add_mod_right]

/-! ## Reading -/

@[simp] theorem get_set_self (i : Nat) (a : α) : (r.set i a).get i = a := if_pos rfl

theorem get_set_ne (hi : i < r.capacity) (hj : j < r.capacity)
    (hij : j ≠ i) (a : α) : (r.set i a).get j = r.get j :=
  if_neg (fun h => hij ((r.position_inj hj hi).1 h))

theorem get_set (hi : i < r.capacity) (hj : j < r.capacity)
    (a : α) : (r.set i a).get j = if j = i then a else r.get j := by
  split
  · next h => rw [h, get_set_self]
  · next h => exact r.get_set_ne hi hj h a

theorem get_advance (n j : Nat) : (r.advance n).get j = r.get (n + j) := by
  unfold get
  rw [position_advance]
  rfl

/-- The slots the head has passed are the ones that enter the window next. -/
theorem get_add_capacity (i : Nat) : r.get (i + r.capacity) = r.get i := by
  unfold get
  rw [position_add_capacity]

/-- What holds of every slot holds of every offset, and conversely. -/
theorem forall_get_iff {P : α → Prop} :
    (∀ i < r.capacity, P (r.get i)) ↔ ∀ p < r.capacity, P (r.slots p) := by
  constructor
  · intro h p hp
    obtain ⟨i, hi, rfl⟩ := r.exists_position hp
    exact h i hi
  intro h i _
  exact h _ (r.position_lt i)

/-! ## Adding up -/

section Total

variable {M : Type*} [AddCommMonoid M]

/-- The sum of `f` over the physical slots. -/
def total (f : α → M) (r : SlotRing α) : M :=
  ∑ p ∈ range r.capacity, f (r.slots p)

variable {a : α}

theorem total_replicate (f : α → M) {n : Nat} (h : 0 < n) (ha : f a = 0) :
    (replicate n h a).total f = 0 :=
  sum_eq_zero (fun _ _ => ha)

section

variable (f : α → M) (r : SlotRing α) (i : Nat)

theorem total_split :
    r.total f = f (r.get i) + ∑ p ∈ (range r.capacity).erase (r.position i), f (r.slots p) :=
  (add_sum_erase _ (fun p => f (r.slots p)) (mem_range.2 (r.position_lt i))).symm

theorem total_set_split (a : α) : (r.set i a).total f = f a
      + ∑ p ∈ (range r.capacity).erase (r.position i), f (r.slots p) := by
  rw [total_split f (r.set i a) i, get_set_self]
  congr 1
  apply sum_congr rfl
  intro p hp
  rw [show (r.set i a).slots p = r.slots p from if_neg (ne_of_mem_erase hp)]

/-- Writing one slot exchanges one term. -/
theorem total_set (a : α) : (r.set i a).total f + f (r.get i) = r.total f + f a := by
  rw [total_set_split, total_split f r i, add_comm _ (f (r.get i)), add_comm (f a), ← add_assoc]

/-- Writing one slot takes its term out, brings a new one in, or keeps it. -/
theorem total_eq_add_of_zero (ha : f a = 0) : r.total f = f (r.get i) + (r.set i a).total f := by
  rw [total_set_split, ha, zero_add, ← total_split]

theorem total_set_of_zero (a : α) (h : f (r.get i) = 0) :
    (r.set i a).total f = f a + r.total f := by
  rw [total_set_split, total_split f r i, h, zero_add]

theorem total_set_of_eq (h : f a = f (r.get i)) : (r.set i a).total f = r.total f := by
  rw [total_set_split, total_split f r i, h]

end

end Total

/-- With at most one element a slot and none in one of them, there is room. -/
theorem card_total_lt {β : Type*} {f : α → Multiset β} (hone : ∀ a, Multiset.card (f a) ≤ 1)
    (hi : f (r.get i) = 0) : Multiset.card (r.total f) < r.capacity := by
  have hmem : r.position i ∈ range r.capacity := mem_range.2 (r.position_lt i)
  have hrest : ∑ p ∈ (range r.capacity).erase (r.position i),
      Multiset.card (f (r.slots p)) ≤ ∑ _p ∈ (range r.capacity).erase (r.position i), 1 :=
    sum_le_sum (fun p _ => hone (r.slots p))
  rw [← card_eq_sum_ones, card_erase_of_mem hmem, card_range] at hrest
  have hpos := r.capacity_pos
  rw [total_split f r i, hi, zero_add, Multiset.card_sum]
  omega

/-- Slots whose multisets add up without repetition share no element. -/
theorem disjoint_of_total_nodup {β : Type*} {f : α → Multiset β} {r : SlotRing α}
    (h : (r.total f).Nodup) {p q : Nat} (hp : p < r.capacity) (hq : q < r.capacity) (hpq : p ≠ q) :
    Disjoint (f (r.slots p)) (f (r.slots q)) := by
  have hmem : q ∈ (range r.capacity).erase p := mem_erase.2 ⟨hpq.symm, mem_range.2 hq⟩
  have hsplit : r.total f = f (r.slots p) + ∑ q ∈ (range r.capacity).erase p, f (r.slots q) :=
    (add_sum_erase _ (fun q => f (r.slots q)) (mem_range.2 hp)).symm
  rw [hsplit, Multiset.nodup_add] at h
  refine h.2.2.mono_right ?_
  exact Multiset.le_iff_exists_add.2 ⟨_, (add_sum_erase _ (fun q => f (r.slots q)) hmem).symm⟩

end SlotRing
