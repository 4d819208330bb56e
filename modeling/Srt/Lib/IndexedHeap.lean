/-
# `IndexedHeap` — binary heaps whose elements know their slot

An array heap over a key, with the inverse array that lets an element be
taken out of the middle.  `repair` is the usual pair of loops: up while the
element is before its parent, then down while a child is before it.

Both loops run on a heap that is in order except around one slot
(`OrderedExcept`): pairs that do not touch the slot are in order, and the
slot's children are not before its parent.  Moving up keeps that form with
the parent as the new slot, moving down with the child.
-/
import Mathlib.Order.Lattice
import Mathlib.Tactic.Common

/-- An array of elements and, for each element, the slot it is in. -/
structure IndexedHeap (κ : Type*) where
  slots : Nat → κ
  size : Nat
  index : κ → Nat

namespace IndexedHeap

open Function

variable {κ α : Type*} [DecidableEq κ] [LinearOrder α]

def parent (i : Nat) : Nat := (i - 1) / 2

def swap (h : IndexedHeap κ) (i j : Nat) : IndexedHeap κ :=
  { h with
    slots := update (update h.slots i (h.slots j)) j (h.slots i)
    index := update (update h.index (h.slots j) i) (h.slots i) j }

/-- The first loop of `repair`: the heap and the slot it stops at. -/
def siftUp (key : κ → α) : Nat → IndexedHeap κ → Nat → IndexedHeap κ × Nat
  | 0, h, i => (h, i)
  | n + 1, h, i =>
    if i ≠ 0 ∧ key (h.slots i) < key (h.slots (parent i)) then
      siftUp key n (h.swap i (parent i)) (parent i)
    else (h, i)

/-- The child the second loop compares with. -/
def child (key : κ → α) (h : IndexedHeap κ) (i : Nat) : Nat :=
  let left := i * 2 + 1
  if left + 1 < h.size ∧ key (h.slots (left + 1)) < key (h.slots left) then left + 1 else left

def siftDown (key : κ → α) : Nat → IndexedHeap κ → Nat → IndexedHeap κ
  | 0, h, _ => h
  | n + 1, h, i =>
    if i * 2 + 1 ≥ h.size then h
    else if key (h.slots (h.child key i)) < key (h.slots i) then
      siftDown key n (h.swap i (h.child key i)) (h.child key i)
    else h

/-- Slot `i` holds an element whose key is new. -/
def repair (key : κ → α) (h : IndexedHeap κ) (i : Nat) : IndexedHeap κ :=
  let (up, j) := siftUp key i h i
  siftDown key up.size up j

def push (key : κ → α) (h : IndexedHeap κ) (k : κ) : IndexedHeap κ :=
  repair key
    { slots := update h.slots h.size k
      size := h.size + 1
      index := update h.index k h.size } h.size

def remove (key : κ → α) (h : IndexedHeap κ) (k : κ) : IndexedHeap κ :=
  let i := h.index k
  let rest : IndexedHeap κ := { h.swap i (h.size - 1) with size := h.size - 1 }
  if i < rest.size then repair key rest i else rest

def Mem (h : IndexedHeap κ) (k : κ) : Prop := ∃ i < h.size, h.slots i = k

/-- `index` is the inverse of `slots`. -/
def Indexed (h : IndexedHeap κ) : Prop := ∀ i < h.size, h.index (h.slots i) = i

def Ordered (key : κ → α) (h : IndexedHeap κ) : Prop :=
  ∀ i, 0 < i → i < h.size → key (h.slots (parent i)) ≤ key (h.slots i)

/-- In order, except for the pairs that touch slot `p`. -/
structure OrderedExcept (key : κ → α) (h : IndexedHeap κ) (p : Nat) : Prop where
  off : ∀ i, 0 < i → i < h.size → i ≠ p → parent i ≠ p → key (h.slots (parent i)) ≤ key (h.slots i)
  across : ∀ c, 0 < c → c < h.size → parent c = p → 0 < p →
    key (h.slots (parent p)) ≤ key (h.slots c)

theorem parent_lt {i : Nat} (h : 0 < i) : parent i < i := by
  unfold parent; omega

theorem parent_eq_iff {c i : Nat} (hc : 0 < c) : parent c = i ↔ c = i * 2 + 1 ∨ c = i * 2 + 2 := by
  unfold parent; omega

omit [DecidableEq κ] in
theorem Ordered.root_le {key : κ → α} {h : IndexedHeap κ} (ho : h.Ordered key) :
    ∀ i, i < h.size → key (h.slots 0) ≤ key (h.slots i) := by
  intro i
  induction i using Nat.strongRecOn with
  | _ i ih =>
    intro hi
    rcases Nat.eq_zero_or_pos i with rfl | hpos
    · exact le_rfl
    have hp := parent_lt hpos
    exact (ih (parent i) hp (Nat.lt_trans hp hi)).trans (ho i hpos hi)

omit [DecidableEq κ] in
theorem Ordered.congr {key key' : κ → α} {h : IndexedHeap κ} (ho : h.Ordered key)
    (agree : ∀ x, h.Mem x → key' x = key x) : h.Ordered key' := by
  intro i hpos hi
  rw [agree _ ⟨i, hi, rfl⟩, agree _ ⟨parent i, Nat.lt_trans (parent_lt hpos) hi, rfl⟩]
  exact ho i hpos hi

section Swap

variable {h : IndexedHeap κ} {i j : Nat}

@[simp] theorem size_swap : (h.swap i j).size = h.size := rfl

theorem slots_swap_left (hij : i ≠ j) : (h.swap i j).slots i = h.slots j := by
  simp [swap, hij]

theorem slots_swap_right : (h.swap i j).slots j = h.slots i := by
  simp [swap]

theorem slots_swap_of_ne {k : Nat} (hi : k ≠ i) (hj : k ≠ j) :
    (h.swap i j).slots k = h.slots k := by
  simp [swap, hi, hj]

omit [DecidableEq κ] in
theorem Indexed.slots_inj (hx : h.Indexed) (hi : i < h.size) (hj : j < h.size)
    (heq : h.slots i = h.slots j) : i = j := by
  rw [← hx i hi, ← hx j hj, heq]

theorem Indexed.swap (hx : h.Indexed) (hi : i < h.size) (hj : j < h.size) :
    (h.swap i j).Indexed := by
  intro k hk
  rw [size_swap] at hk
  by_cases hkj : k = j
  · subst hkj
    rw [slots_swap_right]
    simp [IndexedHeap.swap]
  by_cases hki : k = i
  · subst hki
    have hne : h.slots j ≠ h.slots k := fun heq => hkj (hx.slots_inj hi hj heq.symm)
    rw [slots_swap_left hkj]
    simp [IndexedHeap.swap, hne]
  have hnei : h.slots k ≠ h.slots i := fun heq => hki (hx.slots_inj hk hi heq)
  have hnej : h.slots k ≠ h.slots j := fun heq => hkj (hx.slots_inj hk hj heq)
  rw [slots_swap_of_ne hki hkj]
  simpa [IndexedHeap.swap, hnei, hnej] using hx k hk

theorem mem_of_mem_swap (hi : i < h.size) (hj : j < h.size) {k : κ} (hk : (h.swap i j).Mem k) :
    h.Mem k := by
  obtain ⟨n, hn, rfl⟩ := hk
  by_cases hnj : n = j
  · exact ⟨i, hi, by rw [hnj, slots_swap_right]⟩
  by_cases hni : n = i
  · exact ⟨j, hj, by rw [hni, slots_swap_left (hni ▸ hnj)]⟩
  · exact ⟨n, hn, (slots_swap_of_ne hni hnj).symm⟩

theorem swap_slots_swap : ((h.swap i j).swap i j).slots = h.slots := by
  funext k
  by_cases hkj : k = j
  · subst hkj
    by_cases hik : i = k
    · subst hik; simp [swap]
    · rw [slots_swap_right, slots_swap_left hik]
  by_cases hki : k = i
  · subst hki
    rw [slots_swap_left hkj, slots_swap_right]
  · rw [slots_swap_of_ne hki hkj, slots_swap_of_ne hki hkj]

end Swap

/-- The same elements in other slots, each with its own slot recorded. -/
structure Shuffles (h h' : IndexedHeap κ) : Prop where
  size : h'.size = h.size
  indexed : h.Indexed → h'.Indexed
  mem : ∀ k, h'.Mem k ↔ h.Mem k

omit [DecidableEq κ] in
theorem Shuffles.refl (h : IndexedHeap κ) : h.Shuffles h := ⟨rfl, id, fun _ => Iff.rfl⟩

omit [DecidableEq κ] in
theorem Shuffles.trans {h₁ h₂ h₃ : IndexedHeap κ} (h : h₁.Shuffles h₂) (h' : h₂.Shuffles h₃) :
    h₁.Shuffles h₃ :=
  ⟨h'.size.trans h.size, h'.indexed ∘ h.indexed, fun k => (h'.mem k).trans (h.mem k)⟩

theorem shuffles_swap {h : IndexedHeap κ} {i j : Nat} (hi : i < h.size) (hj : j < h.size) :
    h.Shuffles (h.swap i j) where
  size := rfl
  indexed hx := hx.swap hi hj
  mem k := by
    refine ⟨mem_of_mem_swap hi hj, fun hk => ?_⟩
    refine mem_of_mem_swap (h := h.swap i j) (i := i) (j := j) hi hj ?_
    obtain ⟨n, hn, rfl⟩ := hk
    exact ⟨n, hn, congrFun swap_slots_swap n⟩

section Repair

variable {key : κ → α} {h : IndexedHeap κ} {i : Nat}

/-- The element goes up: its old parent is in order where it now stands. -/
theorem OrderedExcept.up (ho : h.OrderedExcept key i) (hi : i < h.size) (hpos : 0 < i) :
    (h.swap i (parent i)).OrderedExcept key (parent i) := by
  have hp := parent_lt hpos
  constructor
  · intro k hk hlt hne hpne
    have hki : k ≠ i := fun heq => hpne (by rw [heq])
    rw [slots_swap_of_ne hki hne]
    by_cases hpk : parent k = i
    · rw [hpk, slots_swap_left (by omega)]
      exact ho.across k hk hlt hpk hpos
    rw [slots_swap_of_ne hpk hpne]
    exact ho.off k hk hlt hki hpk
  intro c hc hlt hpc hq
  have hpp := parent_lt hq
  have hgrand : key (h.slots (parent (parent i))) ≤ key (h.slots (parent i)) :=
    ho.off (parent i) hq (by omega) (by omega) (by omega)
  rw [slots_swap_of_ne (by omega) (by omega)]
  by_cases hci : c = i
  · rw [hci, slots_swap_left (by omega)]
    exact hgrand
  have hcp := parent_lt hc
  rw [slots_swap_of_ne hci (by omega)]
  have := ho.off c hc hlt hci (by omega)
  rw [hpc] at this
  exact hgrand.trans this

/-- What the first loop leaves: nothing is before its parent at the slot. -/
theorem siftUp_spec : ∀ {n : Nat} {h : IndexedHeap κ} {i : Nat}, i ≤ n → i < h.size →
    h.OrderedExcept key i →
    h.Shuffles (siftUp key n h i).1 ∧ (siftUp key n h i).2 < h.size ∧
    (siftUp key n h i).1.OrderedExcept key (siftUp key n h i).2 ∧
    (0 < (siftUp key n h i).2 → key ((siftUp key n h i).1.slots (parent (siftUp key n h i).2)) ≤
        key ((siftUp key n h i).1.slots (siftUp key n h i).2)) := by
  intro n
  induction n with
  | zero =>
    intro h i hn hi ho
    exact ⟨.refl h, hi, ho, fun hpos => absurd hpos (by simp only [siftUp]; omega)⟩
  | succ n ih =>
    intro h i hn hi ho
    rw [siftUp]
    split
    · rename_i hstep
      have hpos : 0 < i := Nat.pos_of_ne_zero hstep.1
      have hp := parent_lt hpos
      have hlt : parent i < h.size := Nat.lt_trans hp hi
      obtain ⟨hshuffle, hrest⟩ := ih (h := h.swap i (parent i)) (i := parent i)
        (by omega) hlt (ho.up hi hpos)
      exact ⟨(shuffles_swap hi hlt).trans hshuffle, hrest⟩
    rename_i hstop
    refine ⟨.refl h, hi, ho, fun hpos => ?_⟩
    exact not_lt.1 fun hlt => hstop ⟨by simp only at hpos; omega, hlt⟩

omit [DecidableEq κ] in
theorem child_spec (key : κ → α) (hleft : i * 2 + 1 < h.size) :
    0 < h.child key i ∧ h.child key i < h.size ∧ parent (h.child key i) = i ∧
    ∀ c, 0 < c → c < h.size → parent c = i → key (h.slots (h.child key i)) ≤ key (h.slots c) := by
  simp only [child]
  split
  · rename_i hright
    refine ⟨by omega, hright.1, by unfold parent; omega, fun c hc hlt hpc => ?_⟩
    rcases (parent_eq_iff hc).1 hpc with rfl | rfl
    · exact hright.2.le
    · exact le_rfl
  rename_i hright
  refine ⟨by omega, hleft, by unfold parent; omega, fun c hc hlt hpc => ?_⟩
  rcases (parent_eq_iff hc).1 hpc with rfl | rfl
  · exact le_rfl
  · exact not_lt.1 fun hbefore => hright ⟨hlt, hbefore⟩

/-- The element goes down: the child that takes its slot is before the
other one. -/
theorem OrderedExcept.down (ho : h.OrderedExcept key i) (hi : i < h.size)
    (hleft : i * 2 + 1 < h.size) :
    (h.swap i (h.child key i)).OrderedExcept key (h.child key i) := by
  obtain ⟨hc, hcs, hpc, hmin⟩ := child_spec key hleft
  have hic : i < h.child key i := by have := parent_lt hc; omega
  constructor
  · intro k hk hlt hne hpne
    by_cases hki : k = i
    · subst hki
      have hp := parent_lt hk
      rw [slots_swap_left (by omega), slots_swap_of_ne (by omega) (by omega)]
      exact ho.across _ hc hcs hpc hk
    rw [slots_swap_of_ne hki hne]
    by_cases hpk : parent k = i
    · rw [hpk, slots_swap_left (by omega)]
      exact hmin k hk hlt hpk
    rw [slots_swap_of_ne hpk hpne]
    exact ho.off k hk hlt hki hpk
  intro d hd hlt hpd _
  have hdp := parent_lt hd
  rw [hpc, slots_swap_left (by omega), slots_swap_of_ne (by omega) (by omega)]
  have := ho.off d hd hlt (by omega) (by omega)
  rwa [hpd] at this

omit [DecidableEq κ] in
/-- Nothing below the slot is before it: the exception is gone. -/
theorem OrderedExcept.ordered (ho : h.OrderedExcept key i)
    (habove : 0 < i → key (h.slots (parent i)) ≤ key (h.slots i))
    (hbelow : ∀ c, 0 < c → c < h.size → parent c = i → key (h.slots i) ≤ key (h.slots c)) :
    h.Ordered key := by
  intro k hk hlt
  by_cases hki : k = i
  · subst hki; exact habove hk
  by_cases hpk : parent k = i
  · rw [hpk]; exact hbelow k hk hlt hpk
  · exact ho.off k hk hlt hki hpk

theorem siftDown_spec : ∀ {n : Nat} {h : IndexedHeap κ} {i : Nat}, h.size ≤ i + n → i < h.size →
    h.OrderedExcept key i → (0 < i → key (h.slots (parent i)) ≤ key (h.slots i)) →
    h.Shuffles (siftDown key n h i) ∧ (siftDown key n h i).Ordered key := by
  intro n
  induction n with
  | zero => intro h i hn hi; omega
  | succ n ih =>
    intro h i hn hi ho habove
    rw [siftDown]
    split
    · rename_i hleaf
      refine ⟨.refl h, ho.ordered habove fun c hc hlt hpc => ?_⟩
      rcases (parent_eq_iff hc).1 hpc with rfl | rfl <;> omega
    rename_i hinner
    have hleft : i * 2 + 1 < h.size := Nat.lt_of_not_le hinner
    obtain ⟨hc, hcs, hpc, hmin⟩ := child_spec key hleft
    have hic : i < h.child key i := by have := parent_lt hc; omega
    split
    · rename_i hbefore
      have hdown := ho.down hi hleft
      obtain ⟨hshuffle, hordered⟩ := ih (h := h.swap i (h.child key i)) (i := h.child key i)
        (by rw [size_swap]; omega) hcs hdown fun _ => by
          rw [hpc, slots_swap_left (by omega), slots_swap_right]
          exact hbefore.le
      exact ⟨(shuffles_swap hi hcs).trans hshuffle, hordered⟩
    rename_i hstop
    exact ⟨.refl h, ho.ordered habove fun c hc hlt hpc =>
      (not_lt.1 hstop).trans (hmin c hc hlt hpc)⟩

theorem repair_spec (ho : h.OrderedExcept key i) (hi : i < h.size) :
    h.Shuffles (h.repair key i) ∧ (h.repair key i).Ordered key := by
  obtain ⟨hup, hlt, hexcept, habove⟩ := siftUp_spec (n := i) (Nat.le_refl i) hi ho
  obtain ⟨hdown, hordered⟩ := siftDown_spec (n := (siftUp key i h i).1.size)
    (by omega) (by rw [hup.size]; exact hlt) hexcept habove
  exact ⟨hup.trans hdown, hordered⟩

end Repair

section Operations

variable {key : κ → α} {h : IndexedHeap κ} {k : κ}

theorem push_spec (hx : h.Indexed) (ho : h.Ordered key) (hk : ¬h.Mem k) :
    (h.push key k).Indexed ∧ (h.push key k).Ordered key ∧
    ∀ x, (h.push key k).Mem x ↔ x = k ∨ h.Mem x := by
  set grown : IndexedHeap κ :=
    { slots := update h.slots h.size k
      size := h.size + 1
      index := update h.index k h.size } with hgrown
  have hslots : ∀ n < h.size, grown.slots n = h.slots n := fun n hn =>
    update_of_ne (by omega) _ _
  have hlast : grown.slots h.size = k := update_self _ _ _
  have hexcept : grown.OrderedExcept key h.size := by
    constructor
    · intro c hc hlt hne hpne
      have hp := parent_lt hc
      have hlt' : c < h.size := by have : c < h.size + 1 := hlt; omega
      rw [hslots c hlt', hslots (parent c) (by omega)]
      exact ho c hc hlt'
    intro c hc hlt hpc
    have hp := parent_lt hc
    have : c < h.size + 1 := hlt
    omega
  have hindexed : grown.Indexed := by
    intro n hn
    rcases Nat.lt_succ_iff_lt_or_eq.1 hn with hlt | rfl
    · rw [hslots n hlt]
      exact (update_of_ne (fun heq => hk ⟨n, hlt, heq⟩) _ _).trans (hx n hlt)
    rw [hlast]
    exact update_self _ _ _
  obtain ⟨hshuffle, hordered⟩ := repair_spec hexcept (Nat.lt_succ_self _)
  refine ⟨hshuffle.indexed hindexed, hordered, fun x => (hshuffle.mem x).trans ⟨?_, ?_⟩⟩
  · rintro ⟨n, hn, rfl⟩
    rcases Nat.lt_succ_iff_lt_or_eq.1 hn with hlt | rfl
    · exact .inr ⟨n, hlt, (hslots n hlt).symm⟩
    · exact .inl hlast
  rintro (rfl | ⟨n, hn, rfl⟩)
  · exact ⟨h.size, Nat.lt_succ_self _, hlast⟩
  · exact ⟨n, Nat.lt_succ_of_lt hn, hslots n hn⟩

/-- What `remove` takes out, before it repairs. -/
def dropLast (h : IndexedHeap κ) (i : Nat) : IndexedHeap κ :=
  { h.swap i (h.size - 1) with size := h.size - 1 }

theorem slots_dropLast {i n : Nat} (hi : n ≠ i) (hn : n < h.size - 1) :
    (h.dropLast i).slots n = h.slots n :=
  slots_swap_of_ne hi (by omega)

theorem dropLast_spec (hx : h.Indexed) (hk : h.Mem k) : (h.dropLast (h.index k)).Indexed ∧
    ∀ x, (h.dropLast (h.index k)).Mem x ↔ x ≠ k ∧ h.Mem x := by
  obtain ⟨i, hi, rfl⟩ := hk
  rw [hx i hi]
  have hlast : h.size - 1 < h.size := by omega
  have hswapped := hx.swap hi hlast
  have hout : (h.swap i (h.size - 1)).slots (h.size - 1) = h.slots i := slots_swap_right
  refine ⟨fun n hn => hswapped n (Nat.lt_of_lt_of_le hn (Nat.sub_le _ _)), fun x => ⟨?_, ?_⟩⟩
  · rintro ⟨n, hn, rfl⟩
    have hn' : n < h.size - 1 := hn
    refine ⟨fun heq => ?_, mem_of_mem_swap hi hlast ⟨n, by rw [size_swap]; omega, rfl⟩⟩
    have := hswapped.slots_inj (by rw [size_swap]; omega) hlast (heq.trans hout.symm)
    omega
  rintro ⟨hne, hmem⟩
  obtain ⟨n, hn, rfl⟩ := ((shuffles_swap hi hlast).mem x).2 hmem
  have hne' : n ≠ h.size - 1 := fun heq => hne (heq ▸ hout)
  exact ⟨n, (by rw [size_swap] at hn; omega : n < h.size - 1), rfl⟩

/-- The key of the removed element may have been forgotten already. -/
theorem remove_spec {key' : κ → α} (hx : h.Indexed) (ho : h.Ordered key) (hk : h.Mem k)
    (agree : ∀ x, x ≠ k → key' x = key x) :
    (h.remove key' k).Indexed ∧ (h.remove key' k).Ordered key' ∧
    (∀ x, (h.remove key' k).Mem x ↔ x ≠ k ∧ h.Mem x) ∧
    (h.remove key' k).size = h.size - 1 := by
  obtain ⟨hindexed, hmem⟩ := dropLast_spec hx hk
  obtain ⟨i, hi, rfl⟩ := hk
  have hat := hx i hi
  have hkey : ∀ n < h.size, n ≠ i → key' (h.slots n) = key (h.slots n) := fun n hn hne =>
    agree _ fun heq => hne (hx.slots_inj hn hi heq)
  have hpair : ∀ c p, 0 < c → c < h.size - 1 → p < h.size - 1 → c ≠ i → p ≠ i →
      key (h.slots p) ≤ key (h.slots c) →
      key' ((h.dropLast i).slots p) ≤ key' ((h.dropLast i).slots c) := by
    intro c p _ hlt hplt hne hpne hle
    rw [slots_dropLast hne hlt, slots_dropLast hpne hplt,
      hkey c (by omega) hne, hkey p (by omega) hpne]
    exact hle
  rw [hat] at hindexed hmem
  by_cases hinner : i < h.size - 1
  · have hexcept : (h.dropLast i).OrderedExcept key' i := by
      constructor
      · intro c hc hlt hne hpne
        have hlt' : c < h.size - 1 := hlt
        have hp := parent_lt hc
        exact hpair c _ hc hlt' (by omega) hne hpne (ho c hc (by omega))
      intro c hc hlt hpc hpos
      have hlt' : c < h.size - 1 := hlt
      have hcp := parent_lt hc
      have hp := parent_lt hpos
      have hle := ho c hc (by omega)
      rw [hpc] at hle
      exact hpair c _ hc hlt' (by omega) (by omega) (by omega) ((ho i hpos hi).trans hle)
    obtain ⟨hshuffle, hordered⟩ := repair_spec hexcept hinner
    have hremove : h.remove key' (h.slots i) = (h.dropLast i).repair key' i := by
      simp only [remove, hat]
      exact if_pos hinner
    rw [hremove]
    exact ⟨hshuffle.indexed hindexed, hordered,
      fun x => (hshuffle.mem x).trans (hmem x), hshuffle.size⟩
  have hremove : h.remove key' (h.slots i) = h.dropLast i := by
    simp only [remove, hat]
    exact if_neg hinner
  rw [hremove]
  refine ⟨hindexed, fun c hc hlt => ?_, hmem, rfl⟩
  have hlt' : c < h.size - 1 := hlt
  have hp := parent_lt hc
  exact hpair c _ hc hlt' (by omega) (by omega) (by omega) (ho c hc (by omega))

end Operations

end IndexedHeap
