/-
# `KeySchedule` — a bounded span of positions for every key

A sender works through growing positions and uses one key at a time, the
active one.  It counts the positions a key has been responsible for, the
skipped ones included, and never lets the count pass a budget.  Keys are
told apart by an identity, and a new key is one whose identity has not been
seen.

The result is the `span` part of the invariant: two positions used under keys
of one identity are at most the budget apart, and the keys are the same key.
-/
import Mathlib.Logic.Relation
import Mathlib.Data.Nat.Basic

namespace KeySchedule

variable {κ ι : Type*}

/-- The schedule, with the record of every use. -/
structure State (κ : Type*) where
  active : Option κ := none
  spare : Option κ := none
  /-- Positions the active key has been charged for. -/
  count : Nat := 0
  position : Option Nat := none
  /-- The current position has been charged. -/
  sent : Bool := false
  /-- The spare key may become active. -/
  ready : Bool := false
  used : List (Nat × κ) := []

/-- An identity no use and no slot has. -/
structure Fresh (ident : κ → ι) (s : State κ) (k : κ) : Prop where
  used : ∀ u ∈ s.used, ident u.2 ≠ ident k
  active : ∀ a ∈ s.active, ident a ≠ ident k
  spare : ∀ b ∈ s.spare, ident b ≠ ident k

/-- One step under a budget. -/
inductive Step (ident : κ → ι) (budget : Nat) (s : State κ) : State κ → Prop
  /-- Both keys are given up. -/
  | drop : Step ident budget s { s with active := none, spare := none, count := 0, ready := false }
  /-- A new key where there was none. -/
  | install (k : κ) (hnone : s.active = none) (hk : Fresh ident s k) :
      Step ident budget s { s with active := some k }
  /-- A new spare key, at once ready if `ready` is set. -/
  | stage (k : κ) (ready : Bool) (hk : Fresh ident s k) :
      Step ident budget s { s with spare := some k, ready := s.ready || ready }
  /-- The spare key becomes active. -/
  | switch (hready : s.ready = true) :
      Step ident budget s
        { s with active := s.spare, spare := s.active, count := 0, ready := false }
  /-- The spare key is no longer to become active. -/
  | withdraw : Step ident budget s { s with ready := false }
  /-- The current position is charged. -/
  | charge (hroom : s.count < budget) :
      Step ident budget s { s with sent := true, count := s.count + 1 }
  /-- There is no room to charge it. -/
  | full (hfull : budget ≤ s.count) : Step ident budget s { s with sent := true }
  /-- The first position. -/
  | first (p : Nat) (hnone : s.position = none) :
      Step ident budget s { s with sent := false, position := some p }
  /-- A later position; the skipped ones are charged to the active key. -/
  | advance (q p : Nat) (hq : s.position = some q) (hlt : q < p)
      (hroom : s.count + (p - q - s.sent.toNat) < budget) :
      Step ident budget s
        { s with sent := false, position := some p, count := s.count + (p - q - s.sent.toNat) }
  /-- The active key is used at the current position. -/
  | use (p : Nat) (k : κ) (hp : s.position = some p) (hk : s.active = some k) :
      Step ident budget s { s with used := (p, k) :: s.used }

/-- What holds between the slots, the count and the uses. -/
structure Invariant (ident : κ → ι) (budget : Nat) (s : State κ) : Prop where
  /-- The active key has been charged for all it was used at. -/
  charged : ∀ u ∈ s.used, ∀ a ∈ s.active, ident u.2 = ident a →
    u.2 = a ∧ ∃ p, s.position = some p ∧ u.1 ≤ p ∧ p ≤ u.1 + budget
      ∧ p + s.sent.toNat ≤ u.1 + s.count + 1
  /-- A ready spare key is unused. -/
  unused : s.ready = true → ∀ b ∈ s.spare,
    (∀ u ∈ s.used, ident u.2 ≠ ident b) ∧ ∀ a ∈ s.active, ident a ≠ ident b
  span : ∀ u ∈ s.used, ∀ v ∈ s.used, ident u.2 = ident v.2 → u.2 = v.2 ∧ u.1 ≤ v.1 + budget

variable {ident : κ → ι} {budget : Nat} {s t : State κ}

theorem Invariant.initial : Invariant ident budget ({} : State κ) where
  charged := nofun
  unused := nofun
  span := nofun

/-- A use at the current position is within the budget of every other use of
its key. -/
theorem Invariant.use (hs : Invariant ident budget s) {p : Nat} {k : κ} (hp : s.position = some p)
    (hk : s.active = some k) : Invariant ident budget { s with used := (p, k) :: s.used } := by
  refine ⟨?_, ?_, ?_⟩
  · intro u hu a ha hid
    rcases List.mem_cons.1 hu with rfl | hu
    · cases hk.symm.trans ha
      refine ⟨rfl, p, hp, le_rfl, Nat.le_add_right _ _, ?_⟩
      have hbit : s.sent.toNat ≤ 1 := Bool.toNat_le _
      dsimp only
      omega
    · exact hs.charged u hu a ha hid
  · intro hready b hb
    obtain ⟨hused, hactive⟩ := hs.unused hready b hb
    refine ⟨?_, hactive⟩
    intro u hu
    rcases List.mem_cons.1 hu with rfl | hu
    · exact hactive k hk
    · exact hused u hu
  have hnear (u : Nat × κ) (hu : u ∈ s.used) (hid : ident u.2 = ident k) :
      u.2 = k ∧ u.1 ≤ p ∧ p ≤ u.1 + budget := by
    obtain ⟨hkey, q, hq, hle, hbound, -⟩ := hs.charged u hu k hk hid
    cases hp.symm.trans hq
    exact ⟨hkey, hle, hbound⟩
  intro u hu v hv hid
  rcases List.mem_cons.1 hu with rfl | hu <;> rcases List.mem_cons.1 hv with rfl | hv
  · exact ⟨rfl, Nat.le_add_right _ _⟩
  · obtain ⟨hkey, -, hbound⟩ := hnear v hv hid.symm
    exact ⟨hkey.symm, hbound⟩
  · obtain ⟨hkey, hle, -⟩ := hnear u hu hid
    exact ⟨hkey, Nat.le_add_right_of_le hle⟩
  · exact hs.span u hu v hv hid

theorem Step.invariant (hs : Invariant ident budget s) (h : Step ident budget s t) :
    Invariant ident budget t := by
  cases h with
  | drop => exact ⟨nofun, nofun, hs.span⟩
  | install k hnone hk =>
    refine ⟨?_, ?_, hs.span⟩
    · rintro u hu a ⟨⟩ hid
      exact absurd hid (hk.used u hu)
    intro hready b hb
    refine ⟨(hs.unused hready b hb).1, ?_⟩
    rintro a ⟨⟩ hid
    exact hk.spare b hb hid.symm
  | stage k ready hk =>
    refine ⟨hs.charged, ?_, hs.span⟩
    rintro - b ⟨⟩
    exact ⟨hk.used, hk.active⟩
  | switch hready =>
    refine ⟨?_, nofun, hs.span⟩
    intro u hu b hb hid
    exact absurd hid ((hs.unused hready b hb).1 u hu)
  | withdraw => exact ⟨hs.charged, nofun, hs.span⟩
  | charge hroom =>
    refine ⟨?_, hs.unused, hs.span⟩
    intro u hu a ha hid
    obtain ⟨hkey, p, hp, hle, hbound, hcount⟩ := hs.charged u hu a ha hid
    have hone : true.toNat = 1 := rfl
    exact ⟨hkey, p, hp, hle, hbound, by dsimp only; omega⟩
  | full hfull =>
    refine ⟨?_, hs.unused, hs.span⟩
    intro u hu a ha hid
    obtain ⟨hkey, p, hp, hle, hbound, -⟩ := hs.charged u hu a ha hid
    have hone : true.toNat = 1 := rfl
    exact ⟨hkey, p, hp, hle, hbound, by dsimp only; omega⟩
  | first p hnone =>
    refine ⟨?_, hs.unused, hs.span⟩
    intro u hu a ha hid
    obtain ⟨-, q, hq, -⟩ := hs.charged u hu a ha hid
    cases hnone.symm.trans hq
  | advance q p hq hlt hroom =>
    refine ⟨?_, hs.unused, hs.span⟩
    intro u hu a ha hid
    obtain ⟨hkey, q', hq', hle, -, hcount⟩ := hs.charged u hu a ha hid
    cases hq.symm.trans hq'
    have hbit : s.sent.toNat ≤ 1 := Bool.toNat_le _
    have hzero : false.toNat = 0 := rfl
    exact ⟨hkey, p, rfl, by omega, by omega, by dsimp only; omega⟩
  | use p k hp hk => exact hs.use hp hk

theorem Invariant.steps (hs : Invariant ident budget s)
    (h : Relation.ReflTransGen (Step ident budget) s t) : Invariant ident budget t := by
  induction h with
  | refl => exact hs
  | tail _ hstep ih => exact hstep.invariant ih

end KeySchedule
