/-
# `FlagQueue` — a queue whose entries may go stale

A key is in the queue while its flag is set.  Clearing the flag does not look
for the entry, so the queue may hold entries that no longer count; they are
skipped when they come to the front, or left behind by a compaction.  The
queue is right as long as every live key has one entry if its flag is set
and none if it is not (`Tally`): what is left after the stale entries is
every flagged key once (`Tally.nodup_filter`).
-/
import Mathlib.Data.List.Nodup
import Mathlib.Data.List.Perm.Subperm

namespace FlagQueue

variable {K : Type*} [DecidableEq K]

/-- A live key has one entry if its flag is set, and none otherwise. -/
def Tally (live flag : K → Bool) (entries : List K) : Prop :=
  ∀ k, live k = true → entries.count k = if flag k then 1 else 0

variable {live live' flag flag' : K → Bool} {entries rest : List K} {k : K}

section

variable (h : Tally live flag entries)
include h

theorem Tally.perm (hperm : entries.Perm rest) :
    Tally live flag rest := fun k hk => by
  rw [← hperm.count_eq]
  exact h k hk

/-- Keys may die; the flags of the others stay. -/
theorem Tally.mono (hkeep : ∀ k, live' k = true → live k = true ∧ flag' k = flag k) :
    Tally live' flag' entries := fun k hk => by
  rw [(hkeep k hk).2]
  exact h k (hkeep k hk).1

/-- A key that comes alive has no entry of an earlier life. -/
theorem Tally.born
    (hfresh : ∀ k, live' k = true → (live k = true ∧ flag' k = flag k) ∨ (k ∉ entries ∧ flag' k =
      false)) :
    Tally live' flag' entries := fun k hk => by
  rcases hfresh k hk with ⟨hl, hf⟩ | ⟨hnone, hf⟩
  · rw [hf]
    exact h k hl
  rw [hf, List.count_eq_zero_of_not_mem hnone]
  rfl

theorem Tally.flag_of_mem (hk : live k = true) (hmem : k ∈ entries) : flag k = true := by
  have hcount := h k hk
  have hpos := List.count_pos_iff.2 hmem
  cases hflag : flag k with
  | true => rfl
  | false =>
    rw [hflag] at hcount
    exact absurd hcount (Nat.ne_of_gt hpos)

end

theorem Tally.skip (h : Tally live flag (k :: entries)) (hstale : flag k = false) :
    Tally live flag entries := fun j hj => by
  have hne : k ≠ j := by
    rintro rfl
    rw [h.flag_of_mem hj List.mem_cons_self] at hstale
    cases hstale
  rw [← h j hj, List.count_cons_of_ne hne]

theorem Tally.skips {stale : List K} (h : Tally live flag (stale ++ entries))
    (hstale : ∀ j ∈ stale, flag j = false) : Tally live flag entries := by
  induction stale with
  | nil => exact h
  | cons j stale ih =>
    rw [List.cons_append] at h
    exact ih (h.skip (hstale j List.mem_cons_self)) fun i hi =>
      hstale i (List.mem_cons_of_mem j hi)

theorem Tally.take (h : Tally live flag (k :: entries)) (hself : flag' k = false)
    (hother : ∀ j ≠ k, flag' j = flag j) : Tally live flag' entries := fun j hj => by
  have hcount := h j hj
  by_cases heq : j = k
  · subst heq
    rw [h.flag_of_mem hj List.mem_cons_self, List.count_cons_self] at hcount
    rw [hself]
    exact Nat.succ.inj hcount
  rw [List.count_cons_of_ne (Ne.symm heq)] at hcount
  rw [hother j heq, hcount]

theorem Tally.put (h : Tally live flag entries) (hclear : flag k = false) (hself : flag' k = true)
    (hother : ∀ j ≠ k, flag' j = flag j) : Tally live flag' (k :: entries) := fun j hj => by
  have hcount := h j hj
  by_cases heq : j = k
  · subst heq
    rw [hclear] at hcount
    rw [hself, List.count_cons_self, hcount]
    rfl
  · rw [List.count_cons_of_ne (Ne.symm heq), hother j heq, hcount]

/-- A compaction loses no entry that counts. -/
theorem Tally.filter (h : Tally live flag (entries ++ rest)) :
    Tally live flag (entries.filter flag ++ rest) := fun k hk => by
  have hcount := h k hk
  rw [List.count_append] at hcount ⊢
  cases hflag : flag k with
  | true =>
    rw [List.count_filter hflag, hcount, hflag]
  | false =>
    rw [hflag] at hcount
    have hgone : k ∉ entries.filter flag := fun hmem => by
      rw [(List.mem_filter.1 hmem).2] at hflag
      cases hflag
    rw [List.count_eq_zero_of_not_mem hgone, Nat.zero_add]
    exact (Nat.add_eq_zero_iff.1 hcount).2

section

variable (h : Tally live flag (entries ++ rest)) (hlive : ∀ k, flag k = true → live k = true)
include h hlive

/-- The entries that count are different keys. -/
theorem Tally.nodup_filter : (entries.filter flag).Nodup := by
  refine List.nodup_iff_count_le_one.2 fun k => ?_
  by_cases hflag : flag k = true
  · have hcount := h k (hlive k hflag)
    rw [List.count_append, if_pos hflag] at hcount
    rw [List.count_filter hflag]
    omega
  have hgone : k ∉ entries.filter flag := fun hmem => hflag (List.mem_filter.1 hmem).2
  rw [List.count_eq_zero_of_not_mem hgone]
  exact Nat.zero_le 1

/-- With the stale entries gone there is room for one more flagged key. -/
theorem Tally.length_filter_lt {keys : List K} (hkeys : ∀ k, flag k = true → k ∈ keys)
    (hmem : k ∈ keys) (hclear : flag k = false) : (entries.filter flag).length < keys.length := by
  have hout : k ∉ entries.filter flag := fun hin => by
    rw [(List.mem_filter.1 hin).2] at hclear
    cases hclear
  have hnodup : (k :: entries.filter flag).Nodup := List.nodup_cons.2 ⟨hout, h.nodup_filter hlive⟩
  have hsub : k :: entries.filter flag ⊆ keys := by
    intro j hj
    rcases List.mem_cons.1 hj with rfl | hin
    · exact hmem
    · exact hkeys j (List.mem_filter.1 hin).2
  exact (List.subperm_of_subset hnodup hsub).length_le

end

end FlagQueue
