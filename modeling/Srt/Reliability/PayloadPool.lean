/-
# `PayloadPool` — where the payload bytes of a ring live

Both rings keep their payloads in a pool of fixed-size cells and remember
only an index (`include/robotweax/srt/payload_pool.hpp`).  A released index
is the next one to be handed out; a cell that was never used is taken only
when none is free.

`Leases p live` says that the indices in `live` are handed out: together
with the free ones they are exactly the cells ever used, each once.  Who
holds which index is the rings' business.
-/
import Srt.Packet
import Mathlib.Data.Multiset.Range

namespace Srt

open Multiset

structure PayloadPool where
  capacity : Nat
  /-- What `get` returns: the first `sizes_[i]` bytes of a cell. -/
  cells : Nat → Bytes
  /-- The stack of released indices, its top first. -/
  free : List Nat
  nextUnused : Nat

namespace PayloadPool

def make (capacity : Nat) : PayloadPool :=
  ⟨capacity, fun _ => [], [], 0⟩

def get (p : PayloadPool) (i : Nat) : Bytes :=
  p.cells i

def store (p : PayloadPool) (i : Nat) (bytes : Bytes) : PayloadPool :=
  { p with cells := fun j => if j = i then bytes else p.cells j }

/-- The index handed out and the pool that holds `bytes` under it. -/
def acquire (p : PayloadPool) (bytes : Bytes) : Nat × PayloadPool :=
  match p.free with
  | i :: free => (i, { p with free }.store i bytes)
  | [] => (p.nextUnused, { p with nextUnused := p.nextUnused + 1 }.store p.nextUnused bytes)

def release (p : PayloadPool) (i : Nat) : PayloadPool :=
  { p.store i [] with free := i :: p.free }

/-- The indices in `live` are handed out. -/
structure Leases (p : PayloadPool) (live : Multiset Nat) : Prop where
  all : live + p.free = range p.nextUnused
  bounded : p.nextUnused ≤ p.capacity

theorem leases_make (capacity : Nat) : Leases (make capacity) 0 := ⟨rfl, Nat.zero_le _⟩

variable {p : PayloadPool} {live : Multiset Nat}

theorem Leases.nodup (h : p.Leases live) : live.Nodup := by
  have hall : (live + (p.free : Multiset Nat)).Nodup := h.all ▸ nodup_range _
  exact (nodup_add.1 hall).1

variable {i : Nat}

section

variable (h : p.Leases live)
include h

theorem Leases.free_notMem (hi : i ∈ p.free) : i ∉ live := by
  have hall : (live + (p.free : Multiset Nat)).Nodup := h.all ▸ nodup_range _
  intro hlive
  exact disjoint_left.1 (nodup_add.1 hall).2.2 hlive hi

theorem Leases.lt (hi : i ∈ live) : i < p.nextUnused := by
  have hmem : i ∈ live + (p.free : Multiset Nat) := mem_add.2 (.inl hi)
  rwa [h.all, mem_range] at hmem

theorem Leases.acquire_notMem (bytes : Bytes) : (p.acquire bytes).1 ∉ live := by
  unfold acquire
  split
  · next i free hfree => exact h.free_notMem (by rw [hfree]; simp)
  intro hlive
  exact (h.lt hlive).false

theorem Leases.acquire (bytes : Bytes) (hroom : card live < p.capacity) :
    (p.acquire bytes).2.Leases ((p.acquire bytes).1 ::ₘ live) := by
  have hall := h.all
  unfold PayloadPool.acquire
  split
  · next i free hfree =>
    refine ⟨?_, h.bounded⟩
    rw [hfree] at hall
    simpa [store, ← cons_coe, add_cons] using hall
  next hfree =>
  have hcard : card live = p.nextUnused := by
    have := congrArg card hall
    simpa [hfree] using this
  refine ⟨?_, ?_⟩
  · rw [hfree] at hall
    simp only [store, hfree, range_succ, ← hall, cons_add]
  show p.nextUnused + 1 ≤ p.capacity
  omega

theorem Leases.release (hi : i ∈ live) : (p.release i).Leases (live.erase i) := by
  refine ⟨?_, h.bounded⟩
  show live.erase i + ((i :: p.free : List Nat) : Multiset Nat) = range p.nextUnused
  rw [← h.all, ← cons_coe, add_cons, ← cons_add, cons_erase hi]

end

section

variable (p : PayloadPool)

@[simp] theorem get_acquire (bytes : Bytes) :
    (p.acquire bytes).2.get (p.acquire bytes).1 = bytes := by
  unfold acquire
  split <;> simp [get, store]

/-- Handing out an index leaves the payloads of the others. -/
theorem get_acquire_of_ne (bytes : Bytes) (h : i ≠ (p.acquire bytes).1) :
    (p.acquire bytes).2.get i = p.get i := by
  unfold acquire at h ⊢
  split at h <;> simp_all [get, store]

theorem get_release_of_ne {j : Nat} (h : j ≠ i) : (p.release i).get j = p.get j := if_neg h

@[simp] theorem acquire_capacity (bytes : Bytes) : (p.acquire bytes).2.capacity = p.capacity := by
  unfold acquire
  split <;> rfl

end

end PayloadPool

end Srt
