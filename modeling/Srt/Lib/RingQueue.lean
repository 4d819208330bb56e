/-
# `RingQueue` — a bounded queue in a ring

The first `size` slots behind the head are the queue (`toList`).  Compaction
walks the ring once, reading and writing from the head: an entry that stays
is written at or before the slot it was read from, so nothing is lost that
has not been read (`toList_compact`).  Entries taken out of the middle leave
slots nobody reads (`toList_removeAt`, `extract_spec`).
-/
import Srt.Lib.SlotRing

structure RingQueue (α : Type*) where
  ring : SlotRing α
  size : Nat
  size_le : size ≤ ring.capacity

namespace RingQueue

open List

variable {α : Type*}

def make (n : Nat) (h : 0 < n) (a : α) : RingQueue α :=
  ⟨.replicate n h a, 0, Nat.zero_le _⟩

def capacity (q : RingQueue α) : Nat :=
  q.ring.capacity

/-- The entries in order. -/
def toList (q : RingQueue α) : List α :=
  (range q.size).map q.ring.get

def front (q : RingQueue α) : Option α :=
  if q.size = 0 then none else some (q.ring.get 0)

/-- Without the first entry. -/
def tail (q : RingQueue α) : RingQueue α :=
  ⟨q.ring.advance 1, q.size - 1, (Nat.sub_le _ _).trans q.size_le⟩

/-- An entry at the end of a queue that has room. -/
def push (q : RingQueue α) (a : α) : RingQueue α :=
  if h : q.size < q.ring.capacity then ⟨q.ring.set q.size a, q.size + 1, h⟩ else q

/-- The loop of a compaction: the ring and how many entries stay. -/
def compactFrom (keep : α → Bool) : Nat → Nat → Nat → SlotRing α → SlotRing α × Nat
  | 0, _, kept, r => (r, kept)
  | count + 1, index, kept, r =>
    if keep (r.get index) then
      compactFrom keep count (index + 1) (kept + 1) (r.set kept (r.get index))
    else compactFrom keep count (index + 1) kept r

section

variable (keep : α → Bool) (count index kept : Nat) (r : SlotRing α)

theorem compactFrom_capacity : (compactFrom keep count index kept r).1.capacity = r.capacity := by
  induction count generalizing index kept r with
  | zero => rfl
  | succ count ih =>
    unfold compactFrom
    split
    · exact ih ..
    · exact ih ..

theorem compactFrom_le : (compactFrom keep count index kept r).2 ≤ kept + count := by
  induction count generalizing index kept r with
  | zero => exact le_rfl
  | succ count ih =>
    unfold compactFrom
    split
    · exact (ih (index + 1) (kept + 1) _).trans (by omega)
    · exact (ih (index + 1) kept _).trans (by omega)

end

def compact (keep : α → Bool) (q : RingQueue α) : RingQueue α :=
  ⟨(compactFrom keep q.size 0 0 q.ring).1, (compactFrom keep q.size 0 0 q.ring).2, by
    rw [compactFrom_capacity]
    exact (compactFrom_le ..).trans (by rw [Nat.zero_add]; exact q.size_le)⟩

/-- An empty queue may start anywhere. -/
def rewind (q : RingQueue α) : RingQueue α :=
  if q.size = 0 then
    ⟨{ q.ring with head := 0, head_lt := q.ring.capacity_pos }, 0, Nat.zero_le _⟩
  else q

/-! ## The entries -/

variable (q : RingQueue α)

@[simp] theorem length_toList : q.toList.length = q.size := by
  simp [toList]

theorem front_eq : q.front = q.toList.head? := by
  unfold front toList
  split
  · next h => simp [h]
  next h =>
  obtain ⟨n, hn⟩ := Nat.exists_eq_succ_of_ne_zero h
  simp [hn, range_succ_eq_map]

theorem toList_tail : q.tail.toList = q.toList.tail := by
  cases hs : q.size with
  | zero => simp [toList, tail, hs]
  | succ n =>
    simp only [toList, tail, hs, Nat.add_sub_cancel, range_succ_eq_map, map_cons,
      tail_cons, map_map]
    refine map_congr_left ?_
    intro j _
    rw [SlotRing.get_advance, Nat.add_comm]
    rfl

theorem toList_push (a : α) (h : q.size < q.capacity) : (q.push a).toList = q.toList ++ [a] := by
  unfold push toList
  have hroom : q.size < q.ring.capacity := h
  rw [dif_pos hroom]
  simp only [range_succ, map_append, map_cons, map_nil, SlotRing.get_set_self]
  congr 1
  refine map_congr_left ?_
  intro j hj
  have hlt := mem_range.1 hj
  exact q.ring.get_set_ne hroom (by omega) (by omega) a

@[simp] theorem capacity_push (a : α) : (q.push a).capacity = q.capacity := by
  unfold push
  split <;> rfl

@[simp] theorem capacity_tail : q.tail.capacity = q.capacity := rfl

@[simp] theorem capacity_compact (keep : α → Bool) (q : RingQueue α) :
    (q.compact keep).capacity = q.capacity :=
  compactFrom_capacity ..

@[simp] theorem capacity_rewind : q.rewind.capacity = q.capacity := by
  unfold rewind
  split <;> rfl

@[simp] theorem toList_rewind : q.rewind.toList = q.toList := by
  unfold rewind
  split
  · next h => simp [toList, h]
  · rfl

/-- What the loop leaves: the entries kept so far and those of the rest. -/
theorem compactFrom_eq (keep : α → Bool) {count index kept : Nat} {r : SlotRing α}
    (hkept : kept ≤ index) (hin : index + count ≤ r.capacity) :
    (range (compactFrom keep count index kept r).2).map (compactFrom keep count index kept r).1.get
      = (range kept).map r.get ++ ((range' index count).map r.get).filter keep := by
  induction count generalizing index kept r with
  | zero => simp [compactFrom]
  | succ count ih =>
    unfold compactFrom
    rw [range'_succ, map_cons, filter_cons]
    split
    · rw [ih (by omega) (by rw [SlotRing.set_capacity]; omega), range_succ, map_append,
        map_cons, map_nil, SlotRing.get_set_self, append_assoc,
        singleton_append]
      congr 1
      · refine map_congr_left ?_
        intro j hj
        have hlt := mem_range.1 hj
        exact r.get_set_ne (by omega) (by omega) (by omega) _
      congr 2
      refine map_congr_left ?_
      intro j hj
      obtain ⟨hle, hlt⟩ := mem_range'_1.1 hj
      exact r.get_set_ne (by omega) (by omega) (by omega) _
    · exact ih (by omega) (by omega)

/-- Compaction keeps the entries it is to keep, in their order. -/
theorem toList_compact (keep : α → Bool) (q : RingQueue α) :
    (q.compact keep).toList = q.toList.filter keep := by
  have h := compactFrom_eq keep (r := q.ring) (Nat.le_refl 0)
    (show 0 + q.size ≤ q.ring.capacity by rw [Nat.zero_add]; exact q.size_le)
  rw [range_zero, map_nil, nil_append, ← range_eq_range'] at h
  exact h

/-! ## Taking entries out of the middle -/

section Moves

variable (husk : α → α) (r : SlotRing α)

/-- A move between two slots; what it leaves behind is up to `husk`. -/
def move (target source : Nat) : SlotRing α :=
  (r.set target (r.get source)).set source (husk (r.get source))

/-- The `n` entries behind slot `i` come forward by one. -/
def shiftFrom : Nat → Nat → SlotRing α → SlotRing α
  | 0, _, r => r
  | n + 1, i, r => shiftFrom n (i + 1) (move husk r i (i + 1))

variable {husk r} {i j n : Nat}

theorem get_move {target source : Nat} (ht : target < r.capacity) (hs : source < r.capacity)
    (hj : j < r.capacity) (hne : j ≠ source) :
    (move husk r target source).get j = if j = target then r.get source else r.get j := by
  rw [← r.get_set ht hj]
  exact (r.set target (r.get source)).get_set_ne hs hj hne _

theorem capacity_shiftFrom : (shiftFrom husk n i r).capacity = r.capacity := by
  induction n generalizing i r with
  | zero => rfl
  | succ n ih => exact ih

theorem get_shiftFrom (hin : i + n < r.capacity) (hj : j < i + n) :
    (shiftFrom husk n i r).get j = r.get (if j < i then j else j + 1) := by
  induction n generalizing i r with
  | zero => rw [if_pos (by omega)]; rfl
  | succ n ih =>
    have hmove {k : Nat} (hk : k < r.capacity) (hne : k ≠ i + 1) :
        (move husk r i (i + 1)).get k = _ := get_move (by omega) (by omega) hk hne
    rw [shiftFrom, ih (r := move husk r i (i + 1)) (show _ < r.capacity by omega) (by omega)]
    rcases Nat.lt_trichotomy j i with hlt | rfl | hgt
    · rw [if_pos (by omega), if_pos hlt, hmove (by omega) (by omega), if_neg (by omega)]
    · rw [if_pos (by omega), if_neg (by omega), hmove (by omega) (by omega), if_pos rfl]
    · rw [if_neg (by omega), if_neg (by omega), hmove (by omega) (by omega), if_neg (by omega)]

variable (husk)

/-- Without the entry at `i`. -/
def removeAt (i : Nat) : RingQueue α :=
  ⟨shiftFrom husk (q.size - 1 - i) i q.ring, q.size - 1, by
    rw [capacity_shiftFrom]
    exact (Nat.sub_le ..).trans q.size_le⟩

@[simp] theorem capacity_removeAt (i : Nat) : (q.removeAt husk i).capacity = q.capacity :=
  capacity_shiftFrom

theorem toList_removeAt (h : i < q.size) : (q.removeAt husk i).toList = q.toList.eraseIdx i := by
  have hsize := q.size_le
  refine ext_getElem ?_ ?_
  · rw [length_eraseIdx, length_toList, length_toList, if_pos h]
    rfl
  intro j hj _
  replace hj : j < q.size - 1 := by simpa [removeAt] using hj
  simp only [toList, removeAt, getElem_map, getElem_range, getElem_eraseIdx]
  rw [get_shiftFrom (by omega) (by omega)]
  split <;> rfl

/-- What one pass takes out: the first entries in order, and how many more. -/
structure Extraction (α : Type*) where
  output : List α := []
  discarded : Nat := 0
  examined : Nat := 0
  moved : Nat := 0

variable (p : α → Bool) (limit : Nat)

/-- The pass: it reads at `offset` and writes what stays at `retained`. -/
def extractFrom :
    Nat → Nat → Nat → SlotRing α → Extraction α → SlotRing α × Nat × Extraction α
  | 0, _, retained, r, x => (r, retained, x)
  | count + 1, offset, retained, r, x =>
    let x := { x with examined := x.examined + 1 }
    if p (r.get offset) then
      extractFrom count (offset + 1) retained r
        (if x.output.length < limit then { x with output := x.output ++ [r.get offset] }
        else { x with discarded := x.discarded + 1 })
    else if retained ≠ offset then
      extractFrom count (offset + 1) (retained + 1) (move husk r retained offset)
        { x with moved := x.moved + 1 }
    else extractFrom count (offset + 1) (retained + 1) r x

theorem extractFrom_spec {count offset retained : Nat} {x : Extraction α}
    (hle : retained ≤ offset) (hin : offset + count ≤ r.capacity) :
    let y := extractFrom husk p limit count offset retained r x
    let rest := (range' offset count).map r.get
    y.1.capacity = r.capacity ∧ y.2.1 ≤ retained + count
      ∧ (range y.2.1).map y.1.get = (range retained).map r.get ++ rest.filter (!p ·)
      ∧ y.2.2.output = x.output ++ (rest.filter p).take (limit - x.output.length)
      ∧ y.2.2.discarded = x.discarded + ((rest.filter p).length - (limit - x.output.length)) := by
  induction count generalizing offset retained r x with
  | zero => simp [extractFrom]
  | succ count ih =>
    unfold extractFrom
    simp only [range'_succ, map_cons, filter_cons]
    cases hp : p (r.get offset) with
    | true =>
      simp only [if_true, Bool.not_true, Bool.false_eq_true, if_false]
      split
      · next hroom =>
        obtain ⟨m, hm⟩ := Nat.exists_eq_add_of_lt hroom
        obtain ⟨hc, hl, hq, ho, hd⟩ := ih (r := r) (x := { x with
          examined := x.examined + 1, output := x.output ++ [r.get offset] })
          (show retained ≤ offset + 1 by omega) (by omega)
        refine ⟨hc, by omega, hq, ?_, ?_⟩
        · rw [ho, show limit - x.output.length = m + 1 by omega]
          simp [hm]
        simp only [length_append, length_cons, length_nil] at hd ⊢
        omega
      next hfull =>
      obtain ⟨hc, hl, hq, ho, hd⟩ := ih (r := r) (x := { x with
        examined := x.examined + 1, discarded := x.discarded + 1 })
        (show retained ≤ offset + 1 by omega) (by omega)
      have hzero : limit - x.output.length = 0 := by omega
      simp only [hzero] at ho hd ⊢
      refine ⟨hc, by omega, hq, ho, ?_⟩
      rw [hd, length_cons]
      omega
    | false =>
      simp only [Bool.false_eq_true, if_false, Bool.not_false, if_true]
      split
      · next hne =>
        obtain ⟨hc, hl, hq, ho, hd⟩ := ih (r := move husk r retained offset) (x := { x with
          examined := x.examined + 1, moved := x.moved + 1 })
          (show retained + 1 ≤ offset + 1 by omega) (show _ ≤ r.capacity by omega)
        have hkeep {k : Nat} (hk : k < r.capacity) (hne : k ≠ offset) :
            (move husk r retained offset).get k = _ := get_move (by omega) (by omega) hk hne
        have hrest : (range' (offset + 1) count).map (move husk r retained offset).get
            = (range' (offset + 1) count).map r.get := by
          refine map_congr_left ?_
          intro k hk
          have hk := mem_range'_1.1 hk
          rw [hkeep (by omega) (by omega), if_neg (by omega)]
        rw [hrest] at hq ho hd
        refine ⟨hc, by omega, ?_, ho, hd⟩
        rw [hq, range_succ, map_append, append_assoc, map_cons, map_nil,
          hkeep (by omega) hne, if_pos rfl]
        congr 1
        refine map_congr_left ?_
        intro k hk
        have hk := mem_range.1 hk
        rw [hkeep (by omega) (by omega), if_neg (by omega)]
      next heq =>
      obtain rfl : retained = offset := by simpa using heq
      obtain ⟨hc, hl, hq, ho, hd⟩ := ih (x := { x with examined := x.examined + 1 })
        (show retained + 1 ≤ retained + 1 from le_rfl) (show _ ≤ r.capacity by omega)
      refine ⟨hc, by omega, ?_, ho, hd⟩
      rw [hq, range_succ, map_append, append_assoc]
      rfl

/-- The pass over the whole queue. -/
def extract : Extraction α × RingQueue α :=
  let y := extractFrom husk p limit q.size 0 0 q.ring {}
  have hin : 0 + q.size ≤ q.ring.capacity := (Nat.zero_add _).trans_le q.size_le
  (y.2.2, ⟨y.1, y.2.1, by
    obtain ⟨hc, hl, -⟩ := extractFrom_spec husk p limit (x := {}) le_rfl hin
    exact hl.trans (hin.trans_eq hc.symm)⟩)

theorem extract_spec :
    (q.extract husk p limit).1.output = (q.toList.filter p).take limit
      ∧ (q.extract husk p limit).1.discarded = (q.toList.filter p).length - limit
      ∧ (q.extract husk p limit).2.toList = q.toList.filter (!p ·)
      ∧ (q.extract husk p limit).2.capacity = q.capacity := by
  have hin : 0 + q.size ≤ q.ring.capacity := (Nat.zero_add _).trans_le q.size_le
  obtain ⟨hc, -, hq, ho, hd⟩ := extractFrom_spec husk p limit (x := {}) le_rfl hin
  rw [← range_eq_range'] at hq ho hd
  exact ⟨ho, hd.trans (Nat.zero_add _), hq, hc⟩

end Moves

end RingQueue
