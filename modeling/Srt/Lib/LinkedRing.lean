/-
# `LinkedRing` — intrusive circular lists, and the sequence one holds

Elements carry their own links: a successor, a predecessor and a flag that
says whether they are linked.  The ring itself is only a pointer to the
first element.  `Holds r l` says which sequence a ring stands for, and each
operation is a fact about sequences: `append` is `l ++ [x]`, `remove` is
`l.erase x`, and a bounded walk from the head is `l.take n`.

The circularity is one predicate, `Closed`, whose only interesting lemma is
that it does not see where the circle was cut (`Closed.rotate`).
-/
import Mathlib.Data.List.Chain
import Mathlib.Data.List.Nodup

namespace List

variable {κ : Type*}

/-- Consecutive elements are related, and so are the last and the first. -/
def Closed (R : κ → κ → Prop) (l : List κ) : Prop :=
  l.IsChain R ∧ ∀ x ∈ l.getLast?, ∀ y ∈ l.head?, R x y

theorem Closed.rotate {R : κ → κ → Prop} {s t : List κ} (h : Closed R (s ++ t)) :
    Closed R (t ++ s) := by
  rcases s.eq_nil_or_concat with rfl | ⟨s', z, rfl⟩
  · simpa using h
  rcases t with _ | ⟨b, t'⟩
  · simpa using h
  obtain ⟨hchain, hlast⟩ := h
  obtain ⟨hs, ht, hjoin⟩ := isChain_append.1 hchain
  refine ⟨isChain_append.2 ⟨ht, hs, ?_⟩, ?_⟩
  · intro x hx y hy
    refine hlast x ?_ y ?_
    · rw [getLast?_append, Option.mem_def.1 hx]; rfl
    · rw [head?_append, Option.mem_def.1 hy]; rfl
  intro x hx y hy
  refine hjoin x ?_ y ?_
  · rw [getLast?_append] at hx
    simpa using hx
  · simpa using hy

end List

/-- The links of a ring, by element. -/
structure LinkedRing (κ : Type*) where
  head : Option κ := none
  next : κ → Option κ := fun _ => none
  previous : κ → Option κ := fun _ => none
  linked : κ → Bool := fun _ => false

namespace LinkedRing

variable {κ : Type*} [DecidableEq κ]

/-- Write `v` behind a pointer; a null pointer is never written through. -/
def setAt (f : κ → Option κ) (p : Option κ) (v : Option κ) : κ → Option κ :=
  match p with
  | none => f
  | some k => Function.update f k v

def remove (r : LinkedRing κ) (x : κ) : LinkedRing κ :=
  if r.linked x then
    let rest : LinkedRing κ :=
      if r.next x = some x then { r with head := none }
      else
        { r with
          next := setAt r.next (r.previous x) (r.next x)
          previous := setAt r.previous (r.next x) (r.previous x)
          head := if r.head = some x then r.next x else r.head }
    { rest with
      linked := Function.update rest.linked x false
      next := Function.update rest.next x none
      previous := Function.update rest.previous x none }
  else r

def append (r : LinkedRing κ) (x : κ) : LinkedRing κ :=
  if r.linked x then r
  else
    match r.head with
    | none =>
      { head := some x
        next := Function.update r.next x (some x)
        previous := Function.update r.previous x (some x)
        linked := Function.update r.linked x true }
    | some first =>
      let tail := r.previous first
      { head := some first
        next := setAt (Function.update r.next x (some first)) tail (some x)
        previous := Function.update (Function.update r.previous x tail) first (some x)
        linked := Function.update r.linked x true }

/-- Follow the successors until the head comes round or `n` elements are
out. -/
def walkFrom (r : LinkedRing κ) : Nat → Option κ → List κ
  | 0, _ => []
  | _, none => []
  | n + 1, some x => x :: (if r.next x = r.head then [] else r.walkFrom n (r.next x))

def walk (r : LinkedRing κ) (n : Nat) : List κ := r.walkFrom n r.head

/-- `b` follows `a`: both of the links between them say so. -/
def Follows (r : LinkedRing κ) (a b : κ) : Prop := r.next a = some b ∧ r.previous b = some a

/-- The ring is the circular list `l`. -/
structure Holds (r : LinkedRing κ) (l : List κ) : Prop where
  nodup : l.Nodup
  linked : ∀ x, r.linked x = true ↔ x ∈ l
  head : r.head = l.head?
  closed : l.Closed r.Follows

omit [DecidableEq κ] in
theorem holds_nil : Holds ({} : LinkedRing κ) [] where
  nodup := .nil
  linked := by simp
  head := rfl
  closed := ⟨.nil, by simp⟩

namespace Holds

variable {r : LinkedRing κ} {l : List κ} {x : κ}

omit [DecidableEq κ] in
/-- Links that agree with the old ones on the pairs of a chain keep it. -/
theorem follows_congr {r r' : LinkedRing κ} {l : List κ} (h : l.IsChain r.Follows)
    (agree : ∀ a b, a ∈ l → b ∈ l.tail → r.Follows a b → r'.next a = r.next a ∧
      r'.previous b = r.previous b) : l.IsChain r'.Follows :=
  h.imp_of_mem_tail_imp fun a b ha hb hab =>
    ⟨(agree a b ha hb hab).1.trans hab.1, (agree a b ha hb hab).2.trans hab.2⟩

theorem append_of_mem (h : r.Holds l) (hx : x ∈ l) : r.append x = r := by
  rw [LinkedRing.append, if_pos ((h.linked x).2 hx)]

theorem linked_update_true (h : r.Holds l) (y : κ) :
    Function.update r.linked x true y = true ↔ y ∈ l ++ [x] := by
  by_cases hy : y = x
  · simp [hy]
  · simp [h.linked y, hy]

theorem append (h : r.Holds l) (hx : x ∉ l) : (r.append x).Holds (l ++ [x]) := by
  have hfree : ¬r.linked x = true := fun hin => hx ((h.linked x).1 hin)
  rw [LinkedRing.append, if_neg hfree]
  rcases l with _ | ⟨a, t⟩
  · rw [show r.head = none from h.head]
    refine ⟨by simp, fun y => ?_, rfl, by simp, ?_⟩
    · by_cases hy : y = x
      · simp [hy]
      have := h.linked y
      simp [hy, this]
    · simp [Follows]
  obtain ⟨s, z, hsz⟩ := (a :: t).eq_nil_or_concat.resolve_left (by simp)
  have hclosed := h.closed.2 z (by simp [hsz]) a rfl
  have ha : x ≠ a := fun heq => hx (by simp [heq])
  have hz : x ≠ z := fun heq => hx (by simp [hsz, heq])
  rw [show r.head = some a from h.head]
  simp only [hclosed.2, setAt]
  refine ⟨?_, h.linked_update_true, by simp, ?_, ?_⟩
  · exact List.nodup_append.2 ⟨h.nodup, by simp, by
      rintro b hb c hc rfl; exact hx (List.mem_singleton.1 hc ▸ hb)⟩
  · refine List.isChain_append.2 ⟨follows_congr h.closed.1 ?_, by simp, ?_⟩
    · intro b c hb hc hbc
      have hca : c ≠ a := fun heq => (List.nodup_cons.1 h.nodup).1 (heq ▸ hc)
      have hbz : b ≠ z := fun heq =>
        hca (Option.some.inj (hbc.1.symm.trans (heq ▸ hclosed.1)))
      have hbx : b ≠ x := fun heq => hx (heq ▸ hb)
      have hcx : c ≠ x := fun heq => hx (heq ▸ List.mem_of_mem_tail hc)
      simp [hca, hbz, hbx, hcx]
    · simp [hsz, Follows, ha]
  intro b hb c hc
  obtain rfl : x = b := by rw [List.getLast?_append] at hb; simpa using hb
  obtain rfl : a = c := by simpa using hc
  simp [Follows, hz]

/-- Taking the first element out of the circle joins its neighbours. -/
theorem remove_first {m : List κ} (hnodup : (x :: m).Nodup) (hlinked : r.linked x = true)
    (h : (x :: m).Closed r.Follows) : m.Closed (r.remove x).Follows := by
  rcases m with _ | ⟨b, m'⟩
  · exact ⟨.nil, by simp⟩
  obtain ⟨s, z, hsz⟩ := (b :: m').eq_nil_or_concat.resolve_left (by simp)
  have hx : x ∉ b :: m' := (List.nodup_cons.1 hnodup).1
  have hxb : r.Follows x b := h.1.rel
  have hzx : r.Follows z x := h.2 z (by rw [hsz, List.getLast?_cons]; simp) x rfl
  have hb : b ≠ x := fun heq => hx (by simp [heq])
  have hz : z ≠ x := fun heq => hx (by simp [hsz, heq])
  have halone : ¬r.next x = some x := by rw [hxb.1]; simpa using hb
  rw [LinkedRing.remove, if_pos hlinked]
  rw [if_neg halone]
  simp only [hxb.1, hzx.2, setAt]
  refine ⟨follows_congr h.1.tail ?_, ?_⟩
  · intro c d hc hd hcd
    have hcx : c ≠ x := fun heq => hx (heq ▸ hc)
    have hdx : d ≠ x := fun heq => hx (heq ▸ List.mem_of_mem_tail hd)
    have hcz : c ≠ z := fun heq =>
      hdx (Option.some.inj (hcd.1.symm.trans (heq ▸ hzx.1)))
    have hdb : d ≠ b := fun heq =>
      hcx (Option.some.inj (hcd.2.symm.trans (heq ▸ hxb.2)))
    simp [hcx, hdx, hcz, hdb]
  intro c hc d hd
  obtain rfl : z = c := by simpa [hsz] using hc
  obtain rfl : b = d := by simpa using hd
  simp [Follows, hz, hb]

theorem remove_of_notMem (h : r.Holds l) (hx : x ∉ l) : r.remove x = r := by
  rw [LinkedRing.remove, if_neg (fun hin => hx ((h.linked x).1 hin))]

omit [DecidableEq κ] in
/-- The successor of an element is what the circle has behind it. -/
theorem next_eq {s t : List κ} (h : r.Holds (s ++ x :: t)) : r.next x = (t ++ s ++ [x]).head? := by
  have hturn : (x :: (t ++ s)).Closed r.Follows := h.closed.rotate
  rcases hm : t ++ s with _ | ⟨b, m⟩
  · exact (hturn.2 x (by simp [hm]) x rfl).1
  rw [hm] at hturn
  exact hturn.1.rel.1

/-- The head after a removal is the head of what is left. -/
theorem head_remove {s t : List κ} (h : r.Holds (s ++ x :: t)) :
    (r.remove x).head = (s ++ t).head? := by
  have hlinked : r.linked x = true := (h.linked x).2 (by simp)
  have hx : x ∉ t ++ s :=
    (List.nodup_cons.1 (List.nodup_append_comm.1 h.nodup : (x :: (t ++ s)).Nodup)).1
  have hhead := h.head
  rw [LinkedRing.remove, if_pos hlinked]
  rcases s with _ | ⟨a, s⟩
  · rcases t with _ | ⟨b, t⟩
    · rw [if_pos (show r.next x = some x from h.next_eq)]
      rfl
    have hb : b ≠ x := fun heq => hx (by simp [heq])
    have hnext : r.next x = some b := h.next_eq
    simp [hnext, hb, show r.head = some x from hhead]
  have ha : a ≠ x := fun heq => hx (by simp [heq])
  have halone : ¬r.next x = some x := by
    rw [h.next_eq]
    intro heq
    rcases t with _ | ⟨b, t⟩
    · exact ha (by simpa using heq)
    · exact hx (by simp [show b = x by simpa using heq])
  rw [if_neg halone]
  simp [show r.head = some a from hhead, ha]

theorem linked_remove (hlinked : r.linked x = true) :
    (r.remove x).linked = Function.update r.linked x false := by
  rw [LinkedRing.remove, if_pos hlinked]
  split <;> rfl

theorem remove (h : r.Holds l) : (r.remove x).Holds (l.erase x) := by
  by_cases hx : x ∈ l
  · obtain ⟨s, t, rfl⟩ := List.append_of_mem hx
    have hlinked : r.linked x = true := (h.linked x).2 hx
    have hturn : (x :: (t ++ s)).Closed r.Follows := h.closed.rotate
    have hnodup : (x :: (t ++ s)).Nodup := by
      rw [← List.cons_append]
      exact List.nodup_append_comm.1 h.nodup
    have hxs : x ∉ s := fun hin => (List.nodup_cons.1 hnodup).1 (by simp [hin])
    have hxt : x ∉ t := fun hin => (List.nodup_cons.1 hnodup).1 (by simp [hin])
    have herase : (s ++ x :: t).erase x = s ++ t := by
      rw [List.erase_append_right _ hxs, List.erase_cons_head]
    rw [herase]
    refine ⟨?_, ?_, head_remove h, (remove_first hnodup hlinked hturn).rotate⟩
    · exact List.nodup_append_comm.1 (List.nodup_cons.1 hnodup).2
    intro y
    rw [linked_remove hlinked]
    by_cases hy : y = x
    · simp [hy, hxs, hxt]
    · simp [hy, h.linked y]
  rw [h.remove_of_notMem hx, List.erase_of_not_mem hx]
  exact h

theorem walkFrom_eq (h : r.Holds l) :
    ∀ {t s : List κ} {n : Nat}, l = s ++ t → t ≠ [] → r.walkFrom n t.head? = t.take n
  | [], _, _, _, hne => absurd rfl hne
  | x :: t, s, 0, _, _ => by simp [walkFrom]
  | [x], s, n + 1, hl, _ => by
      have hclose : r.next x = r.head := by
        rw [(hl ▸ h : r.Holds (s ++ [x])).next_eq, h.head, hl, List.nil_append]
      simp [walkFrom, hclose]
  | x :: y :: t, s, n + 1, hl, _ => by
      have hnext : r.next x = some y := (hl ▸ h : r.Holds (s ++ x :: y :: t)).next_eq
      have hhead : ¬r.next x = r.head := by
        have hy : y ∉ s ++ [x] := by
          have hnodup : (s ++ [x] ++ y :: t).Nodup := by simpa [hl] using h.nodup
          exact fun hin => (List.nodup_append.1 hnodup).2.2 y hin y (by simp) rfl
        rw [hnext, h.head, hl, List.append_cons, List.head?_append_of_ne_nil _ (by simp)]
        exact fun heq => hy (List.mem_of_head? heq.symm)
      have := h.walkFrom_eq (t := y :: t) (s := s ++ [x]) (n := n) (by simp [hl]) (by simp)
      simp only [List.head?_cons] at this
      rw [List.head?_cons, walkFrom, if_neg hhead, hnext, this, List.take_succ_cons]

/-- A walk of at most `n` steps reads the first `n` elements. -/
theorem walk (h : r.Holds l) (n : Nat) : r.walk n = l.take n := by
  rw [LinkedRing.walk, h.head]
  rcases l with _ | ⟨a, t⟩
  · cases n <;> simp [walkFrom]
  · exact h.walkFrom_eq (s := []) rfl (by simp)

end Holds
end LinkedRing
