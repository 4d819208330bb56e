/-
# `CountedTrie` — a multiset of keys in a pool of trie nodes

A path-compressed binary trie over keys of `w` bits.  Its nodes live in a
fixed pool and refer to each other by index; a branch names the bit it
splits on, a leaf (marked by the impossible bit `w`) a key and how often it
was added.  Nodes not in use are chained through their first child.

The pool operations walk and write links one at a time.  `Tree` is the shape
they keep: `Stored` reads a tree off the pool, `Ordered` says that every key
sits where its bits lead, and the two together with the free chain make up
`Represents`, under which `add` and `remove` are addition to and removal from
a multiset (`Holds.add`, `Holds.remove`) and `contains` is membership
(`Holds.contains_iff`).
-/
import Mathlib.Algebra.Order.Group.Multiset
import Mathlib.Data.Nat.Bitwise

structure TrieNode where
  /-- The child for a clear bit, and the link of the free chain. -/
  zero : Option Nat := some 0
  one : Option Nat := some 0
  key : Nat := 0
  count : Nat := 0
  bit : Nat

def TrieNode.child (n : TrieNode) (side : Bool) : Option Nat :=
  if side then n.one else n.zero

def TrieNode.setChild (n : TrieNode) (side : Bool) (target : Option Nat) : TrieNode :=
  if side then { n with one := target } else { n with zero := target }

section

variable (n : TrieNode) (side : Bool) (target : Option Nat)

@[simp] theorem TrieNode.child_setChild : (n.setChild side target).child side = target := by
  cases side <;> rfl

@[simp] theorem TrieNode.child_not_setChild :
    (n.setChild side target).child (!side) = n.child (!side) := by
  cases side <;> rfl

@[simp] theorem TrieNode.child_setChild_not :
    (n.setChild (!side) target).child side = n.child side := by
  cases side <;> rfl

@[simp] theorem TrieNode.bit_setChild : (n.setChild side target).bit = n.bit := by
  cases side <;> rfl

end

structure CountedTrie (w : Nat) where
  nodes : Nat → TrieNode
  root : Option Nat
  free : Option Nat

namespace CountedTrie

open Function List

variable {w : Nat}

/-- A pool of `n` nodes, all of them free. -/
def empty (n : Nat) : CountedTrie w where
  nodes i := { zero := if i + 1 < n then some (i + 1) else none, bit := w }
  root := none
  free := some 0

/-- A place that holds a link: a child of a node, or the root. -/
abbrev Link := Option (Nat × Bool)

def setNode (t : CountedTrie w) (i : Nat) (n : TrieNode) : CountedTrie w :=
  { t with nodes := fun j => if j = i then n else t.nodes j }

def follow (t : CountedTrie w) : Link → Option Nat
  | none => t.root
  | some (i, side) => (t.nodes i).child side

def relink (t : CountedTrie w) (link : Link) (target : Option Nat) : CountedTrie w :=
  match link with
  | none => { t with root := target }
  | some (i, side) => t.setNode i ((t.nodes i).setChild side target)

/-- Follow the bits of a key down to a leaf. -/
def descend (t : CountedTrie w) (key : Nat) : Nat → Option Nat → Option Nat
  | 0, at? => at?
  | _ + 1, none => none
  | fuel + 1, some i =>
    if (t.nodes i).bit = w then some i
    else t.descend key fuel ((t.nodes i).child (key.testBit (t.nodes i).bit))

def contains (t : CountedTrie w) (key : Nat) : Bool :=
  match t.descend key (w + 1) t.root with
  | none => false
  | some i => (t.nodes i).key == key

/-- Take a node off the free chain. -/
def allocate (t : CountedTrie w) (i : Nat) (n : TrieNode) : CountedTrie w :=
  { t.setNode i n with free := (t.nodes i).zero }

/-- Put a node back. -/
def release (t : CountedTrie w) (i : Nat) : CountedTrie w :=
  { t.setNode i { t.nodes i with zero := t.free } with free := some i }

/-- The link at which a key that first differs in `bit` branches off. -/
def splitLink (t : CountedTrie w) (key bit : Nat) : Nat → Link → Link
  | 0, link => link
  | fuel + 1, link =>
    match t.follow link with
    | none => link
    | some i =>
      if (t.nodes i).bit ≠ w ∧ bit < (t.nodes i).bit then
        t.splitLink key bit fuel (some (i, key.testBit (t.nodes i).bit))
      else link

/-- Hang a fresh leaf in through a fresh branch on `bit`. -/
def graft (t : CountedTrie w) (key bit leaf : Nat) : CountedTrie w :=
  let link := t.splitLink key bit (w + 1) none
  match t.free with
  | none => t
  | some branch =>
    let side := key.testBit bit
    let entry : TrieNode := { bit }
    let entry := (entry.setChild side (some leaf)).setChild (!side) (t.follow link)
    (t.allocate branch entry).relink link (some branch)

/-- Add a key that is not there, given the leaf its bits lead to. -/
def insert (t : CountedTrie w) (key : Nat) (nearest : Option Nat) : CountedTrie w :=
  match t.free with
  | none => t
  | some leaf =>
    let grown := t.allocate leaf { key, count := 1, bit := w }
    match nearest with
    | none => { grown with root := some leaf }
    | some i => grown.graft key (Nat.log2 (key ^^^ (t.nodes i).key)) leaf

def add (t : CountedTrie w) (key : Nat) : CountedTrie w :=
  match t.descend key (w + 1) t.root with
  | none => t.insert key none
  | some i =>
    if (t.nodes i).key = key then
      t.setNode i { t.nodes i with count := (t.nodes i).count + 1 }
    else t.insert key (some i)

/-- The link to the leaf of a key, and the link to the branch above it. -/
def leafLink (t : CountedTrie w) (key : Nat) : Nat → Link → Link → Link × Link
  | 0, above, link => (above, link)
  | fuel + 1, above, link =>
    match t.follow link with
    | none => (above, link)
    | some i =>
      if (t.nodes i).bit = w then (above, link)
      else t.leafLink key fuel link (some (i, key.testBit (t.nodes i).bit))

def remove (t : CountedTrie w) (key : Nat) : CountedTrie w :=
  match t.leafLink key (w + 1) none none with
  | (above, link) =>
    match t.follow link with
    | none => t
    | some leaf =>
      let t := t.setNode leaf { t.nodes leaf with count := (t.nodes leaf).count - 1 }
      if (t.nodes leaf).count ≠ 0 then t
      else
        match link with
        | none => { t with root := none }.release leaf
        | some (parent, side) =>
          ((t.relink above ((t.nodes parent).child !side)).release parent).release leaf

/-! ## The tree behind the pool -/

/-- A trie as a tree whose nodes know their place in the pool. -/
inductive Tree where
  | leaf (i key count : Nat)
  | branch (i bit : Nat) (kids : Bool → Tree)

namespace Tree

def top : Tree → Nat
  | leaf i _ _ => i
  | branch i _ _ => i

def indices : Tree → List Nat
  | leaf i _ _ => [i]
  | branch i _ kids => i :: ((kids false).indices ++ (kids true).indices)

def keys : Tree → List Nat
  | leaf _ key _ => [key]
  | branch _ _ kids => (kids false).keys ++ (kids true).keys

/-- Every key as often as its leaf counts it. -/
def toMultiset : Tree → Multiset Nat
  | leaf _ key count => Multiset.replicate count key
  | branch _ _ kids => (kids false).toMultiset + (kids true).toMultiset

/-- The leaf that the bits of a key lead to: its place, key and count. -/
def route (key : Nat) : Tree → Nat × Nat × Nat
  | leaf i k c => (i, k, c)
  | branch _ bit kids => (kids (key.testBit bit)).route key

/-- The pool holds this tree. -/
def Stored (w : Nat) (nodes : Nat → TrieNode) : Tree → Prop
  | leaf i key count => (nodes i).bit = w ∧ (nodes i).key = key ∧ (nodes i).count = count
  | branch i bit kids => (nodes i).bit = bit
      ∧ ∀ side, (nodes i).child side = some (kids side).top ∧ (kids side).Stored w nodes

/-- Every key is on the side its bit says, keys under one branch agree above
its bit, and branches below split on smaller bits. -/
def Ordered : Nat → Tree → Prop
  | _, leaf _ _ count => 0 < count
  | bound, branch _ bit kids => bit < bound ∧ (∀ side, ∀ k ∈ (kids side).keys, k.testBit bit = side)
      ∧ (∀ k ∈ (kids false).keys ++ (kids true).keys, ∀ k' ∈ (kids false).keys ++ (kids true).keys,
          ∀ j, bit < j → k.testBit j = k'.testBit j)
      ∧ ∀ side, (kids side).Ordered bit

variable {i bit k : Nat} {kids : Bool → Tree} {f : Nat → Nat} {t : Tree}

theorem mem_keys_branch : k ∈ (branch i bit kids).keys ↔ ∃ side, k ∈ (kids side).keys := by
  simp [keys]

theorem mem_indices_branch {j : Nat} :
    j ∈ (branch i bit kids).indices ↔ j = i ∨ ∃ side, j ∈ (kids side).indices := by
  simp [indices]

theorem mem_keys_side (side : Bool) :
    k ∈ (branch i bit kids).keys ↔ k ∈ (kids side).keys ∨ k ∈ (kids !side).keys := by
  cases side <;> simp [keys, or_comm]

theorem mem_keys_update {side : Bool} : k ∈ (branch i bit (update kids side t)).keys
    ↔ k ∈ t.keys ∨ k ∈ (kids !side).keys := by
  cases side <;> simp [keys, or_comm]

theorem toMultiset_branch (side : Bool) :
    (branch i bit kids).toMultiset = (kids side).toMultiset + (kids !side).toMultiset := by
  cases side
  · rfl
  · exact Multiset.add_comm ..

theorem nodup_branch : (branch i bit kids).indices.Nodup ↔ (∀ side, i ∉ (kids side).indices)
      ∧ (∀ side, (kids side).indices.Nodup)
      ∧ ∀ side, ∀ j ∈ (kids side).indices, j ∉ (kids !side).indices := by
  simp only [indices, nodup_cons, mem_append, not_or, nodup_append, Bool.forall_bool,
    Bool.not_false, Bool.not_true]
  constructor
  · rintro ⟨⟨hl, hr⟩, hnl, hnr, hd⟩
    exact ⟨⟨hl, hr⟩, ⟨hnl, hnr⟩, fun j hj hj' => hd j hj j hj' rfl,
      fun j hj hj' => hd j hj' j hj rfl⟩
  rintro ⟨⟨hl, hr⟩, ⟨hnl, hnr⟩, hd, -⟩
  refine ⟨⟨hl, hr⟩, hnl, hnr, ?_⟩
  rintro j hj k hk rfl
  exact hd j hj hk

variable {nodes nodes' : Nat → TrieNode}

/-- What is stored only looks at its own nodes. -/
theorem Stored.congr (h : t.Stored w nodes) (heq : ∀ i ∈ t.indices, nodes' i = nodes i) :
    t.Stored w nodes' := by
  induction t with
  | leaf i key count =>
    have hi := heq i (by simp [indices])
    simp only [Stored] at h ⊢
    rwa [hi]
  | branch i bit kids ih =>
    have hi := heq i (by simp [indices])
    refine ⟨by rw [hi]; exact h.1, ?_⟩
    intro side
    refine ⟨by rw [hi]; exact (h.2 side).1, ih side (h.2 side).2 ?_⟩
    intro j hj
    exact heq j (mem_indices_branch.2 (.inr ⟨side, hj⟩))

variable {bound : Nat}

theorem Ordered.mono {bound' : Nat} (h : t.Ordered bound) (hle : bound ≤ bound') :
    t.Ordered bound' := by
  cases t with
  | leaf => exact h
  | branch => exact ⟨by have := h.1; omega, h.2⟩

/-- Keys under one root agree from its bound on. -/
theorem Ordered.agree (h : t.Ordered bound) {k' : Nat} (hk : k ∈ t.keys) (hk' : k' ∈ t.keys)
    {j : Nat} (hj : bound ≤ j) : k.testBit j = k'.testBit j := by
  cases t with
  | leaf =>
    simp only [keys, mem_singleton] at hk hk'
    rw [hk, hk']
  | branch i bit kids => exact h.2.2.1 k hk k' hk' j (by have := h.1; omega)

/-! ### Finding a key -/

theorem route_mem_keys (key : Nat) (t : Tree) : (t.route key).2.1 ∈ t.keys := by
  induction t with
  | leaf => simp [route, keys]
  | branch i bit kids ih => exact mem_keys_branch.2 ⟨_, ih _⟩

theorem route_mem_indices (key : Nat) (t : Tree) : (t.route key).1 ∈ t.indices := by
  induction t with
  | leaf => simp [route, indices]
  | branch i bit kids ih => exact mem_indices_branch.2 (.inr ⟨_, ih _⟩)

variable {key : Nat}

/-- A key that is there is found. -/
theorem Ordered.route_eq (h : t.Ordered bound) (hkey : key ∈ t.keys) : (t.route key).2.1 = key := by
  induction t generalizing bound with
  | leaf i k c =>
    simp only [keys, mem_singleton] at hkey
    exact hkey.symm
  | branch i bit kids ih =>
    obtain ⟨side, hside⟩ := mem_keys_branch.1 hkey
    have hbit := h.2.1 side key hside
    simp only [route, hbit]
    exact ih side (h.2.2.2 side) hside

theorem Ordered.route_pos (h : t.Ordered bound) (key : Nat) : 0 < (t.route key).2.2 := by
  induction t generalizing bound with
  | leaf => exact h
  | branch i bit kids ih => exact ih _ (h.2.2.2 _)

theorem Stored.route (h : t.Stored w nodes) (key : Nat) :
    (nodes (t.route key).1).bit = w ∧ (nodes (t.route key).1).key = (t.route key).2.1
      ∧ (nodes (t.route key).1).count = (t.route key).2.2 := by
  induction t with
  | leaf => exact h
  | branch i bit kids ih => exact ih _ (h.2 _).2

/-! ### Counting again -/

/-- Change the count of the leaf a key leads to. -/
def recount (key : Nat) (f : Nat → Nat) : Tree → Tree
  | leaf i k c => leaf i k (f c)
  | branch i bit kids =>
    branch i bit (update kids (key.testBit bit) ((kids (key.testBit bit)).recount key f))

section

variable (key : Nat) (f : Nat → Nat) (t : Tree)

theorem top_recount : (t.recount key f).top = t.top := by
  cases t <;> rfl

theorem keys_recount : (t.recount key f).keys = t.keys := by
  induction t with
  | leaf => rfl
  | branch i bit kids ih =>
    cases h : key.testBit bit <;> simp [recount, keys, h, ih]

theorem indices_recount : (t.recount key f).indices = t.indices := by
  induction t with
  | leaf => rfl
  | branch i bit kids ih =>
    cases h : key.testBit bit <;> simp [recount, indices, h, ih]

end

/-- A key of a branch sits on its side, and agrees with a key of the branch. -/
theorem Ordered.of_mem_kid (h : (branch i bit kids).Ordered bound) {side : Bool}
    (hk : k ∈ (kids side).keys) : k.testBit bit = side
      ∧ ∃ k' ∈ (branch i bit kids).keys, ∀ j, bit < j → k.testBit j = k'.testBit j :=
  ⟨h.2.1 side k hk, k, mem_keys_branch.2 ⟨side, hk⟩, fun _ _ => rfl⟩

/-- One kid is replaced by one whose keys belong there. -/
theorem Ordered.branch_update (h : (branch i bit kids).Ordered bound) {side : Bool}
    (ht : t.Ordered bit) (hkeys : ∀ k ∈ t.keys, k.testBit bit = side
      ∧ ∃ k' ∈ (branch i bit kids).keys, ∀ j, bit < j → k.testBit j = k'.testBit j) :
    (branch i bit (update kids side t)).Ordered bound := by
  have hside (d : Bool) : (update kids side t d).Ordered bit
      ∧ ∀ k ∈ (update kids side t d).keys, k.testBit bit = d
        ∧ ∃ k' ∈ (branch i bit kids).keys, ∀ j, bit < j → k.testBit j = k'.testBit j := by
    by_cases hd : d = side
    · rw [hd, update_self]
      exact ⟨ht, hkeys⟩
    rw [update_of_ne hd]
    exact ⟨h.2.2.2 d, fun _ => h.of_mem_kid⟩
  refine ⟨h.1, fun d k hk => ((hside d).2 k hk).1, ?_, fun d => (hside d).1⟩
  intro k hk k' hk' j hj
  obtain ⟨d, hk⟩ := mem_keys_branch.1 (show k ∈ (branch i bit _).keys from hk)
  obtain ⟨d', hk'⟩ := mem_keys_branch.1 (show k' ∈ (branch i bit _).keys from hk')
  obtain ⟨-, l, hl, heq⟩ := (hside d).2 k hk
  obtain ⟨-, l', hl', heq'⟩ := (hside d').2 k' hk'
  rw [heq j hj, heq' j hj, h.2.2.1 l hl l' hl' j hj]

theorem Ordered.recount (h : t.Ordered bound) (hf : 0 < f (t.route key).2.2) :
    (t.recount key f).Ordered bound := by
  induction t generalizing bound with
  | leaf => exact hf
  | branch i bit kids ih =>
    refine h.branch_update (ih _ (h.2.2.2 _) hf) fun k hk => ?_
    rw [keys_recount] at hk
    exact h.of_mem_kid hk

/-- Writing the count of the leaf in the pool recounts the tree. -/
theorem Stored.recount (h : t.Stored w nodes) (hnd : t.indices.Nodup)
    (hrest : ∀ j ∈ t.indices, j ≠ (t.route key).1 → nodes' j = nodes j)
    (hleaf : nodes' (t.route key).1 = { nodes (t.route key).1 with count := f (t.route key).2.2 }) :
    (t.recount key f).Stored w nodes' := by
  induction t with
  | leaf i k c =>
    simp only [Tree.route] at hleaf
    simp only [Tree.recount, Stored, hleaf]
    exact ⟨h.1, h.2.1, trivial⟩
  | branch i bit kids ih =>
    obtain ⟨hi, hkids, hdisj⟩ := nodup_branch.1 hnd
    have hmem := route_mem_indices key (kids (key.testBit bit))
    have hne : i ≠ ((kids (key.testBit bit)).route key).1 := fun he => hi _ (he ▸ hmem)
    have hnode : nodes' i = nodes i := hrest i (by simp [indices]) hne
    refine ⟨by rw [hnode]; exact h.1, ?_⟩
    intro side
    rw [hnode]
    by_cases hside : side = key.testBit bit
    · rw [hside, update_self, top_recount]
      refine ⟨(h.2 _).1, ih _ (h.2 _).2 (hkids _) ?_ hleaf⟩
      intro j hj hjne
      exact hrest j (mem_indices_branch.2 (.inr ⟨_, hj⟩)) hjne
    rw [update_of_ne hside]
    refine ⟨(h.2 _).1, (h.2 _).2.congr ?_⟩
    intro j hj
    refine hrest j (mem_indices_branch.2 (.inr ⟨_, hj⟩)) ?_
    rintro rfl
    have hother : side = !key.testBit bit := by
      cases side <;> simp_all
    exact hdisj _ _ hmem (hother ▸ hj)

theorem toMultiset_update (side : Bool) (t : Tree) : (branch i bit (update kids side t)).toMultiset
      = t.toMultiset + (kids !side).toMultiset := by
  rw [toMultiset_branch side, update_self, update_of_ne (by cases side <;> simp)]

/-- A recount exchanges the copies of one key. -/
theorem toMultiset_recount (key : Nat) (f : Nat → Nat) (t : Tree) :
    (t.recount key f).toMultiset + Multiset.replicate (t.route key).2.2 (t.route key).2.1
      = t.toMultiset + Multiset.replicate (f (t.route key).2.2) (t.route key).2.1 := by
  induction t with
  | leaf i k c => exact Multiset.add_comm ..
  | branch i bit kids ih =>
    have hk := ih (key.testBit bit)
    simp only [recount, Tree.route]
    rw [toMultiset_update, toMultiset_branch (key.testBit bit), add_right_comm, hk, add_right_comm]

/-! ### Hanging a leaf in -/

/-- The subtree next to which a key that first differs in `bit` belongs. -/
def seat (key bit : Nat) : Tree → Tree
  | leaf i k c => leaf i k c
  | branch i b kids =>
    if bit < b then (kids (key.testBit b)).seat key bit else branch i b kids

/-- A fresh branch over a fresh leaf and a subtree. -/
def join (key bit leafAt branchAt : Nat) (t : Tree) : Tree :=
  branch branchAt bit (fun side => if side = key.testBit bit then leaf leafAt key 1 else t)

def graft (key bit leafAt branchAt : Nat) : Tree → Tree
  | leaf i k c => join key bit leafAt branchAt (leaf i k c)
  | branch i b kids =>
    if bit < b then
      branch i b (update kids (key.testBit b)
        ((kids (key.testBit b)).graft key bit leafAt branchAt))
    else join key bit leafAt branchAt (branch i b kids)

variable {leafAt branchAt : Nat}

theorem mem_keys_join : k ∈ (join key bit leafAt branchAt t).keys ↔ k = key ∨ k ∈ t.keys := by
  unfold join
  cases key.testBit bit <;> simp [keys, or_comm]

theorem mem_keys_graft : k ∈ (t.graft key bit leafAt branchAt).keys ↔ k = key ∨ k ∈ t.keys := by
  induction t with
  | leaf => exact mem_keys_join
  | branch i b kids ih =>
    unfold graft
    split
    · rw [mem_keys_update, ih, or_assoc, ← mem_keys_side]
    · exact mem_keys_join

section

variable (key bit leafAt branchAt : Nat) (t : Tree)

theorem indices_join :
    (join key bit leafAt branchAt t).indices.Perm (branchAt :: leafAt :: t.indices) := by
  unfold join
  rw [perm_iff_count]
  intro j
  cases key.testBit bit <;> simp [indices, count_cons]

theorem indices_graft :
    (t.graft key bit leafAt branchAt).indices.Perm (branchAt :: leafAt :: t.indices) := by
  induction t with
  | leaf => exact indices_join ..
  | branch i b kids ih =>
    unfold graft
    split
    · rw [perm_iff_count]
      intro j
      have hk := (ih (key.testBit b)).count_eq j
      cases h : key.testBit b <;> rw [h] at hk
      all_goals simp [indices, count_cons, count_append] at hk ⊢
      all_goals omega
    · exact indices_join ..

theorem toMultiset_join : (join key bit leafAt branchAt t).toMultiset = key ::ₘ t.toMultiset := by
  unfold join
  rw [toMultiset_branch (key.testBit bit)]
  simp [toMultiset, Multiset.singleton_add]

theorem toMultiset_graft : (t.graft key bit leafAt branchAt).toMultiset = key ::ₘ t.toMultiset := by
  induction t with
  | leaf => exact toMultiset_join ..
  | branch i b kids ih =>
    unfold graft
    split
    · rw [toMultiset_update, ih, toMultiset_branch (key.testBit b), Multiset.cons_add]
    · exact toMultiset_join ..

end

/-- `bit` is where `key` first differs from the key it was led to. -/
structure Splits (key bit k : Nat) : Prop where
  differ : key.testBit bit = !k.testBit bit
  agree : ∀ j, bit < j → key.testBit j = k.testBit j

theorem splits_log2 (h : k ≠ key) : Splits key (Nat.log2 (key ^^^ k)) k := by
  have hxor : key ^^^ k ≠ 0 := by
    intro h0
    exact h (Nat.xor_eq_zero_iff.1 h0).symm
  constructor
  · have hset := Nat.testBit_log2 hxor
    rw [Nat.testBit_xor] at hset
    cases hk : key.testBit _ <;> cases hk' : k.testBit _ <;> simp_all
  intro j hj
  have hlt : key ^^^ k < 2 ^ j := (Nat.log2_lt hxor).1 hj
  have hclear := Nat.testBit_lt_two_pow hlt
  rw [Nat.testBit_xor] at hclear
  cases hk : key.testBit j <;> cases hk' : k.testBit j <;> simp_all

theorem Ordered.join (ht : t.Ordered bit) (hbit : bit < bound) (hk : k ∈ t.keys)
    (hsplit : Splits key bit k) : (Tree.join key bit leafAt branchAt t).Ordered bound := by
  refine ⟨hbit, ?_, ?_, ?_⟩
  · intro side k' hk'
    dsimp only at hk'
    split at hk'
    · next hside =>
      rw [mem_singleton.1 hk', hside]
    next hside =>
    rw [ht.agree hk' hk le_rfl]
    have := hsplit.differ
    cases side <;> cases hb : key.testBit bit <;> simp_all
  · have hall : ∀ k' ∈ (Tree.join key bit leafAt branchAt t).keys, ∀ j, bit < j →
        k'.testBit j = k.testBit j := by
      intro k' hk' j hj
      rcases mem_keys_join.1 hk' with rfl | hk'
      · exact hsplit.agree j hj
      · exact ht.agree hk' hk hj.le
    intro k₁ h₁ k₂ h₂ j hj
    rw [hall k₁ h₁ j hj, hall k₂ h₂ j hj]
  intro side
  dsimp only
  split
  · exact Nat.one_pos
  · exact ht

theorem Ordered.graft (h : t.Ordered bound) (hbit : bit < bound)
    (hsplit : Splits key bit (t.route key).2.1) :
    (t.graft key bit leafAt branchAt).Ordered bound := by
  induction t generalizing bound with
  | leaf i k c => exact Ordered.join (t := leaf i k c) h hbit (by simp [keys, Tree.route]) hsplit
  | branch i b kids ih =>
    have hmem := route_mem_keys key (branch i b kids)
    unfold Tree.graft
    split
    · next hlt =>
      refine h.branch_update (ih _ (h.2.2.2 _) hlt hsplit) fun k hk => ?_
      rcases mem_keys_graft.1 hk with rfl | hk
      · exact ⟨rfl, _, hmem, fun j hj => hsplit.agree j (by omega)⟩
      · exact h.of_mem_kid hk
    next hge =>
    -- On this bit the key goes the way of the key it was led to.
    have hne : b ≠ bit := by
      rintro rfl
      have hside := h.2.1 _ _ (route_mem_keys key (kids (key.testBit b)))
      have hdiffer := hsplit.differ
      simp only [Tree.route] at hdiffer
      rw [hside] at hdiffer
      cases hb : key.testBit b <;> simp [hb] at hdiffer
    exact Ordered.join (t := branch i b kids) ⟨by omega, h.2⟩ hbit hmem hsplit

/-- The pool has the fresh leaf and the fresh branch over it and `t`. -/
structure Prepared (w : Nat) (nodes : Nat → TrieNode) (key bit leafAt branchAt : Nat)
    (t : Tree) : Prop where
  freshLeaf : (Tree.leaf leafAt key 1).Stored w nodes
  branchBit : (nodes branchAt).bit = bit
  ownSide : (nodes branchAt).child (key.testBit bit) = some leafAt
  otherSide : (nodes branchAt).child (!key.testBit bit) = some t.top

theorem Stored.join (h : t.Stored w nodes) (hp : Prepared w nodes key bit leafAt branchAt t) :
    (Tree.join key bit leafAt branchAt t).Stored w nodes := by
  refine ⟨hp.branchBit, ?_⟩
  intro side
  dsimp only
  split
  · next hside =>
    rw [hside]
    exact ⟨hp.ownSide, hp.freshLeaf⟩
  next hside =>
  have hother : side = !key.testBit bit := by cases side <;> simp_all
  rw [hother]
  exact ⟨hp.otherSide, h⟩

/-! ### Taking a leaf out -/

/-- The tree without the leaf a key leads to; its sibling moves up. -/
def prune (key : Nat) : Tree → Option Tree
  | leaf _ _ _ => none
  | branch i bit kids =>
    match (kids (key.testBit bit)).prune key with
    | none => some (kids !key.testBit bit)
    | some t => some (branch i bit (update kids (key.testBit bit) t))

theorem prune_eq_none (h : t.prune key = none) :
    t = leaf (t.route key).1 (t.route key).2.1 (t.route key).2.2 := by
  cases t with
  | leaf => rfl
  | branch i bit kids =>
    unfold prune at h
    split at h <;> cases h

theorem mem_keys_of_prune {t' : Tree} (h : t.prune key = some t') (hk : k ∈ t'.keys) :
    k ∈ t.keys := by
  induction t generalizing t' with
  | leaf => cases h
  | branch i bit kids ih =>
    rw [mem_keys_side (key.testBit bit)]
    unfold prune at h
    split at h
    · cases h
      exact .inr hk
    next s hs =>
    cases h
    exact (mem_keys_update.1 hk).imp_left (ih _ hs)

theorem Ordered.prune {t' : Tree} (h : t.Ordered bound) (hp : t.prune key = some t') :
    t'.Ordered bound := by
  induction t generalizing bound t' with
  | leaf => cases hp
  | branch i bit kids ih =>
    unfold Tree.prune at hp
    split at hp
    · cases hp
      exact (h.2.2.2 _).mono h.1.le
    next s hs =>
    cases hp
    exact h.branch_update (ih _ (h.2.2.2 _) hs) fun k hk => h.of_mem_kid (mem_keys_of_prune hs hk)

/-- What is taken out is the copies of one key. -/
theorem toMultiset_prune (key : Nat) :
    t.toMultiset = Multiset.replicate (t.route key).2.2 (t.route key).2.1
      + ((t.prune key).elim 0 toMultiset) := by
  induction t with
  | leaf => simp [toMultiset, Tree.route, prune]
  | branch i bit kids ih =>
    have hk := ih (key.testBit bit)
    rw [toMultiset_branch (key.testBit bit), hk]
    cases hs : (kids (key.testBit bit)).prune key with
    | none => simp [Tree.route, prune, hs]
    | some s =>
      simp only [Tree.route, prune, hs, Option.elim, toMultiset_update]
      rw [add_assoc]

/-- One kid of a branch is replaced: the branch still stores its tree. -/
theorem Stored.branch_update (h : (branch i bit kids).Stored w nodes) {side : Bool}
    (hbit : (nodes' i).bit = bit) (hown : (nodes' i).child side = some t.top)
    (ht : t.Stored w nodes') (hother : (nodes' i).child (!side) = (nodes i).child (!side))
    (hrest : ∀ j ∈ (kids !side).indices, nodes' j = nodes j) :
    (branch i bit (update kids side t)).Stored w nodes' := by
  refine ⟨hbit, ?_⟩
  intro side'
  by_cases hside : side' = side
  · rw [hside, update_self]
    exact ⟨hown, ht⟩
  have hnot : side' = !side := by cases side' <;> simp_all
  rw [update_of_ne hside, hnot, hother]
  exact ⟨(h.2 _).1, (h.2 _).2.congr hrest⟩

end Tree

open CountedTrie.Tree

variable {t : CountedTrie w} {T : Tree} {bound fuel : Nat}

/-- The walk of the pool ends at the leaf of the tree. -/
theorem descend_eq (hs : T.Stored w t.nodes)
    (ho : T.Ordered bound) (hw : bound ≤ w) (hfuel : bound ≤ fuel) (key : Nat) :
    t.descend key (fuel + 1) (some T.top) = some (T.route key).1 := by
  induction T generalizing bound fuel with
  | leaf i k c =>
    have hbit : (t.nodes i).bit = w := hs.1
    simp only [top, descend, hbit, if_true, Tree.route]
  | branch i bit kids ih =>
    have hlt : bit < bound := ho.1
    have hbit : (t.nodes i).bit = bit := hs.1
    obtain ⟨hchild, hkid⟩ := hs.2 (key.testBit bit)
    obtain ⟨fuel, rfl⟩ : ∃ f, fuel = f + 1 := ⟨fuel - 1, by omega⟩
    rw [descend.eq_def]
    simp only [top, hbit]
    rw [if_neg (by omega), hchild]
    exact ih _ hkid (ho.2.2.2 _) (by omega) (by omega)

variable {link : Link}

/-- Where the walk for a free place stops, and what writing that link does. -/
theorem splitLink_spec (hs : T.Stored w t.nodes) (hnd : T.indices.Nodup) (ho : T.Ordered bound)
    (hw : bound ≤ w) (hfuel : bound ≤ fuel) (key bit : Nat) (hlink : t.follow link = some T.top) :
    t.follow (t.splitLink key bit (fuel + 1) link) = some (T.seat key bit).top
    ∧ ((t.splitLink key bit (fuel + 1) link = link ∧ T.seat key bit = T
          ∧ ∀ leafAt branchAt, T.graft key bit leafAt branchAt = join key bit leafAt branchAt T)
      ∨ ∃ o side, t.splitLink key bit (fuel + 1) link = some (o, side) ∧ o ∈ T.indices
        ∧ ∀ leafAt branchAt nodes', (T.graft key bit leafAt branchAt).top = T.top ∧
          (Prepared w nodes' key bit leafAt branchAt (T.seat key bit) →
            nodes' o = (t.nodes o).setChild side (some branchAt) →
            (∀ j ∈ T.indices, j ≠ o → nodes' j = t.nodes j) →
            (T.graft key bit leafAt branchAt).Stored w nodes')) := by
  induction T generalizing bound fuel link with
  | leaf i k c =>
    have hbit : (t.nodes i).bit = w := hs.1
    have hstop : t.splitLink key bit (fuel + 1) link = link := by
      simp only [top] at hlink
      simp [splitLink, hlink, hbit]
    rw [hstop]
    exact ⟨hlink, .inl ⟨rfl, rfl, fun _ _ => rfl⟩⟩
  | branch i b kids ih =>
    have hlt : b < bound := ho.1
    have hbit : (t.nodes i).bit = b := hs.1
    simp only [top] at hlink
    by_cases hgo : bit < b
    · obtain ⟨fuel, rfl⟩ : ∃ f, fuel = f + 1 := ⟨fuel - 1, by omega⟩
      obtain ⟨hi, hkids, hdisj⟩ := nodup_branch.1 hnd
      have hstep : t.splitLink key bit (fuel + 1 + 1) link
          = t.splitLink key bit (fuel + 1) (some (i, key.testBit b)) := by
        rw [splitLink]
        simp only [hlink, hbit]
        rw [if_pos ⟨by omega, hgo⟩]
      have hseat : (branch i b kids).seat key bit = (kids (key.testBit b)).seat key bit := by
        simp [seat, hgo]
      have hgraft : ∀ leafAt branchAt, (branch i b kids).graft key bit leafAt branchAt
          = branch i b (update kids (key.testBit b)
            ((kids (key.testBit b)).graft key bit leafAt branchAt)) := by
        intro leafAt branchAt
        simp [Tree.graft, hgo]
      have hkid : t.follow (some (i, key.testBit b)) = some (kids (key.testBit b)).top := (hs.2 _).1
      obtain ⟨hfollow, hcase⟩ := ih (key.testBit b) (hs.2 _).2 (hkids _) (ho.2.2.2 _)
        (by omega) (show b ≤ fuel by omega) hkid
      rw [hstep, hseat]
      refine ⟨hfollow, .inr ?_⟩
      rcases hcase with ⟨hstop, hself, hjoin⟩ | ⟨o, side, hstop, hmem, hwrite⟩
      · -- The place is the kid itself: this branch is the one to be written.
        refine ⟨i, key.testBit b, hstop, by simp [indices], ?_⟩
        intro leafAt branchAt nodes'
        refine ⟨by rw [hgraft]; rfl, ?_⟩
        intro hp hwritten hrest
        rw [hself] at hp
        rw [hgraft, hjoin]
        refine hs.branch_update (by rw [hwritten]; simpa using hbit)
          (by rw [hwritten]; simp [Tree.join, top]) (Stored.join ((hs.2 _).2.congr ?_) hp)
          (by rw [hwritten]; simp) ?_
        · intro j hj
          exact hrest j (mem_indices_branch.2 (.inr ⟨_, hj⟩)) (fun h => hi _ (h ▸ hj))
        intro j hj
        exact hrest j (mem_indices_branch.2 (.inr ⟨_, hj⟩)) (fun h => hi _ (h ▸ hj))
      refine ⟨o, side, hstop, mem_indices_branch.2 (.inr ⟨_, hmem⟩), ?_⟩
      intro leafAt branchAt nodes'
      refine ⟨by rw [hgraft]; rfl, ?_⟩
      intro hp hwritten hrest
      obtain ⟨htop, hstore⟩ := hwrite leafAt branchAt nodes'
      have hio : i ≠ o := fun h => hi _ (h ▸ hmem)
      have hnode : nodes' i = t.nodes i := hrest i (by simp [indices]) hio
      rw [hgraft]
      refine hs.branch_update (by rw [hnode]; exact hbit) ?_ (hstore hp hwritten ?_)
        (by rw [hnode]) ?_
      · rw [hnode, htop]
        exact (hs.2 _).1
      · intro j hj hjo
        exact hrest j (mem_indices_branch.2 (.inr ⟨_, hj⟩)) hjo
      intro j hj
      refine hrest j (mem_indices_branch.2 (.inr ⟨_, hj⟩)) ?_
      rintro rfl
      exact hdisj _ _ hmem hj
    have hstop : t.splitLink key bit (fuel + 1) link = link := by
      rw [splitLink]
      simp only [hlink, hbit]
      rw [if_neg (fun h => hgo h.2)]
    rw [hstop]
    have hseat : (branch i b kids).seat key bit = branch i b kids := by simp [seat, hgo]
    rw [hseat]
    exact ⟨hlink, .inl ⟨rfl, rfl, fun _ _ => by simp [Tree.graft, hgo]⟩⟩

/-- A tree that is not a leaf: its leaf hangs off `parent`, and writing the
link above that branch takes both out. -/
structure Cut (t : CountedTrie w) (T T' : Tree) (key : Nat) (link above : Link) (parent : Nat)
    (side : Bool) : Prop where
  pruned : T.prune key = some T'
  indices : T.indices.Perm (parent :: (T.route key).1 :: T'.indices)
  leafChild : (t.nodes parent).child side = some (T.route key).1
  written : (above = link ∧ (t.nodes parent).child (!side) = some T'.top ∧ T'.Stored w t.nodes)
    ∨ ∃ o d, above = some (o, d) ∧ o ∈ T'.indices ∧ T'.top = T.top
      ∧ ∀ nodes', nodes' o = (t.nodes o).setChild d ((t.nodes parent).child !side) →
          (∀ j ∈ T'.indices, j ≠ o → nodes' j = t.nodes j) → T'.Stored w nodes'

theorem leafLink_spec (hs : T.Stored w t.nodes)
    (hnd : T.indices.Nodup) (ho : T.Ordered bound) (hw : bound ≤ w)
    (hfuel : bound ≤ fuel) (key : Nat) (above : Link) (hlink : t.follow link = some T.top) :
    (T.prune key = none ∧ t.leafLink key (fuel + 1) above link = (above, link))
    ∨ ∃ above' parent side T', t.leafLink key (fuel + 1) above link = (above', some (parent, side))
      ∧ Cut t T T' key link above' parent side := by
  induction T generalizing bound fuel above link with
  | leaf i k c =>
    left
    have hbit : (t.nodes i).bit = w := hs.1
    simp only [top] at hlink
    refine ⟨rfl, ?_⟩
    simp [leafLink, hlink, hbit]
  | branch i b kids ih =>
    right
    have hlt : b < bound := ho.1
    have hbit : (t.nodes i).bit = b := hs.1
    simp only [top] at hlink
    obtain ⟨fuel, rfl⟩ : ∃ f, fuel = f + 1 := ⟨fuel - 1, by omega⟩
    obtain ⟨hi, hkids, hdisj⟩ := nodup_branch.1 hnd
    have hstep : t.leafLink key (fuel + 1 + 1) above link
        = t.leafLink key (fuel + 1) link (some (i, key.testBit b)) := by
      rw [leafLink]
      simp only [hlink, hbit]
      rw [if_neg (by omega)]
    have hkid : t.follow (some (i, key.testBit b)) = some (kids (key.testBit b)).top := (hs.2 _).1
    rw [hstep]
    rcases ih (key.testBit b) (hs.2 _).2 (hkids _) (ho.2.2.2 _) (by omega)
      (show b ≤ fuel by omega) link hkid with ⟨hleaf, heq⟩ | ⟨above', parent, side, s, heq, hcut⟩
    · -- The kid is the leaf: its sibling takes the place of this branch.
      refine ⟨link, i, key.testBit b, kids (!key.testBit b), heq, ?_, ?_, ?_, .inl ⟨rfl, ?_⟩⟩
      · simp [prune, hleaf]
      · have hshape := prune_eq_none hleaf
        rw [perm_iff_count]
        intro j
        simp only [Tree.route]
        generalize (kids (key.testBit b)).route key = leaf at hshape ⊢
        cases hb : key.testBit b <;> rw [hb] at hshape <;>
          simp [Tree.indices, hshape, count_cons, count_append]
      · rw [(hs.2 _).1]
        simp only [Tree.route]
        rw [prune_eq_none hleaf]
        rfl
      · exact hs.2 _
    have hsub : ∀ j ∈ s.indices, j ∈ (kids (key.testBit b)).indices := by
      intro j hj
      exact hcut.indices.mem_iff.2 (mem_cons_of_mem _ (mem_cons_of_mem _ hj))
    have hpruned : (branch i b kids).prune key
        = some (branch i b (update kids (key.testBit b) s)) := by
      simp [prune, hcut.pruned]
    have hmem : ∀ {j}, j ∈ s.indices →
        j ∈ (branch i b (update kids (key.testBit b) s)).indices := by
      intro j hj
      exact mem_indices_branch.2 (.inr ⟨key.testBit b, by rwa [update_self]⟩)
    have hmem' : ∀ {j}, j ∈ (kids !key.testBit b).indices →
        j ∈ (branch i b (update kids (key.testBit b) s)).indices := by
      intro j hj
      exact mem_indices_branch.2 (.inr ⟨!key.testBit b,
        by rwa [update_of_ne (by cases key.testBit b <;> simp)]⟩)
    refine ⟨above', parent, side, _, heq, hpruned, ?_, hcut.leafChild, .inr ?_⟩
    · rw [perm_iff_count]
      intro j
      have hk := hcut.indices.count_eq j
      simp only [Tree.route]
      generalize ((kids (key.testBit b)).route key).1 = at' at hk ⊢
      cases hb : key.testBit b <;> rw [hb] at hk <;>
        simp [Tree.indices, count_cons, count_append] at hk ⊢ <;> omega
    rcases hcut.written with ⟨habove, hchild, hstored⟩ | ⟨o, d, habove, ho', htop, hwrite⟩
    · refine ⟨i, key.testBit b, habove, by simp [Tree.indices], rfl, ?_⟩
      intro nodes' hnode hrest
      refine hs.branch_update (by rw [hnode]; simpa using hbit)
        (by rw [hnode]; simpa using hchild) (hstored.congr ?_) (by rw [hnode]; simp) ?_
      · intro j hj
        exact hrest j (hmem hj) (fun h => hi _ (h ▸ hsub j hj))
      intro j hj
      exact hrest j (hmem' hj) (fun h => hi _ (h ▸ hj))
    refine ⟨o, d, habove, hmem ho', rfl, ?_⟩
    intro nodes' hnode hrest
    have hio : i ≠ o := fun h => hi _ (h ▸ hsub o ho')
    have hi' : nodes' i = t.nodes i := hrest i (by simp [Tree.indices]) hio
    refine hs.branch_update (by rw [hi']; exact hbit) (by rw [hi', htop]; exact (hs.2 _).1)
      (hwrite nodes' hnode ?_) (by rw [hi']) ?_
    · intro j hj hjo
      exact hrest j (hmem hj) hjo
    intro j hj
    refine hrest j (hmem' hj) ?_
    rintro rfl
    exact hdisj _ _ (hsub j ho') hj

/-! ## The pool as a multiset -/

/-- The free nodes, in the order they will be taken. -/
def Chain (nodes : Nat → TrieNode) : Option Nat → List Nat → Prop
  | start, [] => start = none
  | start, i :: rest => start = some i ∧ Chain nodes (nodes i).zero rest

variable {free : List Nat}

theorem Chain.congr {nodes nodes' : Nat → TrieNode} {start : Option Nat}
    (h : Chain nodes start free) (heq : ∀ i ∈ free, nodes' i = nodes i) :
    Chain nodes' start free := by
  induction free generalizing start with
  | nil => exact h
  | cons i rest ih =>
    refine ⟨h.1, ?_⟩
    rw [heq i (by simp)]
    exact ih h.2 (fun j hj => heq j (by simp [hj]))

/-- The pool of `n` nodes holds the multiset `m`. -/
structure Represents (n : Nat) (t : CountedTrie w) (m : Multiset Nat) (shape : Option Tree)
    (free : List Nat) : Prop where
  root : t.root = shape.map top
  stored : ∀ T, shape = some T → T.Stored w t.nodes
  ordered : ∀ T, shape = some T → T.Ordered w
  bounded : ∀ T, shape = some T → ∀ k ∈ T.keys, k < 2 ^ w
  chain : Chain t.nodes t.free free
  nodup : (shape.elim [] Tree.indices ++ free).Nodup
  length : (shape.elim [] Tree.indices ++ free).length = n
  content : shape.elim 0 toMultiset = m

/-- Some tree and free chain make the pool hold `m`. -/
def Holds (n : Nat) (t : CountedTrie w) (m : Multiset Nat) : Prop :=
  ∃ shape free, Represents n t m shape free

variable {key : Nat}

theorem Tree.Ordered.mem_toMultiset (h : T.Ordered bound) : key ∈ T.toMultiset ↔ key ∈ T.keys := by
  induction T generalizing bound with
  | leaf i k c =>
    have hc : c ≠ 0 := Nat.ne_of_gt h
    simp [toMultiset, keys, Multiset.mem_replicate, hc]
  | branch i b kids ih =>
    simp only [toMultiset, Multiset.mem_add, ih false (h.2.2.2 false), ih true (h.2.2.2 true), keys,
      mem_append]

/-- A binary tree has one branch fewer than leaves. -/
theorem Tree.Ordered.length_indices (h : T.Ordered bound) :
    T.indices.length + 1 ≤ 2 * Multiset.card T.toMultiset := by
  induction T generalizing bound with
  | leaf i k c =>
    have hc : 0 < c := h
    simp only [Tree.indices, length_singleton, toMultiset, Multiset.card_replicate]
    omega
  | branch i b kids ih =>
    have hl := ih false (h.2.2.2 false)
    have hr := ih true (h.2.2.2 true)
    simp only [Tree.indices, length_cons, length_append, toMultiset, Multiset.card_add]
    omega

variable {n : Nat} {m : Multiset Nat}

theorem Represents.descend (h : Represents n t m (some T) free) (key : Nat) :
    t.descend key (w + 1) t.root = some (T.route key).1
      ∧ (t.nodes (T.route key).1).key = (T.route key).2.1 := by
  have hs := h.stored T rfl
  rw [h.root]
  exact ⟨descend_eq hs (h.ordered T rfl) le_rfl le_rfl key, (hs.route key).2.1⟩

theorem Holds.contains_iff (h : Holds n t m) (key : Nat) : t.contains key = true ↔ key ∈ m := by
  obtain ⟨shape, free, h⟩ := h
  cases shape with
  | none =>
    have hroot : t.root = none := h.root
    rw [← h.content]
    simp [contains, hroot, CountedTrie.descend]
  | some T =>
    obtain ⟨hdescend, hkey⟩ := h.descend key
    have ho := h.ordered T rfl
    have hiff : t.contains key = true ↔ (T.route key).2.1 = key := by
      unfold contains
      rw [hdescend]
      simp [hkey]
    rw [hiff, ← h.content]
    show _ ↔ key ∈ T.toMultiset
    rw [ho.mem_toMultiset]
    constructor
    · intro hr
      rw [← hr]
      exact route_mem_keys key T
    · exact ho.route_eq

theorem chain_empty (n i k : Nat) (h : i + k = n) (hk : 0 < k) :
    Chain (CountedTrie.empty n : CountedTrie w).nodes (some i) (range' i k) := by
  induction k generalizing i with
  | zero => omega
  | succ k ih =>
    refine ⟨rfl, ?_⟩
    show Chain _ (if i + 1 < n then some (i + 1) else none) (range' (i + 1) k)
    cases k with
    | zero =>
      rw [if_neg (by omega)]
      rfl
    | succ k =>
      rw [if_pos (by omega)]
      exact ih (i + 1) (by omega) (by omega)

theorem holds_empty (hn : 0 < n) : Holds n (CountedTrie.empty n : CountedTrie w) 0 := by
  refine ⟨none, range' 0 n, rfl, nofun, nofun, nofun, ?_, ?_, ?_, rfl⟩
  · exact chain_empty n 0 n (by omega) hn
  · exact nodup_range'
  · exact length_range'

@[simp] theorem setNode_nodes_self (t : CountedTrie w) (i : Nat) (n : TrieNode) :
    (t.setNode i n).nodes i = n :=
  if_pos rfl

variable {i j : Nat} {f : Nat → Nat}

theorem setNode_nodes_of_ne (t : CountedTrie w) (n : TrieNode) (h : j ≠ i) :
    (t.setNode i n).nodes j = t.nodes j :=
  if_neg h

theorem Represents.recount (h : Represents n t m (some T) free) (hf : 0 < f (T.route key).2.2) :
    Represents n (t.setNode (T.route key).1 { t.nodes (T.route key).1 with
        count := f (T.route key).2.2 }) (T.recount key f).toMultiset
      (some (T.recount key f)) free := by
  have hnd : (T.indices ++ free).Nodup := h.nodup
  have hmem := route_mem_indices key T
  refine ⟨?_, ?_, ?_, ?_, ?_, ?_, ?_, rfl⟩
  · show t.root = some (T.recount key f).top
    rw [top_recount]
    exact h.root
  · rintro _ ⟨⟩
    refine (h.stored T rfl).recount (nodup_append.1 hnd).1 ?_ (setNode_nodes_self ..)
    intro j _ hj
    exact t.setNode_nodes_of_ne _ hj
  · rintro _ ⟨⟩
    exact (h.ordered T rfl).recount hf
  · rintro _ ⟨⟩ k hk
    rw [keys_recount] at hk
    exact h.bounded T rfl k hk
  · refine h.chain.congr ?_
    intro i hi
    refine t.setNode_nodes_of_ne _ ?_
    rintro rfl
    exact (nodup_append.1 hnd).2.2 _ hmem _ hi rfl
  · show ((T.recount key f).indices ++ free).Nodup
    rw [indices_recount]
    exact hnd
  show ((T.recount key f).indices ++ free).length = n
  rw [indices_recount]
  exact h.length

theorem relink_nodes_of_ne (t : CountedTrie w) (target : Option Nat)
    (h : ∀ side, link ≠ some (j, side)) : (t.relink link target).nodes j = t.nodes j := by
  cases link with
  | none => rfl
  | some place => exact t.setNode_nodes_of_ne _ (fun hj => h place.2 (by rw [hj]))

@[simp] theorem relink_free (t : CountedTrie w) (link : Link) (target : Option Nat) :
    (t.relink link target).free = t.free := by
  cases link <;> rfl

variable {leafAt : Nat}

section

variable {branchAt bit : Nat}

theorem graft_eq (t : CountedTrie w) (key bit leafAt : Nat) (hfree : t.free = some branchAt) :
    t.graft key bit leafAt = (t.allocate branchAt ((({ bit } : TrieNode).setChild (key.testBit bit)
      (some leafAt)).setChild (!key.testBit bit)
        (t.follow (t.splitLink key bit (w + 1) none)))).relink
          (t.splitLink key bit (w + 1) none) (some branchAt) := by
  simp only [CountedTrie.graft, hfree]

theorem free_graft (hfree : t.free = some branchAt) :
    (t.graft key bit leafAt).free = (t.nodes branchAt).zero := by
  rw [graft_eq t key bit leafAt hfree, relink_free]
  rfl

/-- The link that is written belongs to a node of the tree, or is the root. -/
theorem splitLink_ne (hs : T.Stored w t.nodes) (hnd : T.indices.Nodup) (ho : T.Ordered w)
    (hroot : t.root = some T.top) (hj : j ∉ T.indices) (side : Bool) :
    t.splitLink key bit (w + 1) none ≠ some (j, side) := by
  intro he
  have hlink : t.follow none = some T.top := hroot
  obtain ⟨-, hcase⟩ := splitLink_spec hs hnd ho le_rfl le_rfl key bit hlink
  rcases hcase with ⟨hstop, -⟩ | ⟨o, d, hstop, hin, -⟩
  · rw [hstop] at he
    cases he
  rw [hstop] at he
  cases he
  exact hj hin

/-- The nodes of the grafted pool: the fresh branch, and outside the link that
is written those of the pool before. -/
theorem nodes_graft_of_ne (hfree : t.free = some branchAt) (hb : j ≠ branchAt)
    (hj : ∀ side, t.splitLink key bit (w + 1) none ≠ some (j, side)) :
    (t.graft key bit leafAt).nodes j = t.nodes j := by
  rw [graft_eq t key bit leafAt hfree, relink_nodes_of_ne _ _ hj]
  exact t.setNode_nodes_of_ne _ hb

theorem nodes_graft_branch (hfree : t.free = some branchAt)
    (hj : ∀ side, t.splitLink key bit (w + 1) none ≠ some (branchAt, side)) :
    (t.graft key bit leafAt).nodes branchAt = (({ bit } : TrieNode).setChild (key.testBit bit)
      (some leafAt)).setChild (!key.testBit bit)
        (t.follow (t.splitLink key bit (w + 1) none)) := by
  rw [graft_eq t key bit leafAt hfree, relink_nodes_of_ne _ _ hj]
  exact t.setNode_nodes_self ..

/-- A pool that stores a tree and holds a leaf beside it stores the tree with
the leaf hung in. -/
theorem Tree.Stored.grafted (hs : T.Stored w t.nodes) (hnd : T.indices.Nodup) (ho : T.Ordered w)
    (hroot : t.root = some T.top) (hfree : t.free = some branchAt)
    (hleaf : t.nodes leafAt = { key, count := 1, bit := w }) (hleafAt : leafAt ∉ T.indices)
    (hbranchAt : branchAt ∉ T.indices) (hne : leafAt ≠ branchAt) :
    (t.graft key bit leafAt).root = some (T.graft key bit leafAt branchAt).top
      ∧ (T.graft key bit leafAt branchAt).Stored w (t.graft key bit leafAt).nodes := by
  have hplace : ∀ j ∉ T.indices, ∀ side, t.splitLink key bit (w + 1) none ≠ some (j, side) :=
    fun j hj => splitLink_ne hs hnd ho hroot hj
  have hlink : t.follow none = some T.top := hroot
  obtain ⟨hfollow, hcase⟩ := splitLink_spec hs hnd ho le_rfl le_rfl key bit hlink
  have hprepared : Prepared w (t.graft key bit leafAt).nodes key bit leafAt branchAt
      (T.seat key bit) := by
    have hentry : (t.graft key bit leafAt).nodes branchAt = _ :=
      nodes_graft_branch hfree (hplace _ hbranchAt)
    refine ⟨?_, ?_, ?_, ?_⟩
    · simp only [Stored, nodes_graft_of_ne hfree hne (hplace _ hleafAt), hleaf]
      exact ⟨trivial, trivial, trivial⟩
    · rw [hentry]
      simp
    · rw [hentry]
      simp
    rw [hentry, TrieNode.child_setChild]
    exact hfollow
  have hout : ∀ j ∈ T.indices, j ≠ branchAt := by
    rintro j hj rfl
    exact hbranchAt hj
  rcases hcase with ⟨hstop, hself, hjoin⟩ | ⟨o, d, hstop, hin, hwrite⟩
  · rw [hjoin]
    refine ⟨by rw [graft_eq t key bit leafAt hfree, hstop]; rfl,
      Stored.join (hs.congr ?_) (hself ▸ hprepared)⟩
    intro j hj
    refine nodes_graft_of_ne hfree (hout j hj) ?_
    rw [hstop]
    exact fun _ => nofun
  obtain ⟨htop, hstore⟩ := hwrite leafAt branchAt (t.graft key bit leafAt).nodes
  refine ⟨?_, hstore hprepared ?_ ?_⟩
  · rw [htop, graft_eq t key bit leafAt hfree, hstop]
    exact hroot
  · rw [graft_eq t key bit leafAt hfree, hstop]
    refine (setNode_nodes_self ..).trans ?_
    rw [show (t.allocate branchAt _).nodes o = t.nodes o from
      t.setNode_nodes_of_ne _ (hout o hin)]
  intro j hj hjo
  refine nodes_graft_of_ne hfree (hout j hj) ?_
  rw [hstop]
  rintro side ⟨⟩
  exact hjo rfl

end

/-- The bit at which a new key splits off is one of the key's. -/
theorem log2_xor_lt {k : Nat} (hkey : key < 2 ^ w) (hk : k < 2 ^ w) (hne : k ≠ key) :
    Nat.log2 (key ^^^ k) < w := by
  have hxor : key ^^^ k ≠ 0 := by
    intro h0
    exact hne (Nat.xor_eq_zero_iff.1 h0).symm
  exact (Nat.log2_lt hxor).2 (Nat.xor_lt_two_pow hkey hk)

/-- Hanging in a leaf that the free chain provides together with its branch. -/
theorem Represents.graft {branchAt : Nat} {rest : List Nat}
    (h : Represents n t m (some T) (leafAt :: branchAt :: rest)) (hkey : key < 2 ^ w)
    (hnew : (T.route key).2.1 ≠ key) :
    Represents n (t.insert key (some (T.route key).1)) (key ::ₘ m)
      (some (T.graft key (Nat.log2 (key ^^^ (T.route key).2.1)) leafAt branchAt)) rest := by
  have hs := h.stored T rfl
  have ho := h.ordered T rfl
  have hnd : (T.indices ++ leafAt :: branchAt :: rest).Nodup := h.nodup
  obtain ⟨hndT, hndF, hdisj⟩ := nodup_append.1 hnd
  obtain ⟨hleafF, hbranchF⟩ : leafAt ∉ branchAt :: rest ∧ branchAt ∉ rest := by
    simp only [nodup_cons] at hndF
    exact ⟨hndF.1, hndF.2.1⟩
  have hleafT : leafAt ∉ T.indices := fun hj => hdisj _ hj leafAt (by simp) rfl
  have hbranchT : branchAt ∉ T.indices := fun hj => hdisj _ hj branchAt (by simp) rfl
  have hne : leafAt ≠ branchAt := by
    rintro rfl
    exact hleafF (by simp)
  have hsplit := splits_log2 hnew
  have hbit := log2_xor_lt hkey (h.bounded T rfl _ (route_mem_keys key T)) hnew
  have hkeyAt : (t.nodes (T.route key).1).key = (T.route key).2.1 := (hs.route key).2.1
  have hleafFree : t.free = some leafAt := h.chain.1
  generalize hb : Nat.log2 (key ^^^ (T.route key).2.1) = bit at hsplit hbit
  -- the pool once the leaf is taken
  set grown := t.allocate leafAt { key, count := 1, bit := w } with hgrown
  have hinsert : t.insert key (some (T.route key).1) = grown.graft key bit leafAt := by
    simp only [CountedTrie.insert, hleafFree, hkeyAt, hb]
    rfl
  have hnode : ∀ j, j ≠ leafAt → grown.nodes j = t.nodes j :=
    fun j hj => t.setNode_nodes_of_ne _ hj
  have hfree : grown.free = some branchAt := h.chain.2.1
  have hroot : grown.root = some T.top := h.root
  have hstored : T.Stored w grown.nodes := by
    refine hs.congr fun j hj => hnode j ?_
    rintro rfl
    exact hleafT hj
  have htree : (grown.graft key bit leafAt).root = some (T.graft key bit leafAt branchAt).top ∧ _ :=
    hstored.grafted hndT ho hroot hfree (t.setNode_nodes_self ..) hleafT hbranchT hne
  have hall : ((T.graft key bit leafAt branchAt).indices ++ rest).Perm
      (T.indices ++ leafAt :: branchAt :: rest) := by
    rw [perm_iff_count]
    intro j
    have hj := (indices_graft key bit leafAt branchAt T).count_eq j
    simp only [count_append, count_cons] at hj ⊢
    omega
  rw [hinsert]
  refine ⟨htree.1, ?_, ?_, ?_, ?_, hall.nodup_iff.2 hnd, hall.length_eq.trans h.length, ?_⟩
  · rintro _ ⟨⟩
    exact htree.2
  · rintro _ ⟨⟩
    exact ho.graft hbit hsplit
  · rintro _ ⟨⟩ k hk
    rcases mem_keys_graft.1 hk with rfl | hk
    · exact hkey
    · exact h.bounded T rfl k hk
  · rw [free_graft hfree, hnode branchAt hne.symm]
    refine Chain.congr h.chain.2.2 ?_
    intro j hj
    have hjT : j ∉ T.indices := fun hin => hdisj j hin j (by simp [hj]) rfl
    refine (nodes_graft_of_ne hfree ?_ (splitLink_ne hstored hndT ho hroot hjT)).trans
      (hnode j ?_)
    · rintro rfl
      exact hbranchF hj
    · rintro rfl
      exact hleafF (mem_cons_of_mem _ hj)
  show (T.graft key bit leafAt branchAt).toMultiset = key ::ₘ m
  rw [toMultiset_graft, ← h.content]
  rfl

/-- The first key takes the first free node. -/
theorem Represents.plant {rest : List Nat} (h : Represents n t m none (leafAt :: rest))
    (hkey : key < 2 ^ w) :
    Represents n (t.insert key none) (key ::ₘ m) (some (.leaf leafAt key 1)) rest := by
  have hfree : t.free = some leafAt := h.chain.1
  have hnd : (leafAt :: rest).Nodup := h.nodup
  have hinsert : t.insert key none
      = { t.allocate leafAt { key, count := 1, bit := w } with root := some leafAt } := by
    simp only [CountedTrie.insert, hfree]
  have hleaf : (t.insert key none).nodes leafAt = { key, count := 1, bit := w } := by
    rw [hinsert]
    exact t.setNode_nodes_self ..
  refine ⟨by rw [hinsert]; rfl, ?_, ?_, ?_, ?_, h.nodup, h.length, ?_⟩
  · rintro _ ⟨⟩
    simp only [Stored, hleaf]
    exact ⟨trivial, trivial, trivial⟩
  · rintro _ ⟨⟩
    exact Nat.one_pos
  · rintro _ ⟨⟩ k hk
    rw [mem_singleton.1 hk]
    exact hkey
  · rw [hinsert]
    refine h.chain.2.congr ?_
    intro j hj
    refine t.setNode_nodes_of_ne _ ?_
    rintro rfl
    exact (nodup_cons.1 hnd).1 hj
  rw [← h.content]
  rfl

/-- Adding a key, as long as the pool has two nodes for every key. -/
theorem Holds.add (h : Holds n t m) (hkey : key < 2 ^ w) (hroom : 2 * (Multiset.card m + 1) ≤ n) :
    Holds n (t.add key) (key ::ₘ m) := by
  obtain ⟨shape, free, h⟩ := h
  have hlength := h.length
  cases shape with
  | none =>
    have hadd : t.add key = t.insert key none := by
      have hroot : t.root = none := h.root
      simp [CountedTrie.add, hroot, CountedTrie.descend]
    obtain ⟨leafAt, rest, rfl⟩ : ∃ i rest, free = i :: rest := by
      apply exists_cons_of_length_pos
      simp at hlength
      omega
    rw [hadd]
    exact ⟨_, _, h.plant hkey⟩
  | some T =>
    have hcontent : T.toMultiset = m := h.content
    obtain ⟨hdescend, hat⟩ := h.descend key
    by_cases hthere : (T.route key).2.1 = key
    · have hadd : t.add key = t.setNode (T.route key).1 { t.nodes (T.route key).1 with
          count := (T.route key).2.2 + 1 } := by
        simp only [CountedTrie.add, hdescend, hat, hthere, if_true]
        rw [((h.stored T rfl).route key).2.2]
      have hcount : (T.recount key (· + 1)).toMultiset = key ::ₘ m := by
        have hswap := toMultiset_recount key (· + 1) T
        rw [hthere, Multiset.replicate_succ, Multiset.add_cons, ← Multiset.cons_add,
          hcontent] at hswap
        exact add_right_cancel hswap
      rw [hadd, ← hcount]
      exact ⟨_, _, h.recount (f := (· + 1)) (Nat.succ_pos _)⟩
    have hadd : t.add key = t.insert key (some (T.route key).1) := by
      simp only [CountedTrie.add, hdescend, hat, hthere, if_false]
    obtain ⟨leafAt, branchAt, rest, rfl⟩ : ∃ i j rest, free = i :: j :: rest := by
      have htree := (h.ordered T rfl).length_indices
      rw [hcontent] at htree
      rw [length_append] at hlength
      change T.indices.length + _ = n at hlength
      match free with
      | [] => simp at hlength; omega
      | [_] => simp at hlength; omega
      | i :: j :: rest => exact ⟨i, j, rest, rfl⟩
    rw [hadd]
    exact ⟨_, _, h.graft hkey hthere⟩

theorem release_nodes_of_ne (t : CountedTrie w) (h : j ≠ i) : (t.release i).nodes j = t.nodes j :=
  if_neg h

theorem Chain.release (h : Chain t.nodes t.free free)
    (hi : i ∉ free) : Chain (t.release i).nodes (t.release i).free (i :: free) := by
  have hnode : (t.release i).nodes i = { t.nodes i with zero := t.free } := t.setNode_nodes_self ..
  refine ⟨rfl, ?_⟩
  rw [hnode]
  refine h.congr ?_
  intro j hj
  refine t.release_nodes_of_ne ?_
  rintro rfl
  exact hi hj

theorem Represents.uproot
    (h : Represents n t m (some (.leaf leafAt key 1)) free) (node : TrieNode) :
    Represents n (((t.setNode leafAt node).relink none none).release leafAt) 0 none
      (leafAt :: free) := by
  have hnd : (leafAt :: free).Nodup := h.nodup
  have hfresh := (nodup_cons.1 hnd).1
  refine ⟨rfl, nofun, nofun, nofun, ?_, hnd, h.length, rfl⟩
  refine Chain.release (t := (t.setNode leafAt node).relink none none) (h.chain.congr ?_) hfresh
  intro j hj
  refine t.setNode_nodes_of_ne _ ?_
  rintro rfl
  exact hfresh hj

/-- Taking out a leaf and the branch above it. -/
theorem Represents.cut {T' : Tree} (h : Represents n t m (some T) free) {parent : Nat}
    {above : Link} {side : Bool} (hcut : Cut t T T' key none above parent side) (node : TrieNode) :
    Represents n ((((t.setNode (T.route key).1 node).relink above
        ((t.nodes parent).child !side)).release parent).release (T.route key).1)
      T'.toMultiset (some T') ((T.route key).1 :: parent :: free) := by
  set leafAt := (T.route key).1 with hleafAt
  set marked := t.setNode leafAt node with hmarked
  set linked := marked.relink above ((t.nodes parent).child !side) with hlinked
  have hall : (T'.indices ++ leafAt :: parent :: free).Perm (T.indices ++ free) := by
    rw [perm_iff_count]
    intro j
    have hperm : T.indices.Perm (parent :: leafAt :: T'.indices) := hcut.indices
    have hj := hperm.count_eq j
    simp only [count_append, count_cons] at hj ⊢
    omega
  have hnd : (T'.indices ++ leafAt :: parent :: free).Nodup := hall.nodup_iff.2 h.nodup
  obtain ⟨hndT, hndF, hdisj⟩ := nodup_append.1 hnd
  simp only [nodup_cons] at hndF
  have hleafT : ∀ j ∈ T'.indices, j ≠ leafAt := fun j hj => hdisj j hj leafAt (by simp)
  have hparentT : ∀ j ∈ T'.indices, j ≠ parent := fun j hj => hdisj j hj parent (by simp)
  have hplace : ∀ j, j ∉ T'.indices → ∀ d, above ≠ some (j, d) := by
    intro j hj d he
    rcases hcut.written with ⟨habove, -⟩ | ⟨o, d', habove, ho, -⟩
    · rw [habove] at he
      cases he
    rw [habove] at he
    cases he
    exact hj ho
  -- Releasing the two nodes leaves the tree alone.
  have hkept : ∀ j ∈ T'.indices, ((linked.release parent).release leafAt).nodes j
      = linked.nodes j := by
    intro j hj
    rw [release_nodes_of_ne _ (hleafT j hj), release_nodes_of_ne _ (hparentT j hj)]
  have hlinkedRest : ∀ j, j ≠ leafAt → (∀ d, above ≠ some (j, d)) → linked.nodes j = t.nodes j := by
    intro j hj hplace
    rw [hlinked, relink_nodes_of_ne _ _ hplace]
    exact t.setNode_nodes_of_ne _ hj
  have htree : linked.root = some T'.top ∧ T'.Stored w linked.nodes := by
    rcases hcut.written with ⟨habove, hchild, hstored⟩ | ⟨o, d, habove, ho, htop, hwrite⟩
    · refine ⟨by rw [hlinked, habove, hchild]; rfl, hstored.congr ?_⟩
      intro j hj
      refine hlinkedRest j (hleafT j hj) ?_
      rw [habove]
      exact fun _ => nofun
    refine ⟨?_, hwrite linked.nodes ?_ ?_⟩
    · rw [hlinked, habove, htop]
      exact h.root
    · rw [hlinked, habove]
      refine (setNode_nodes_self ..).trans ?_
      rw [hmarked, t.setNode_nodes_of_ne _ (hleafT o ho)]
    intro j hj hjo
    refine hlinkedRest j (hleafT j hj) ?_
    rw [habove]
    rintro d ⟨⟩
    exact hjo rfl
  have hchain : Chain linked.nodes linked.free free := by
    rw [hlinked, relink_free]
    refine h.chain.congr ?_
    intro j hj
    refine hlinkedRest j ?_ (hplace j ?_)
    · rintro rfl
      exact hndF.1 (mem_cons_of_mem _ hj)
    intro hjT
    exact hdisj j hjT j (by simp [hj]) rfl
  refine ⟨htree.1, ?_, ?_, ?_, (hchain.release hndF.2.1).release hndF.1, hnd,
    hall.length_eq.trans h.length, rfl⟩
  · rintro _ ⟨⟩
    exact htree.2.congr hkept
  · rintro _ ⟨⟩
    exact (h.ordered T rfl).prune hcut.pruned
  rintro _ ⟨⟩ k hk
  exact h.bounded T rfl k (mem_keys_of_prune hcut.pruned hk)

theorem Holds.remove (h : Holds n t m) (hkey : key ∈ m) : Holds n (t.remove key) (m.erase key) := by
  obtain ⟨shape, free, h⟩ := h
  cases shape with
  | none =>
    have hcontent : (0 : Multiset Nat) = m := h.content
    rw [← hcontent] at hkey
    exact absurd hkey (Multiset.notMem_zero key)
  | some T =>
    have hcontent : T.toMultiset = m := h.content
    have hs := h.stored T rfl
    have ho := h.ordered T rfl
    have hnd : T.indices.Nodup := (nodup_append.1 h.nodup).1
    have hroute : (T.route key).2.1 = key := by
      rw [← hcontent, ho.mem_toMultiset] at hkey
      exact ho.route_eq hkey
    have hcount := (hs.route key).2.2
    have hroot : t.follow none = some T.top := h.root
    have hlinks := leafLink_spec hs hnd ho le_rfl le_rfl key none hroot
    have hfound : t.follow (t.leafLink key (w + 1) none none).2 = some (T.route key).1 := by
      rcases hlinks with ⟨hleaf, heq⟩ | ⟨above, parent, side, T', heq, hcut⟩
      · rw [heq, prune_eq_none hleaf]
        exact hroot.trans (by rw [prune_eq_none hleaf]; rfl)
      rw [heq]
      exact hcut.leafChild
    have hpos := ho.route_pos key
    by_cases hlast : (T.route key).2.2 = 1
    · have herase : (T.prune key).elim 0 toMultiset = m.erase key := by
        rw [← hcontent, toMultiset_prune key, hlast, hroute]
        simp
      rcases hlinks with ⟨hleaf, heq⟩ | ⟨above, parent, side, T', heq, hcut⟩
      · have hshape := prune_eq_none hleaf
        rw [hroute, hlast] at hshape
        have hremove : t.remove key = ((t.setNode (T.route key).1 { t.nodes (T.route key).1 with
            count := 0 }).relink none none).release (T.route key).1 := by
          rw [heq] at hfound
          simp only [CountedTrie.remove, heq, hfound, setNode_nodes_self, hcount, hlast]
          rfl
        rw [hremove, ← herase, hleaf]
        refine ⟨_, _, Represents.uproot (hshape ▸ h) _⟩
      have hremove : t.remove key = ((((t.setNode (T.route key).1 { t.nodes (T.route key).1 with
          count := 0 }).relink above ((t.nodes parent).child !side)).release parent).release
            (T.route key).1) := by
        have hne : parent ≠ (T.route key).1 := by
          have hnd' := hcut.indices.nodup_iff.1 hnd
          rintro he
          exact (nodup_cons.1 hnd').1 (by simp [he])
        rw [heq] at hfound
        simp only [CountedTrie.remove, heq, hfound, setNode_nodes_self, hcount, hlast,
          t.setNode_nodes_of_ne _ hne]
        rfl
      rw [hremove, ← herase, hcut.pruned]
      exact ⟨_, _, h.cut hcut _⟩
    have hremove : t.remove key = t.setNode (T.route key).1 { t.nodes (T.route key).1 with
        count := (T.route key).2.2 - 1 } := by
      have hmany : (T.route key).2.2 - 1 ≠ 0 := by omega
      simp only [CountedTrie.remove, hfound, setNode_nodes_self, hcount, ne_eq, hmany,
        not_false_eq_true, if_true]
    have herase : (T.recount key (· - 1)).toMultiset = m.erase key := by
      have hswap := toMultiset_recount key (· - 1) T
      obtain ⟨c, hc⟩ : ∃ c, (T.route key).2.2 = c + 1 := ⟨_, (Nat.succ_pred_eq_of_pos hpos).symm⟩
      rw [hroute, hc, Multiset.replicate_succ, Multiset.add_cons, ← Multiset.cons_add,
        hcontent] at hswap
      have hcons := add_right_cancel hswap
      rw [← hcons, Multiset.erase_cons_head]
    rw [hremove, ← herase]
    exact ⟨_, _, h.recount (f := (· - 1)) (by omega)⟩

end CountedTrie
