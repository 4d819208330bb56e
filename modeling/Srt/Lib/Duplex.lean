/-
# `Duplex` — two endpoints over a network that loses, repeats and reorders

Both ends run the same code on their own state.  Everything an end ever
sent stays available to the network, which hands any of it to the other
end, any number of times and in any order; a message never handed over is a
lost one.  What the wire does to one message is the relation `carries`.

`Duplex.invariant` is the induction for such a system: the two kinds of
step, with the acting end replaced and the other end untouched.
-/
import Srt.Lib.System
import Mathlib.Logic.Function.Basic

namespace Lts

/-- One end: its local operations, its reaction to a message, and what the
network may turn a message into. -/
structure Endpoint (α μ ε : Type*) where
  act : α → ε → α × List μ
  receive : α → μ → α × List μ
  carries : μ → μ → Prop

/-- Both ends and all they have sent. -/
structure Duplex (α μ : Type*) where
  peer : Bool → α
  sent : Bool → List μ

inductive DuplexEvent (μ ε : Type*)
  | act (i : Bool) (e : ε)
  | deliver (i : Bool) (sent received : μ)

variable {α μ ε : Type*}

namespace Duplex

/-- End `i` has moved to `r.1` and sent `r.2`. -/
def put (s : Duplex α μ) (i : Bool) (r : α × List μ) : Duplex α μ where
  peer := Function.update s.peer i r.1
  sent := Function.update s.sent i (s.sent i ++ r.2)

variable (s : Duplex α μ) (i : Bool) (r : α × List μ)

@[simp] theorem put_peer_self : (s.put i r).peer i = r.1 := by
  simp [put]

@[simp] theorem put_peer_other : (s.put i r).peer (!i) = s.peer (!i) := by
  simp [put]

@[simp] theorem put_sent_self : (s.put i r).sent i = s.sent i ++ r.2 := by
  simp [put]

@[simp] theorem put_sent_other : (s.put i r).sent (!i) = s.sent (!i) := by
  simp [put]

end Duplex

/-- A statement about both ends, read from end `i`. -/
theorem forall_side {P : Bool → Prop} (i : Bool) (own : P i) (other : P !i) : ∀ j, P j := by
  intro j
  cases i <;> cases j <;> assumption

/-- The system of two ends that start in `start`. -/
def Endpoint.duplex (E : Endpoint α μ ε) (start : Bool → α) :
    System (Duplex α μ) (DuplexEvent μ ε) where
  init s := s = ⟨start, fun _ => []⟩
  step s e t :=
    match e with
    | .act i e => t = s.put i (E.act (s.peer i) e)
    | .deliver i m m' =>
      m ∈ s.sent (!i) ∧ E.carries m m' ∧ t = s.put i (E.receive (s.peer i) m')

/-- An invariant of a two-ended system: it holds at the start, and each end
keeps it by its own operations and by every message the other has sent. -/
theorem Duplex.invariant {E : Endpoint α μ ε} {start : Bool → α}
    {guard : Duplex α μ → DuplexEvent μ ε → Prop} {I : Duplex α μ → Prop}
    (init : I ⟨start, fun _ => []⟩)
    (act : ∀ s i e, I s → guard s (.act i e) → I (s.put i (E.act (s.peer i) e)))
    (deliver : ∀ s i m m', I s → guard s (.deliver i m m') → m ∈ s.sent (!i) →
      E.carries m m' → I (s.put i (E.receive (s.peer i) m')))
    {s : Duplex α μ} (h : Reaches (E.duplex start) guard s) : I s := by
  refine h.invariant (fun s hs => ?_) (fun s e t _ hI hg hstep => ?_)
  · obtain rfl : s = _ := hs
    exact init
  cases e with
  | act i e =>
    obtain rfl : t = _ := hstep
    exact act s i e hI hg
  | deliver i m m' =>
    obtain ⟨hm, hc, rfl⟩ := hstep
    exact deliver s i m m' hI hg hm hc

/-! ## Scripted runs

A concrete run, executed.  A script names the messages it delivers by their
position among those the other end has sent. -/

inductive Script (ε : Type*)
  | act (i : Bool) (e : ε)
  | deliver (i : Bool) (n : Nat)

variable (E : Endpoint α μ ε) (wire : μ → Option μ)

/-- One line of a script, as an event and the state it leads to. -/
def Endpoint.line (s : Duplex α μ) : Script ε → Option (DuplexEvent μ ε × Duplex α μ)
  | .act i e => some (.act i e, s.put i (E.act (s.peer i) e))
  | .deliver i n =>
    match (s.sent !i)[n]? with
    | none => none
    | some m =>
      match wire m with
      | none => none
      | some m' => some (.deliver i m m', s.put i (E.receive (s.peer i) m'))

/-- The state a script ends in, if every line can be run and is allowed. -/
def Endpoint.exec (allowed : Duplex α μ → DuplexEvent μ ε → Bool) :
    Duplex α μ → List (Script ε) → Option (Duplex α μ)
  | s, [] => some s
  | s, x :: xs =>
    match E.line wire s x with
    | none => none
    | some (e, t) => if allowed s e then Endpoint.exec allowed t xs else none

variable {E wire}

section

variable (hwire : ∀ m m', wire m = some m' → E.carries m m') {start : Bool → α} {s t : Duplex α μ}
include hwire

theorem Endpoint.step_of_line {x : Script ε} {e : DuplexEvent μ ε}
    (h : E.line wire s x = some (e, t)) : (E.duplex start).step s e t := by
  cases x with
  | act i e' => cases h; rfl
  | deliver i n =>
    simp only [Endpoint.line] at h
    split at h
    · cases h
    next m hm =>
    split at h
    · cases h
    next m' hm' =>
    cases h
    exact ⟨List.mem_of_getElem? hm, hwire m m' hm', rfl⟩

/-- An executed script is a run. -/
theorem Endpoint.exec_reaches {allowed : Duplex α μ → DuplexEvent μ ε → Bool} {xs : List (Script ε)}
    (hs : Reaches (E.duplex start) (fun s e => allowed s e = true) s)
    (h : E.exec wire allowed s xs = some t) :
    Reaches (E.duplex start) (fun s e => allowed s e = true) t := by
  induction xs generalizing s with
  | nil => cases h; exact hs
  | cons x xs ih =>
    simp only [Endpoint.exec] at h
    split at h
    · cases h
    next e u hl =>
    split at h
    · next ha => exact ih (.next hs ha (step_of_line hwire hl)) h
    · cases h

end

end Lts
