/-
# `System` — labelled transition systems and the invariants of their runs

A component is a set of initial states and a labelled step relation.  What
a driver or a network is allowed to do is kept apart from what the
component does: a run is taken under a guard on (state, label) pairs, and
`Reaches guard` collects the states some run reaches whose every step met
the guard.  The unguarded case is `Reachable`.

The one induction of this file is `Reaches.invariant`; every safety result
of the development goes through it.
-/
import Mathlib.Logic.Basic

namespace Lts

/-- A labelled transition system. -/
structure System (σ ε : Type*) where
  /-- Where a run may start. -/
  init : σ → Prop
  /-- `step s e t`: event `e` takes `s` to `t`. -/
  step : σ → ε → σ → Prop

variable {σ ε : Type*}

/-- The states reached by runs whose every step meets `guard`. -/
inductive Reaches (M : System σ ε) (guard : σ → ε → Prop) : σ → Prop
  | start {s : σ} : M.init s → Reaches M guard s
  | next {s t : σ} {e : ε} :
      Reaches M guard s → guard s e → M.step s e t → Reaches M guard t

/-- The states reached by any run at all. -/
def Reachable (M : System σ ε) : σ → Prop :=
  Reaches M (fun _ _ => True)

/-- The deterministic system of a transition function. -/
def System.ofFun (init : σ → Prop) (f : σ → ε → σ) : System σ ε where
  init := init
  step s e t := t = f s e

/-- An invariant holds initially and is kept by every step the guard
admits.  The step may use that its source is reached, so invariants
proved earlier are at hand. -/
theorem Reaches.invariant {M : System σ ε} {guard : σ → ε → Prop}
    {I : σ → Prop} (start : ∀ s, M.init s → I s)
    (next : ∀ s e t, Reaches M guard s → I s → guard s e → M.step s e t → I t)
    {s : σ} (h : Reaches M guard s) : I s := by
  induction h with
  | start h0 => exact start _ h0
  | next hr hg hs ih => exact next _ _ _ hr ih hg hs

/-- Every step of a script meets the guard. -/
def Admits (guard : σ → ε → Prop) (f : σ → ε → σ) : σ → List ε → Prop
  | _, [] => True
  | s, e :: es => guard s e ∧ Admits guard f (f s e) es

instance Admits.decidable {guard : σ → ε → Prop} {f : σ → ε → σ}
    [∀ s e, Decidable (guard s e)] : ∀ s es, Decidable (Admits guard f s es)
  | _, [] => inferInstanceAs (Decidable True)
  | s, e :: es =>
    have : Decidable (Admits guard f (f s e) es) := Admits.decidable (f s e) es
    inferInstanceAs (Decidable (guard s e ∧ Admits guard f (f s e) es))

/-- An executed script is a run. -/
theorem Reaches.foldl {init : σ → Prop} {guard : σ → ε → Prop} {f : σ → ε → σ} {s : σ}
    (h : Reaches (.ofFun init f) guard s) :
    ∀ {es : List ε}, Admits guard f s es → Reaches (.ofFun init f) guard (es.foldl f s)
  | [], _ => h
  | _ :: _, hes => Reaches.foldl (.next h hes.1 rfl) hes.2

/-- Fewer runs reach fewer states. -/
theorem Reaches.mono {M : System σ ε} {g g' : σ → ε → Prop} (hg : ∀ s e, g s e → g' s e) {s : σ}
    (h : Reaches M g s) : Reaches M g' s := by
  induction h with
  | start h0 => exact .start h0
  | next _ hge hs ih => exact .next ih (hg _ _ hge) hs

end Lts
