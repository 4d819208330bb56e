/-
# `Fallible` — programs that keep their writes when they stop

`EStateM ε σ` is the monad of code that works on a state and may return an
error: what was written before the error stays written.  `Ensures` is its
notion of postcondition, one for each way to end, with a rule for every way
to build a program.  The rules are equivalences, so a program can be
executed symbolically by rewriting with them.
-/
import Mathlib.Logic.Basic

namespace Fallible

universe u

variable {ε σ α β : Type u}

/-- Started in `s`, the program ends with a result and a state in `ok`, or
with an error and a state in `err`. -/
def Ensures (x : EStateM ε σ α) (s : σ) (ok : α → σ → Prop) (err : ε → σ → Prop) : Prop :=
  match x s with
  | .ok a t => ok a t
  | .error e t => err e t

variable {x : EStateM ε σ α} {s : σ} {ok ok' : α → σ → Prop} {err err' : ε → σ → Prop}

theorem Ensures.mono (h : Ensures x s ok err) (hok : ∀ a t, ok a t → ok' a t)
    (herr : ∀ e t, err e t → err' e t) : Ensures x s ok' err' := by
  unfold Ensures at h ⊢
  split
  · next a t hx => rw [hx] at h; exact hok a t h
  · next e t hx => rw [hx] at h; exact herr e t h

/-- Two postconditions at once. -/
theorem Ensures.and (h : Ensures x s ok err) (h' : Ensures x s ok' err') :
    Ensures x s (fun a t => ok a t ∧ ok' a t) (fun e t => err e t ∧ err' e t) := by
  unfold Ensures at h h' ⊢
  cases hx : x s with
  | ok a t =>
    rw [hx] at h h'
    exact ⟨h, h'⟩
  | error e t =>
    rw [hx] at h h'
    exact ⟨h, h'⟩

variable {a : α}

@[simp] theorem ensures_pure : Ensures (pure a) s ok err ↔ ok a s := Iff.rfl

variable {e : ε}

@[simp] theorem ensures_throw : Ensures (throw e : EStateM ε σ α) s ok err ↔ err e s := Iff.rfl

@[simp] theorem ensures_modify {f : σ → σ} {ok : PUnit → σ → Prop} :
    Ensures (modify f : EStateM ε σ PUnit) s ok err ↔ ok ⟨⟩ (f s) := Iff.rfl

variable {f : α → EStateM ε σ β}

/-- An error of the first program skips the second. -/
@[simp] theorem ensures_bind {ok : β → σ → Prop} :
    Ensures (x >>= f) s ok err ↔ Ensures x s (fun a t => Ensures (f a) t ok err) err := by
  show Ensures (EStateM.bind x f) s ok err ↔ _
  unfold Ensures EStateM.bind
  cases x s with
  | ok a t => exact Iff.rfl
  | error e t => exact Iff.rfl

theorem ensures_get_bind {f : σ → EStateM ε σ β} {ok : β → σ → Prop} :
    Ensures (get >>= f) s ok err ↔ Ensures (f s) s ok err := ensures_bind

theorem ensures_modify_bind {g : σ → σ} {f : PUnit → EStateM ε σ β} {ok : β → σ → Prop} :
    Ensures (modify g >>= f) s ok err ↔ Ensures (f ⟨⟩) (g s) ok err := ensures_bind

variable {h : ε → EStateM ε σ α}

/-- A handler runs on what the failed program has left. -/
@[simp] theorem ensures_tryCatch :
    Ensures (tryCatch x h) s ok err ↔ Ensures x s ok (fun e t => Ensures (h e) t ok err) := by
  show Ensures (EStateM.tryCatch x h) s ok err ↔ _
  unfold Ensures EStateM.tryCatch
  cases x s with
  | ok a t => exact Iff.rfl
  | error e t => exact Iff.rfl

@[simp] theorem ensures_discard {ok : PUnit → σ → Prop} :
    Ensures (discard x) s ok err ↔ Ensures x s (fun _ t => ok ⟨⟩ t) err := by
  show Ensures (EStateM.map (Function.const α PUnit.unit) x) s ok err ↔ _
  unfold Ensures EStateM.map
  cases x s with
  | ok a t => exact Iff.rfl
  | error e t => exact Iff.rfl

/-- The two ends of a program. -/
theorem Ensures.cases (h : Ensures x s ok err) :
    (∃ a t, x s = .ok a t ∧ ok a t) ∨ ∃ e t, x s = .error e t ∧ err e t := by
  unfold Ensures at h
  split at h
  · next a t hx => exact .inl ⟨a, t, hx, h⟩
  · next e t hx => exact .inr ⟨e, t, hx, h⟩

/-- A postcondition may speak of the run itself. -/
theorem Ensures.run (h : Ensures x s ok err) :
    Ensures x s (fun a t => x s = .ok a t ∧ ok a t) (fun e t => x s = .error e t ∧ err e t) := by
  unfold Ensures at h ⊢
  cases hx : x s with
  | ok a t => rw [hx] at h; exact ⟨rfl, h⟩
  | error e t => rw [hx] at h; exact ⟨rfl, h⟩

/-! ## What a program leaves alone -/

variable {τ : Type*}

/-- The part of the state seen through `view` is the same however the program
ends. -/
def Keeps (view : σ → τ) (x : EStateM ε σ α) : Prop :=
  ∀ s, Ensures x s (fun _ t => view t = view s) (fun _ t => view t = view s)

variable {view : σ → τ}

theorem Keeps.pure : Keeps view (pure a : EStateM ε σ α) := fun _ => rfl

theorem Keeps.throw : Keeps view (throw e : EStateM ε σ α) := fun _ => rfl

theorem Keeps.get : Keeps view (get : EStateM ε σ σ) := fun _ => rfl

theorem Keeps.modify {f : σ → σ} (h : ∀ s, view (f s) = view s) :
    Keeps view (modify f : EStateM ε σ PUnit) := h

theorem Keeps.bind (hx : Keeps view x) (hf : ∀ a, Keeps view (f a)) : Keeps view (x >>= f) := by
  intro s
  rw [ensures_bind]
  refine (hx s).mono ?_ (fun _ _ h => h)
  intro a t ht
  refine (hf a t).mono ?_ ?_ <;> exact fun _ u hu => hu.trans ht

theorem Keeps.discard (hx : Keeps view x) : Keeps view (discard x) := fun s =>
  ensures_discard.2 (hx s)

theorem Keeps.ite {c : Prop} [Decidable c] {x y : EStateM ε σ α} (hx : Keeps view x)
    (hy : Keeps view y) : Keeps view (if c then x else y) := by
  split
  · exact hx
  · exact hy

/-! ## What a program preserves -/

/-- A program started where `I` holds ends where it holds. -/
def Preserves (I : σ → Prop) (x : EStateM ε σ α) : Prop :=
  ∀ s, I s → Ensures x s (fun _ t => I t) (fun _ t => I t)

variable {I : σ → Prop}

theorem Preserves.pure : Preserves I (pure a : EStateM ε σ α) := fun _ h => h

theorem Preserves.throw : Preserves I (throw e : EStateM ε σ α) := fun _ h => h

theorem Preserves.get : Preserves I (get : EStateM ε σ σ) := fun _ h => h

theorem Preserves.modify {f : σ → σ} (h : ∀ s, I s → I (f s)) :
    Preserves I (modify f : EStateM ε σ PUnit) := h

theorem Preserves.bind (hx : Preserves I x) (hf : ∀ a, Preserves I (f a)) :
    Preserves I (x >>= f) := by
  intro s hs
  rw [ensures_bind]
  exact (hx s hs).mono (fun a t ht => hf a t ht) (fun _ _ h => h)

theorem Preserves.tryCatch (hx : Preserves I x)
    (hh : ∀ e, Preserves I (h e)) : Preserves I (tryCatch x h) := by
  intro s hs
  rw [ensures_tryCatch]
  exact (hx s hs).mono (fun _ _ h => h) (fun e t ht => hh e t ht)

theorem Preserves.discard (hx : Preserves I x) : Preserves I (discard x) := fun s hs =>
  ensures_discard.2 (hx s hs)

theorem Preserves.ite {c : Prop} [Decidable c] {x y : EStateM ε σ α} (hx : Preserves I x)
    (hy : Preserves I y) : Preserves I (if c then x else y) := by
  split
  · exact hx
  · exact hy

/-- A view is kept where each of its values is preserved. -/
theorem Keeps.of_preserves (h : ∀ v, Preserves (fun s => view s = v) x) : Keeps view x := fun s =>
  h (view s) s rfl

end Fallible
