/-
# `Feistel` — networks of swapped halves

A round swaps the halves and mixes the one that was left with a value of the
one that was right.  Whatever the round function is, a round can be undone, so
a network never takes two blocks to one (`network_injective`); and the halves
keep their width as long as the round function's values have it (`network_lt`).
-/
import Mathlib.Data.Nat.Bitwise

namespace Feistel

/-- `n` rounds, the first of which has number `i`. -/
def network (f : Nat → Nat → Nat) : Nat → Nat → Nat × Nat → Nat × Nat
  | 0, _, halves => halves
  | n + 1, i, (left, right) => network f n (i + 1) (right, left ^^^ f i right)

theorem network_injective (f : Nat → Nat → Nat) : ∀ n i, Function.Injective (network f n i)
  | 0, _ => fun _ _ h => h
  | n + 1, i => by
    rintro ⟨left, right⟩ ⟨left', right'⟩ h
    have hround := network_injective f n (i + 1) h
    obtain ⟨rfl, hmixed⟩ := Prod.mk.inj hround
    rw [Nat.xor_left_inj.1 hmixed]

theorem network_lt {f : Nat → Nat → Nat} {w : Nat} (hf : ∀ i v, f i v < 2 ^ w) :
    ∀ (n i : Nat) (halves : Nat × Nat), halves.1 < 2 ^ w → halves.2 < 2 ^ w →
      (network f n i halves).1 < 2 ^ w ∧ (network f n i halves).2 < 2 ^ w
  | 0, _, _, hleft, hright => ⟨hleft, hright⟩
  | n + 1, i, (_, right), hleft, hright =>
    network_lt hf n (i + 1) (right, _) hright (Nat.xor_lt_two_pow hleft (hf _ _))

end Feistel
