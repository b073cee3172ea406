import Mathlib.Data.List.Basic
import Mathlib.Logic.Function.Basic

/-!
# Values spread over buckets

The values that the first `n` buckets of a table hold together. A change of one bucket
changes them by what it changes there.
-/

namespace Buckets

open Function List

universe u

variable {α : Type u} {n k : Nat} {f : Nat → List α} {l l' : List α} {a : α}

def spread (n : Nat) (f : Nat → List α) : List α := (List.range n).flatMap f

theorem mem_spread : a ∈ spread n f ↔ ∃ k, k < n ∧ a ∈ f k := by
  simp [spread]

theorem spread_nil (n : Nat) : spread n (fun _ => ([] : List α)) = [] := by
  simp [spread]

theorem spread_succ (n : Nat) (f : Nat → List α) : spread (n + 1) f = spread n f ++ f n := by
  simp [spread, range_succ]

/-- Buckets from `n` on do not matter. -/
theorem spread_update_of_le (above : n ≤ k) : spread n (update f k l) = spread n f := by
  induction n with
  | zero => rfl
  | succ n ih =>
    have other : n ≠ k := by omega
    rw [spread_succ, spread_succ, ih (by omega), update_of_ne other]

theorem spread_split (f : Nat → List α) (inside : k < n) :
    ∃ others, ∀ l, (spread n (update f k l)).Perm (l ++ others) := by
  induction n with
  | zero => exact absurd inside (Nat.not_lt_zero k)
  | succ n ih =>
    by_cases last : k = n
    · subst last
      refine ⟨spread k f, fun l => ?_⟩
      rw [spread_succ, spread_update_of_le (Nat.le_refl k), update_self]
      exact perm_append_comm
    · obtain ⟨others, split⟩ := ih (by omega)
      refine ⟨others ++ f n, fun l => ?_⟩
      rw [spread_succ, update_of_ne (Ne.symm last), ← append_assoc]
      exact (split l).append_right _

theorem spread_cons (f : Nat → List α) (inside : k < n) (more : l'.Perm (a :: l)) :
    (spread n (update f k l')).Perm (a :: spread n (update f k l)) := by
  obtain ⟨others, split⟩ := spread_split f inside
  have whole : (l' ++ others).Perm (a :: (l ++ others)) := more.append_right others
  exact (split l').trans (whole.trans ((split l).symm.cons a))

end Buckets
