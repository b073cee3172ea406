import Mathlib.Logic.Function.Basic
import Mathlib.Data.List.Basic

/-!
# Reference counts of a shared table

A table keeps one count for each key that is referenced, and no entry for the
rest. It is tallied when every entry is the number of references there are. The
references come from a list of holders, each of which holds a list of keys.
-/

namespace RefCount

open Function

universe u v

variable {K : Type u} {σ : Type v} [DecidableEq K]

/-- The entries of the table are the references there are. -/
def Tallied (count : K → Option Nat) (refs : K → Nat) : Prop :=
  ∀ k, count k = if refs k = 0 then none else some (refs k)

def holders (held : σ → List K) (all : List σ) (k : K) : Nat := all.countP fun s => k ∈ held s

section Tally

variable {count : K → Option Nat} {refs : K → Nat} {k : K}

omit [DecidableEq K] in
theorem Tallied.isSome_iff (tallied : Tallied count refs) (k : K) :
    (count k).isSome ↔ 0 < refs k := by
  rw [tallied k]
  split
  · rename_i none_left
    simp [none_left]
  · rename_i some_left
    simpa using Nat.pos_of_ne_zero some_left

omit [DecidableEq K] in
theorem Tallied.eq_refs (tallied : Tallied count refs) {n : Nat} (entry : count k = some n) :
    n = refs k := by
  rw [tallied k] at entry
  split at entry
  · cases entry
  · exact (Option.some.inj entry).symm

theorem Tallied.acquire (tallied : Tallied count refs) (k : K) :
    Tallied (update count k (some ((count k).getD 0 + 1)))
      (update refs k (refs k + 1)) := by
  intro x
  by_cases here : x = k
  · subst here
    rw [update_self, update_self, if_neg (Nat.succ_ne_zero _), tallied x]
    split
    · rename_i none_left
      rw [none_left, Option.getD_none]
    · rw [Option.getD_some]
  · rw [update_of_ne here, update_of_ne here]
    exact tallied x

theorem Tallied.release (tallied : Tallied count refs) {left : Nat} (one : refs k = left + 1) :
    Tallied (update count k (if left = 0 then none else some left))
      (update refs k (refs k - 1)) := by
  intro x
  by_cases here : x = k
  · subst here
    rw [update_self, update_self, one, Nat.add_sub_cancel]
  · rw [update_of_ne here, update_of_ne here]
    exact tallied x

end Tally

section Holders

variable {held : σ → List K} {all : List σ} {s s' : σ} {i : Nat} {k : K}

variable (held) in
theorem holders_set (found : all[i]? = some s) (s' : σ) (x : K) :
    holders held (all.set i s') x + (if x ∈ held s then 1 else 0) =
      holders held all x + if x ∈ held s' then 1 else 0 := by
  obtain ⟨inside, at_i⟩ := List.getElem?_eq_some_iff.mp found
  have positive : x ∈ held s → 0 < holders held all x := by
    intro member
    refine List.countP_pos_iff.mpr ⟨s, ?_, by simpa using member⟩
    rw [← at_i]
    exact List.getElem_mem inside
  rw [holders, holders, List.countP_set inside, at_i]
  rw [holders] at positive
  by_cases before : x ∈ held s
  · have some_holder := positive before
    simp only [before, decide_true, if_true, decide_eq_true_eq]
    omega
  · simp only [before, decide_false, Bool.false_eq_true, if_false, decide_eq_true_eq]
    omega

theorem holders_gain (found : all[i]? = some s) (missing : k ∉ held s)
    (gained : ∀ x, x ∈ held s' ↔ x = k ∨ x ∈ held s) :
    holders held (all.set i s') = update (holders held all) k (holders held all k + 1) := by
  funext x
  have moved := holders_set held found s' x
  by_cases here : x = k
  · subst here
    rw [if_neg missing, if_pos ((gained x).mpr (.inl rfl))] at moved
    rw [update_self]
    omega
  · rw [if_congr ((gained x).trans (or_iff_right here)) rfl rfl] at moved
    rw [update_of_ne here]
    omega

theorem holders_lose (found : all[i]? = some s) (member : k ∈ held s)
    (lost : ∀ x, x ∈ held s' ↔ x ≠ k ∧ x ∈ held s) :
    0 < holders held all k ∧
    holders held (all.set i s') = update (holders held all) k (holders held all k - 1) := by
  have here := holders_set held found s' k
  rw [if_pos member, if_neg (fun still => ((lost k).mp still).1 rfl)] at here
  refine ⟨by omega, ?_⟩
  funext x
  by_cases same : x = k
  · rw [same, update_self]
    omega
  · have moved := holders_set held found s' x
    rw [if_congr ((lost x).trans (and_iff_right same)) rfl rfl] at moved
    rw [update_of_ne same]
    omega

theorem holders_same (found : all[i]? = some s) (same : ∀ x, x ∈ held s' ↔ x ∈ held s) :
    holders held (all.set i s') = holders held all := by
  funext x
  have moved := holders_set held found s' x
  rw [if_congr (same x) rfl rfl] at moved
  omega

theorem holders_concat (empty : held s = []) : holders held (all ++ [s]) = holders held all := by
  funext x
  simp [holders, List.countP_append, empty]

end Holders

end RefCount
