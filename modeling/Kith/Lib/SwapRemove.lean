import Mathlib.Data.List.Perm.Basic

/-!
# Removal by swapping in the last element

An unordered array gives up a position by moving its last element there and
shrinking by one. The elements that stay are those of the array without the one
removed, and at most one of them changes its position.
-/

universe u

namespace SwapRemove

open List

variable {α : Type u} {xs : List α} {i : Nat} {x : α}

section

variable (xs : List α)

def swapRemove (i : Nat) : List α :=
  match xs.getLast? with
  | none => xs
  | some last => (xs.set i last).dropLast

theorem swapRemove_concat (x : α) (i : Nat) :
    swapRemove (xs ++ [x]) i = if i < xs.length then xs.set i x else xs := by
  rw [swapRemove, getLast?_concat]
  dsimp only
  split
  · rename_i inside
    rw [set_append_left _ _ inside, dropLast_concat]
  · rename_i outside
    rw [set_append_right _ _ (Nat.le_of_not_lt outside)]
    cases i - xs.length with
    | zero | succ j => simp

@[simp] theorem length_swapRemove (i : Nat) : (swapRemove xs i).length = xs.length - 1 := by
  rcases eq_nil_or_concat' xs with rfl | ⟨xs, x, rfl⟩
  · rfl
  · rw [swapRemove_concat]
    split
    · simp
    · simp

theorem getElem?_swapRemove (i j : Nat) : (swapRemove xs i)[j]? =
      if j + 1 < xs.length then if j = i then xs.getLast? else xs[j]? else none := by
  rcases eq_nil_or_concat' xs with rfl | ⟨xs, x, rfl⟩
  · simp [swapRemove]
  · rw [swapRemove_concat, getLast?_concat, length_append, length_singleton]
    by_cases inside : j < xs.length
    · have kept : j + 1 < xs.length + 1 := by omega
      rw [if_pos kept, getElem?_append_left inside]
      by_cases same : j = i
      · subst same
        simp [inside]
      · rw [if_neg same]
        split
        · rw [getElem?_set_ne (Ne.symm same)]
        · rfl
    · have gone : ¬ j + 1 < xs.length + 1 := by omega
      rw [if_neg gone, getElem?_eq_none_iff]
      split
      · simpa using inside
      · simpa using inside

end

theorem swapRemove_perm (found : xs[i]? = some x) : (x :: swapRemove xs i).Perm xs := by
  rcases eq_nil_or_concat' xs with rfl | ⟨xs, last, rfl⟩
  · cases found
  · rw [swapRemove_concat]
    split
    · rename_i inside
      rw [getElem?_append_left inside, getElem?_eq_getElem inside] at found
      obtain rfl := Option.some.inj found
      calc xs[i] :: xs.set i last
        _ |>.Perm (xs[i] :: last :: xs.eraseIdx i) := (set_perm_cons_eraseIdx inside last).cons _
        _ |>.Perm (last :: xs[i] :: xs.eraseIdx i) := .swap ..
        _ |>.Perm (last :: xs) := (getElem_cons_eraseIdx_perm inside).cons _
        _ |>.Perm (xs ++ [last]) := (perm_append_singleton ..).symm
    · rename_i beyond
      obtain rfl : x = last := by
        rw [getElem?_append_right (Nat.le_of_not_lt beyond)] at found
        cases offset : i - xs.length with
        | zero =>
          rw [offset] at found
          exact (Option.some.inj found).symm
        | succ j =>
          rw [offset] at found
          cases found
      exact (perm_append_singleton ..).symm

theorem swapRemove_append_eq_iff (nodup : xs.Nodup) (found : xs[i]? = some x) :
    swapRemove xs i ++ [x] = xs ↔ xs.getLast? = some x := by
  constructor
  · intro same
    rw [← same, getLast?_concat]
  · intro last
    rcases eq_nil_or_concat' xs with rfl | ⟨ys, y, rfl⟩
    · cases last
    · obtain rfl : y = x := by
        rw [getLast?_concat] at last
        exact Option.some.inj last
      rw [swapRemove_concat, if_neg]
      intro inside
      rw [getElem?_append_left inside] at found
      have twice := (nodup_append.mp nodup).2.2 y (mem_of_getElem? found) y
        (mem_singleton.mpr rfl)
      exact twice rfl

end SwapRemove
