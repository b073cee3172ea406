import Mathlib.Data.List.Basic
import Mathlib.Order.Lattice

/-!
# Arrays sorted by a key

A lower bound found by halving splits a strictly sorted array into the entries
below a key and the rest. Looking a key up, inserting at the lower bound and
rewriting an entry under its key are described by the finite map of the array.
-/

namespace SortedArray

open List

universe u v

variable {α : Type u} {K : Type v} [LinearOrder K] (key : α → K)

def Sorted (xs : List α) : Prop := xs.Pairwise fun a b => key a < key b

/-- The halving loop over `[lo, hi)`. -/
def lowerBoundLoop (xs : List α) (k : K) : Nat → Nat → Nat → Nat
  | 0, lo, _ => lo
  | fuel + 1, lo, hi =>
    if lo < hi then
      let mid := lo + (hi - lo) / 2
      match xs[mid]? with
      | none => lo
      | some x =>
        if key x < k then lowerBoundLoop xs k fuel (mid + 1) hi
        else lowerBoundLoop xs k fuel lo mid
    else lo

def lowerBound (xs : List α) (k : K) : Nat := lowerBoundLoop key xs k xs.length 0 xs.length

/-- The index of the entry with key `k`. -/
def find (xs : List α) (k : K) : Option Nat :=
  match xs[lowerBound key xs k]? with
  | none => none
  | some x => if key x = k then some (lowerBound key xs k) else none

def lookup (xs : List α) (k : K) : Option α := xs.find? fun x => key x = k

variable {key} {xs : List α} {k : K}

section Search

/-- The entries before `lo` are below the key, those from `hi` on are not. -/
structure Bracket (key : α → K) (xs : List α) (k : K) (lo hi : Nat) : Prop where
  below : ∀ i x, i < lo → xs[i]? = some x → key x < k
  above : ∀ i x, hi ≤ i → xs[i]? = some x → k ≤ key x

theorem Sorted.lt (sorted : Sorted key xs) {i j : Nat} {a b : α} (before : i < j)
    (first : xs[i]? = some a) (second : xs[j]? = some b) : key a < key b := by
  obtain ⟨hi, rfl⟩ := List.getElem?_eq_some_iff.mp first
  obtain ⟨hj, rfl⟩ := List.getElem?_eq_some_iff.mp second
  exact pairwise_iff_getElem.mp sorted i j hi hj before

variable {lo hi mid : Nat} {x : α}

variable (sorted : Sorted key xs)
include sorted

section

variable (bracket : Bracket key xs k lo hi)
include bracket

theorem Sorted.bracket_right (at_mid : xs[mid]? = some x) (small : key x < k) :
    Bracket key xs k (mid + 1) hi := by
  refine ⟨?_, bracket.above⟩
  intro i y hi at_i
  rcases Nat.lt_or_eq_of_le (Nat.le_of_lt_succ hi) with before | rfl
  · exact (sorted.lt before at_i at_mid).trans small
  · cases at_i.symm.trans at_mid
    exact small

theorem Sorted.bracket_left (at_mid : xs[mid]? = some x) (large : ¬key x < k) :
    Bracket key xs k lo mid := by
  refine ⟨bracket.below, ?_⟩
  intro i y hi at_i
  rcases Nat.lt_or_eq_of_le hi with after | rfl
  · exact (not_lt.mp large).trans (sorted.lt after at_mid at_i).le
  · cases at_i.symm.trans at_mid
    exact not_lt.mp large

theorem Sorted.lowerBoundLoop {fuel : Nat} (ordered : lo ≤ hi) (inside : hi ≤ xs.length)
    (enough : hi - lo ≤ fuel) :
    Bracket key xs k (lowerBoundLoop key xs k fuel lo hi) (lowerBoundLoop key xs k fuel lo hi) ∧
      lowerBoundLoop key xs k fuel lo hi ≤ xs.length := by
  induction fuel generalizing lo hi with
  | zero =>
    obtain rfl : lo = hi := by omega
    exact ⟨bracket, inside⟩
  | succ fuel ih =>
    unfold SortedArray.lowerBoundLoop
    by_cases more : lo < hi
    · simp only [if_pos more]
      have in_range : lo + (hi - lo) / 2 < xs.length := by omega
      rw [getElem?_eq_getElem in_range]
      have at_mid := getElem?_eq_getElem in_range
      dsimp only
      split
      · next small =>
        exact ih (sorted.bracket_right bracket at_mid small) (by omega) inside (by omega)
      · next large =>
        exact ih (sorted.bracket_left bracket at_mid large) (by omega) (by omega) (by omega)
    · obtain rfl : lo = hi := by omega
      simp only [if_neg more]
      exact ⟨bracket, inside⟩

end

theorem Sorted.split (k : K) :
    ∃ before after, xs = before ++ after ∧ lowerBound key xs k = before.length ∧
      (∀ x ∈ before, key x < k) ∧ ∀ x ∈ after, k ≤ key x := by
  have start : Bracket key xs k 0 xs.length := by
    refine ⟨fun i x before _ => absurd before (Nat.not_lt_zero i), ?_⟩
    intro i x past at_i
    obtain ⟨inside, _⟩ := List.getElem?_eq_some_iff.mp at_i
    omega
  obtain ⟨bracket, inside⟩ := sorted.lowerBoundLoop start (Nat.zero_le _) (Nat.le_refl _)
    (Nat.sub_le _ _)
  refine ⟨xs.take (lowerBound key xs k), xs.drop (lowerBound key xs k),
    (take_append_drop ..).symm, (length_take_of_le inside).symm, ?_, ?_⟩
  · intro x member
    obtain ⟨i, at_i⟩ := mem_iff_getElem?.mp member
    rw [getElem?_take] at at_i
    split at at_i
    · next hi => exact bracket.below i x hi at_i
    · cases at_i
  · intro x member
    obtain ⟨i, at_i⟩ := mem_iff_getElem?.mp member
    rw [getElem?_drop] at at_i
    exact bracket.above _ x (Nat.le_add_right ..) at_i

end Search

section Map

variable {before after : List α} {x : α}

theorem Sorted.middle (sorted : Sorted key (before ++ x :: after)) :
    (∀ y ∈ before, key y < key x) ∧ ∀ y ∈ after, key x < key y := by
  obtain ⟨_, tail, cross⟩ := pairwise_append.mp sorted
  exact ⟨fun y member => cross y member x (mem_cons_self ..), (pairwise_cons.mp tail).1⟩

theorem lookup_eq_none_iff : lookup key xs k = none ↔ ∀ x ∈ xs, key x ≠ k := by
  simp [lookup, find?_eq_none]

theorem lookup_middle (apart : ∀ y ∈ before, key y < key x) :
    lookup key (before ++ x :: after) k =
      if key x = k then some x else lookup key (before ++ after) k := by
  have none_before : k = key x → before.find? (fun y => key y = k) = none := by
    rintro rfl
    exact find?_eq_none.mpr fun y member => by simpa using (apart y member).ne
  unfold lookup
  by_cases same : key x = k
  · simp [same, none_before same.symm]
  · simp [same]

theorem Sorted.find_cases (sorted : Sorted key xs) (k : K) :
    (∃ before x after, xs = before ++ x :: after ∧ key x = k ∧ lookup key xs k = some x ∧
      lowerBound key xs k = before.length ∧ find key xs k = some before.length) ∨
    ∃ before after, xs = before ++ after ∧ lookup key xs k = none ∧
      lowerBound key xs k = before.length ∧ find key xs k = none ∧
      (∀ x ∈ before, key x < k) ∧ ∀ x ∈ after, k < key x := by
  obtain ⟨before, after, rfl, bound, below, above⟩ := sorted.split k
  unfold find
  rw [bound]
  cases after with
  | nil =>
    refine .inr ⟨before, [], rfl, ?_, rfl, ?_, below, fun x member => absurd member not_mem_nil⟩
    · apply lookup_eq_none_iff.mpr
      intro x member
      rw [append_nil] at member
      exact (below x member).ne
    · simp
  | cons x after =>
    obtain ⟨apart, later⟩ := sorted.middle
    by_cases same : key x = k
    · refine .inl ⟨before, x, after, rfl, same, ?_, rfl, ?_⟩
      · rw [lookup_middle apart, if_pos same]
      · simp [same]
    · have first : k < key x := lt_of_le_of_ne (above x (mem_cons_self ..)) (Ne.symm same)
      have rest : ∀ y ∈ x :: after, k < key y := by
        intro y member
        rcases mem_cons.mp member with rfl | member
        · exact first
        · exact first.trans (later y member)
      refine .inr ⟨before, x :: after, rfl, ?_, rfl, ?_, below, rest⟩
      · apply lookup_eq_none_iff.mpr
        intro y member
        rcases mem_append.mp member with member | member
        · exact (below y member).ne
        · exact (rest y member).ne'
      · simp [same]

theorem Sorted.insert (sorted : Sorted key (before ++ after)) (below : ∀ y ∈ before, key y < key x)
    (above : ∀ y ∈ after, key x < key y) : Sorted key (before ++ x :: after) := by
  obtain ⟨left, right, cross⟩ := pairwise_append.mp sorted
  refine pairwise_append.mpr ⟨left, pairwise_cons.mpr ⟨above, right⟩, ?_⟩
  intro a ha b hb
  rcases mem_cons.mp hb with rfl | hb
  · exact below a ha
  · exact cross a ha b hb

theorem Sorted.rewrite {y : α} (sorted : Sorted key (before ++ x :: after)) (same : key y = key x) :
    Sorted key (before ++ y :: after) := by
  obtain ⟨apart, later⟩ := sorted.middle
  have rest : Sorted key (before ++ after) :=
    sorted.sublist (List.Sublist.append_left (sublist_cons_self ..) _)
  exact rest.insert (same ▸ apart) (same ▸ later)

end Map

end SortedArray
