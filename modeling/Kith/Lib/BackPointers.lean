import Kith.Lib.SwapRemove
import Mathlib.Logic.Function.Basic
import Mathlib.Data.List.Nodup

/-!
# Tables with back pointers

A table maps positions to elements, and each element records the position that
holds it. The two directions are inverse on the elements of the table. An insert,
an erasure and the swap removals of unordered arrays keep them so, provided that
the element which moves has its record rewritten.
-/

namespace BackPointers

open SwapRemove Function List

universe u v w

variable {P : Type u} {I : Type v} {K : Type w}

/-- Position `p` holds `i` exactly when `i` is an element and records `p`. -/
def Indexed (table : P → Option I) (S : I → Prop) (place : I → P) : Prop :=
  ∀ p i, table p = some i ↔ S i ∧ place i = p

section Tables

variable {table table' : P → Option I} {S S' : I → Prop} {place place' : I → P} {p : P} {i j : I}

namespace Indexed

theorem nothing (place : I → P) : Indexed (fun _ => none) (fun _ => False) place := by
  intro p i
  simp

variable (indexed : Indexed table S place)
include indexed

theorem congr (tables : ∀ p, table' p = table p) (elements : ∀ i, S' i ↔ S i)
    (places : ∀ i, S i → place' i = place i) : Indexed table' S' place' := by
  intro p i
  rw [tables, indexed, elements]
  constructor
  · rintro ⟨member, here⟩
    exact ⟨member, (places i member).trans here⟩
  · rintro ⟨member, here⟩
    exact ⟨member, (places i member).symm.trans here⟩

theorem at_place (member : S i) : table (place i) = some i :=
  (indexed _ _).mpr ⟨member, rfl⟩

theorem erase [DecidableEq P] (here : table p = some i) :
    Indexed (update table p none) (fun j => S j ∧ j ≠ i) place := by
  have recorded := ((indexed p i).mp here).2
  intro q j
  rw [update_apply]
  split
  · rename_i same
    subst same
    simp only [reduceCtorEq, false_iff, not_and]
    rintro ⟨member, other⟩ there
    have held := (indexed q j).mpr ⟨member, there⟩
    rw [here] at held
    exact other (Option.some.inj held).symm
  · rename_i elsewhere
    rw [indexed]
    constructor
    · rintro ⟨member, there⟩
      refine ⟨⟨member, ?_⟩, there⟩
      rintro rfl
      exact elsewhere (there.symm.trans recorded)
    · rintro ⟨⟨member, _⟩, there⟩
      exact ⟨member, there⟩

theorem insert [DecidableEq P] [DecidableEq I] (free : table p = none) (new : ¬ S i) :
    Indexed (update table p (some i)) (fun j => j = i ∨ S j)
      (update place i p) := by
  intro q j
  rw [update_apply, update_apply]
  by_cases here : q = p
  · subst here
    rw [if_pos rfl, Option.some.injEq]
    by_cases same : j = i
    · simp [same]
    · rw [if_neg same]
      simp only [same, false_or, Ne.symm same, false_iff, not_and]
      intro member there
      have held := (indexed q j).mpr ⟨member, there⟩
      rw [free] at held
      cases held
  · rw [if_neg here, indexed]
    by_cases same : j = i
    · subst same
      simp [new, Ne.symm here]
    · simp [same]

theorem replace [DecidableEq P] [DecidableEq I] (here : table p = some i) (new : S j → j = i) :
    Indexed (update table p (some j)) (fun k => k = j ∨ S k ∧ k ≠ i)
      (update place j p) := by
  have erased := indexed.erase here
  have inserted := erased.insert (i := j) (update_self ..) fun ⟨member, other⟩ =>
    other (new member)
  rwa [update_idem] at inserted

end Indexed

end Tables

section Lists

/-- The table of a family of lists. -/
def listed (lists : K → List I) (q : K × Nat) : Option I := (lists q.1)[q.2]?

variable [DecidableEq K] {lists : K → List I} {S : I → Prop} {place : I → K × Nat} {key : K}
    {slot : Nat}
  {slot : Nat} {i m : I}

theorem listed_push (lists : K → List I) (key : K) (i : I) :
    listed (update lists key (lists key ++ [i])) =
      update (listed lists) (key, (lists key).length) (some i) := by
  funext ⟨k, p⟩
  rw [listed, update_apply, update_apply]
  by_cases same : k = key
  · subst same
    rw [if_pos rfl]
    by_cases last : p = (lists k).length
    · simp [last]
    · have apart : ¬ (k, p) = (k, (lists k).length) := by simp [last]
      rw [if_neg apart, listed, getElem?_append]
      split
      · rfl
      · have none_there : (lists k)[p]? = none := getElem?_eq_none (by omega)
        have gap : 0 < p - (lists k).length := by omega
        obtain ⟨d, hd⟩ := Nat.exists_eq_add_of_lt gap
        rw [none_there, hd]
        simp
  · have apart : ¬ (k, p) = (key, (lists key).length) := by simp [same]
    rw [if_neg same, if_neg apart, listed]

theorem listed_swapRemove (lists : K → List I) (inside : slot < (lists key).length) :
    listed (update lists key (swapRemove (lists key) slot)) =
      update (update (listed lists) (key, slot) (lists key).getLast?)
        (key, (lists key).length - 1) none := by
  funext ⟨k, p⟩
  rw [listed, update_apply, update_apply, update_apply]
  by_cases same : k = key
  · subst same
    simp only [if_true, getElem?_swapRemove, Prod.mk.injEq, true_and, listed]
    by_cases last : p = (lists k).length - 1
    · rw [if_pos last, if_neg (by omega)]
    · rw [if_neg last]
      by_cases within : p + 1 < (lists k).length
      · rw [if_pos within]
      · rw [if_neg within, if_neg (by omega), getElem?_eq_none (by omega)]
  · simp [same, listed]

theorem listed_set (lists : K → List I) (inside : slot < (lists key).length) (i : I) :
    listed (update lists key ((lists key).set slot i)) =
      update (listed lists) (key, slot) (some i) := by
  funext ⟨k, p⟩
  rw [listed, update_apply, update_apply]
  by_cases same : k = key
  · subst same
    rw [if_pos rfl, getElem?_set]
    by_cases here : slot = p
    · subst here
      simp [inside]
    · have apart : ¬ (k, p) = (k, slot) := by simp [Ne.symm here]
      rw [if_neg here, if_neg apart, listed]
  · have apart : ¬ (k, p) = (key, slot) := by simp [same]
    rw [if_neg same, if_neg apart, listed]

namespace Indexed

section

variable (indexed : Indexed (listed lists) S place)
include indexed

theorem push [DecidableEq I] (key : K) (new : ¬ S i) :
    Indexed (listed (update lists key (lists key ++ [i]))) (fun j => j = i ∨ S j)
      (update place i (key, (lists key).length)) := by
  rw [listed_push]
  apply indexed.insert ?_ new
  exact getElem?_eq_none (Nat.le_refl _)

theorem renumber [DecidableEq I] (here : (lists key)[slot]? = some m) (new : ¬ S i) :
    Indexed (listed (update lists key ((lists key).set slot i)))
      (fun j => j = i ∨ S j ∧ j ≠ m) (update place i (key, slot)) := by
  rw [listed_set lists (List.getElem?_eq_some_iff.mp here).1]
  exact indexed.replace here fun member => absurd member new

/-- A swap removal, with the record of the element that takes the place rewritten. -/
theorem unlink [DecidableEq I] (here : (lists key)[slot]? = some i)
    (last : (lists key).getLast? = some m) :
    Indexed (listed (update lists key (swapRemove (lists key) slot)))
      (fun j => S j ∧ j ≠ i) (update place m (key, slot)) := by
  have inside : slot < (lists key).length := (List.getElem?_eq_some_iff.mp here).1
  rw [listed_swapRemove lists inside, last]
  have ending : listed lists (key, (lists key).length - 1) = some m := by
    rw [listed, ← last, getLast?_eq_getElem?]
  have at_slot : listed lists (key, slot) = some i := here
  by_cases only : slot = (lists key).length - 1
  · -- The removed element is the last one, and nothing moves.
    have same : m = i := by
      rw [← only, at_slot] at ending
      exact (Option.some.inj ending).symm
    rw [← only, update_idem]
    refine (indexed.erase at_slot).congr (fun _ => rfl) (fun _ => Iff.rfl) ?_
    rintro j ⟨_, other⟩
    rw [same, update_of_ne other]
  · have apart : ((key, (lists key).length - 1) : K × Nat) ≠ (key, slot) := by
      simp [Ne.symm only]
    have moved : m ≠ i := by
      rintro rfl
      have first := ((indexed _ _).mp ending).2
      have second := ((indexed _ _).mp at_slot).2
      exact apart (first.symm.trans second)
    have erased := (indexed.erase ending).replace (p := (key, slot)) (i := i) (j := m)
      (by rw [update_of_ne apart.symm]; exact at_slot) fun ⟨_, other⟩ => absurd rfl other
    rw [update_comm apart] at erased
    refine erased.congr (fun _ => rfl) ?_ fun _ _ => rfl
    intro j
    constructor
    · rintro ⟨member, other⟩
      by_cases ending' : j = m
      · exact .inl ending'
      · exact .inr ⟨⟨member, ending'⟩, other⟩
    · rintro (rfl | ⟨⟨member, _⟩, other⟩)
      · exact ⟨((indexed _ _).mp ending).1, moved⟩
      · exact ⟨member, other⟩

end

omit [DecidableEq K] in
theorem nodup (indexed : Indexed (listed lists) S place) (key : K) : (lists key).Nodup := by
  rw [List.nodup_iff_getElem?_ne_getElem?]
  intro p q before inside same
  obtain ⟨i, held⟩ : ∃ i, (lists key)[q]? = some i := ⟨_, List.getElem?_eq_getElem inside⟩
  have first := ((indexed (key, p) i).mp (same.trans held)).2
  have second := ((indexed (key, q) i).mp held).2
  have equal := congrArg Prod.snd (first.symm.trans second)
  omega

omit [DecidableEq K] in
theorem mem_iff (indexed : Indexed (listed lists) S place) :
    i ∈ lists key ↔ S i ∧ (place i).1 = key := by
  rw [List.mem_iff_getElem?]
  constructor
  · rintro ⟨p, held⟩
    obtain ⟨member, here⟩ := (indexed (key, p) i).mp held
    exact ⟨member, by rw [here]⟩
  · rintro ⟨member, rfl⟩
    exact ⟨(place i).2, indexed.at_place member⟩

/-- The list of a key has the elements below `n` that are placed there, each once. -/
theorem perm_filter {lists : K → List Nat} {place : Nat → K × Nat} {n : Nat}
    (indexed : Indexed (listed lists) (· < n) place) (key : K) :
    (lists key).Perm ((range n).filter fun i => (place i).1 = key) := by
  rw [perm_ext_iff_of_nodup (indexed.nodup key) (nodup_range.filter _)]
  intro i
  rw [indexed.mem_iff]
  simp

end Indexed

end Lists

end BackPointers
