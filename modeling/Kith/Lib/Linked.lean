import Mathlib.Data.List.Infix
import Mathlib.Logic.Function.Basic

/-!
# Singly linked lists in a store

A store gives each node its successor. A pointer is the start of a list when the nodes
of the list follow each other from it and the last one has no successor.
-/

namespace LinkedList

open Function List

universe u

variable {ν : Type u} {next next' : ν → Option ν} {p : Option ν} {a b c : ν} {l : List ν}

/-- The nodes from the pointer on are those of the list. -/
def Linked (next : ν → Option ν) : Option ν → List ν → Prop
  | p, [] => p = none
  | p, a :: l => p = some a ∧ Linked next (next a) l

theorem Linked.frame (linked : Linked next p l) (same : ∀ a ∈ l, next' a = next a) :
    Linked next' p l := by
  induction l generalizing p with
  | nil => exact linked
  | cons a l ih =>
    obtain ⟨rfl, rest⟩ := linked
    refine ⟨rfl, ?_⟩
    have first : next' a = next a := same a mem_cons_self
    rw [first]
    exact ih rest fun b member => same b (mem_cons_of_mem _ member)

theorem Linked.push [DecidableEq ν] (linked : Linked next p l) (fresh : a ∉ l) :
    Linked (update next a p) (some a) (a :: l) := by
  refine ⟨rfl, ?_⟩
  rw [update_self]
  refine linked.frame fun b member => update_of_ne ?_ ..
  rintro rfl
  exact fresh member

theorem Linked.pop (linked : Linked next (some a) l) :
    ∃ rest, l = a :: rest ∧ Linked next (next a) rest := by
  cases l with
  | nil => cases linked
  | cons b rest =>
    obtain ⟨same, linked⟩ := linked
    cases same
    exact ⟨rest, rfl, linked⟩

theorem pair_unique (nodup : l.Nodup) (first : [a, b] <:+: l) (second : [a, c] <:+: l) : b = c := by
  induction l with
  | nil => simp at first
  | cons x l ih =>
    obtain ⟨apart, nodup⟩ := nodup_cons.mp nodup
    have inside : ∀ {y}, [a, y] <:+: l → x ≠ a := by
      rintro y pair rfl
      exact apart (pair.subset mem_cons_self)
    rcases infix_cons_iff.mp first with front | later
    · rcases infix_cons_iff.mp second with front' | later'
      · cases l with
        | nil => simp at front
        | cons y l =>
          simp only [cons_prefix_cons] at front front'
          exact front.2.1.trans front'.2.1.symm
      · exact absurd (cons_prefix_cons.mp front).1.symm (inside later')
    · rcases infix_cons_iff.mp second with front' | later'
      · exact absurd (cons_prefix_cons.mp front').1.symm (inside later)
      · exact ih nodup later later'

theorem pair_not_last (nodup : l.Nodup) (pair : [a, b] <:+: l) : l.getLast? ≠ some a := by
  obtain ⟨before, after, rfl⟩ := pair
  intro last
  have member : a ∈ b :: after := by
    apply mem_of_getLast?
    simpa [getLast?_append, getLast?_cons] using last
  simp only [append_assoc, cons_append, nil_append] at nodup
  exact (nodup_cons.mp (nodup_append.mp nodup).2.1).1 member

theorem eq_singleton (nodup : l.Nodup) (first : l.head? = some a) (last : l.getLast? = some a) :
    l = [a] := by
  obtain ⟨rest, rfl⟩ := head?_eq_some_iff.mp first
  cases rest with
  | nil => rfl
  | cons b rest =>
    rw [getLast?_cons_cons] at last
    exact absurd (mem_of_getLast? last) (nodup_cons.mp nodup).1

end LinkedList
