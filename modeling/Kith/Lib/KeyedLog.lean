import Mathlib.Data.List.Basic
import Mathlib.Logic.Function.Basic

/-!
# Replicas of a log of keyed writes

Writes are logged in one order; a replica applies some of them, in its own
order. Its view is the state it would have reached by applying its writes in log
order. A replica that applies each write after every earlier write to the same
key has exactly that state, and two replicas that have applied everything have
the same view.
-/

namespace KeyedLog

open List

universe u v w x

/-- Where a write goes and what it leaves there. -/
structure Schema (W : Type u) (K : Type v) (V : Type w) where
  key : W → K
  value : W → V

/-- A logged write and the replicas that have applied it. -/
structure Entry (ι : Type x) (W : Type u) where
  write : W
  seen : ι → Bool

variable {W : Type u} {K : Type v} {V : Type w} {ι : Type x} [DecidableEq K] (S : Schema W K V)

def Schema.apply (m : K → V) (w : W) : K → V := Function.update m (S.key w) (S.value w)

def advance (i : ι) (m : K → V) (e : Entry ι W) : K → V :=
  if e.seen i = true then S.apply m e.write else m

def view (base : K → V) (i : ι) (log : List (Entry ι W)) : K → V := log.foldl (advance S i) base

def Entry.mark [DecidableEq ι] (i : ι) (e : Entry ι W) : Entry ι W :=
  { e with seen := Function.update e.seen i true }

/-- Replica `i` has applied no write to the key after position `k`. -/
def Latest (log : List (Entry ι W)) (i : ι) (k : Nat) (key : K) : Prop :=
  ∀ e ∈ log.drop (k + 1), S.key e.write = key → e.seen i = false

variable {S} {base : K → V} {i j : ι} {log : List (Entry ι W)} {m : K → V}

theorem fold_apply {w : W} (other : ∀ e ∈ log, S.key e.write = S.key w → e.seen i = false) :
    log.foldl (advance S i) (S.apply m w) = S.apply (log.foldl (advance S i) m) w := by
  induction log generalizing m with
  | nil => rfl
  | cons e log ih =>
    have tail : ∀ e ∈ log, S.key e.write = S.key w → e.seen i = false :=
      fun f hf => other f (mem_cons_of_mem e hf)
    rw [foldl_cons, foldl_cons]
    cases hseen : e.seen i with
    | false => simpa [advance, hseen] using ih tail
    | true =>
      have hne : S.key e.write ≠ S.key w := by
        intro same
        rw [other e mem_cons_self same] at hseen
        cases hseen
      have swap : S.apply (S.apply m w) e.write = S.apply (S.apply m e.write) w :=
        Function.update_comm hne.symm ..
      simp only [advance, hseen, if_true]
      rw [swap, ih tail]

theorem fold_seen (seen : ∀ e ∈ log, e.seen i = true) :
    log.foldl (advance S i) m = log.foldl (fun m e => S.apply m e.write) m := by
  induction log generalizing m with
  | nil => rfl
  | cons e log ih =>
    simp only [foldl_cons, advance, seen e mem_cons_self, if_true]
    exact ih fun f hf => seen f (mem_cons_of_mem e hf)

theorem fold_unseen (unseen : ∀ e ∈ log, e.seen i = false) : log.foldl (advance S i) m = m := by
  induction log with
  | nil => rfl
  | cons e log ih =>
    simp only [foldl_cons, advance, unseen e mem_cons_self, Bool.false_eq_true, if_false]
    exact ih fun f hf => unseen f (mem_cons_of_mem e hf)

section Marking

variable [DecidableEq ι]

/-- Applying the write at `k` now, or again, when no later write to its key has
been applied. -/
theorem view_mark {k : Nat} (hk : k < log.length) (latest : Latest S log i k (S.key log[k].write)) :
    view S base i (log.modify k (Entry.mark i)) = S.apply (view S base i log) log[k].write := by
  have split : log = log.take k ++ log[k] :: log.drop (k + 1) := by
    rw [getElem_cons_drop, take_append_drop]
  have marked : log.modify k (Entry.mark i) =
      log.take k ++ log[k].mark i :: log.drop (k + 1) :=
    modify_eq_take_cons_drop hk
  have after : view S base i (log.modify k (Entry.mark i)) =
      S.apply ((log.drop (k + 1)).foldl (advance S i) ((log.take k).foldl (advance S i) base))
        log[k].write := by
    rw [marked, view, foldl_append, foldl_cons, ← fold_apply latest]
    simp [advance, Entry.mark]
  have before : view S base i log = (log.drop (k + 1)).foldl (advance S i)
      (advance S i ((log.take k).foldl (advance S i) base) log[k]) := by
    conv_lhs => rw [split, view, foldl_append, foldl_cons]
  rw [after, before]
  cases hseen : log[k].seen i with
  | false => simp [advance, hseen]
  | true =>
    simp only [advance, hseen, if_true]
    rw [fold_apply latest]
    exact (Function.update_idem ..).symm

theorem view_mark_of_ne (hij : i ≠ j) (k : Nat) :
    view S base i (log.modify k (Entry.mark j)) = view S base i log := by
  have step : ∀ m : K → V, ∀ e : Entry ι W, advance S i m (e.mark j) = advance S i m e := by
    intro m e
    simp [advance, Entry.mark, hij]
  have all : ∀ (l : List (Entry ι W)) (k : Nat) (m : K → V),
      (l.modify k (Entry.mark j)).foldl (advance S i) m = l.foldl (advance S i) m := by
    intro l
    induction l with
    | nil => intro k m; simp
    | cons e l ih =>
      intro k m
      cases k with
      | zero => simp [modify_zero_cons, step]
      | succ k => simp [modify_succ_cons, ih]
  exact all log k base

end Marking

variable {new : List (Entry ι W)}

theorem view_append_seen (seen : ∀ e ∈ new, e.seen i = true) :
    view S base i (log ++ new) = new.foldl (fun m e => S.apply m e.write) (view S base i log) := by
  rw [view, foldl_append, fold_seen seen]
  rfl

theorem view_append_unseen (unseen : ∀ e ∈ new, e.seen i = false) :
    view S base i (log ++ new) = view S base i log := by
  rw [view, foldl_append, fold_unseen unseen]
  rfl

theorem view_eq_of_all_seen (all : ∀ e ∈ log, e.seen i = true ∧ e.seen j = true) :
    view S base i log = view S base j log := by
  rw [view, view, fold_seen fun e he => (all e he).1, fold_seen fun e he => (all e he).2]

end KeyedLog
