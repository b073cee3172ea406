import Mathlib.Data.List.Basic

/-!
# Loops that stop at the first failure

`sweep` runs a state-passing body over a list and returns at the first result
that is not `ok`; `trail` lists the items the loop reached, each with the state
it met. What every reached item preserves, the loop preserves.
-/

namespace Sweep

open List

universe u v w

variable {α : Type u} {σ : Type v} {ρ : Type w} [DecidableEq ρ] {as : List α} {s : σ}

def sweep (ok : ρ) (body : α → σ → ρ × σ) : List α → σ → ρ × σ
  | [], s => (ok, s)
  | a :: as, s =>
    if (body a s).1 = ok then sweep ok body as (body a s).2 else body a s

def trail (ok : ρ) (body : α → σ → ρ × σ) : List α → σ → List (α × σ)
  | [], _ => []
  | a :: as, s =>
    (a, s) :: if (body a s).1 = ok then trail ok body as (body a s).2 else []

variable {ok : ρ} {body : α → σ → ρ × σ}

theorem trail_items : ((trail ok body as s).map Prod.fst).Sublist as := by
  induction as generalizing s with
  | nil => exact List.Sublist.slnil
  | cons a as ih =>
    rw [trail, map_cons]
    split
    · exact ih.cons_cons a
    · exact (nil_sublist as).cons_cons a

theorem sweep_filter {p : α → Bool} {P : σ → Prop} (kept : ∀ a s, P s → P (body a s).2)
    (idle : ∀ a s, P s → p a = false → body a s = (ok, s)) (start : P s) :
    sweep ok body (as.filter p) s = sweep ok body as s ∧
      trail ok body (as.filter p) s = (trail ok body as s).filter fun v => p v.1 := by
  induction as generalizing s with
  | nil => exact ⟨rfl, rfl⟩
  | cons a as ih =>
    cases chosen : p a with
    | true =>
      obtain ⟨result, reached⟩ := ih (kept a s start)
      rw [filter_cons_of_pos chosen, sweep, sweep, trail, trail, result, reached]
      split <;> simp [chosen]
    | false =>
      have skip := idle a s start chosen
      rw [filter_cons_of_neg (by simp [chosen]), sweep, trail, skip, if_pos rfl, if_pos rfl,
        filter_cons_of_neg (by simp [chosen])]
      exact ih start

/-- The invariant rule of the loop. -/
theorem sweep_invariant {P : σ → Prop} (start : P s)
    (kept : ∀ v ∈ trail ok body as s, P v.2 → P (body v.1 v.2).2) :
    P (sweep ok body as s).2 ∧ ∀ v ∈ trail ok body as s, P v.2 := by
  induction as generalizing s with
  | nil => exact ⟨start, by simp [trail]⟩
  | cons a as ih =>
    have first : P (body a s).2 := kept (a, s) (by simp [trail]) start
    by_cases hok : (body a s).1 = ok
    · have rest := ih first (fun v hv => kept v (by simp [trail, hok, hv]))
      simp only [sweep, trail, hok, if_true, mem_cons]
      refine ⟨rest.1, ?_⟩
      rintro v (rfl | hv)
      · exact start
      · exact rest.2 v hv
    · simp only [sweep, trail, hok, if_false, mem_singleton]
      exact ⟨first, fun v hv => hv ▸ start⟩

/-- The simulation rule of the loop: a relation to an abstract state that `f`
advances item by item holds after the fold over the trail. -/
theorem sweep_relate {τ : Type*} {R : σ → τ → Prop} {f : τ → α × σ → τ} {t : τ} (start : R s t)
    (advance : ∀ v ∈ trail ok body as s, ∀ t, R v.2 t → R (body v.1 v.2).2 (f t v)) :
    R (sweep ok body as s).2 ((trail ok body as s).foldl f t) := by
  induction as generalizing s t with
  | nil => exact start
  | cons a as ih =>
    have first : R (body a s).2 (f t (a, s)) := advance (a, s) (by simp [trail]) t start
    by_cases hok : (body a s).1 = ok
    · have rest := ih first (fun v hv => advance v (by simp [trail, hok, hv]))
      simpa only [sweep, trail, hok, if_true, foldl_cons] using rest
    · simpa only [sweep, trail, hok, if_false, foldl_cons, foldl_nil] using first

end Sweep
