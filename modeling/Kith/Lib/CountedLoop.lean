import Mathlib.Data.List.Nodup
import Mathlib.Data.List.Range

/-!
# Counted loops with a greatest counter

A loop `for (c = lo; c <= hi; ++c)` over a counter that cannot be raised past `top`. Below
`top` it is a fold over the values from `lo` to `hi`; with `hi = top` the values end and
the counter is raised once more.
-/

namespace CountedLoop

open List

universe u v w

/-- The integers from `lo` to `hi`. -/
def upTo (lo hi : Int) : List Int :=
  (List.range (hi + 1 - lo).toNat).map fun n : Nat => lo + (n : Int)

theorem mem_upTo {lo hi c : Int} : c ∈ upTo lo hi ↔ lo ≤ c ∧ c ≤ hi := by
  rw [upTo, mem_map]
  constructor
  · rintro ⟨n, inside, rfl⟩
    rw [mem_range] at inside
    omega
  · rintro ⟨low, high⟩
    refine ⟨(c - lo).toNat, mem_range.mpr ?_, ?_⟩ <;> omega

theorem nodup_upTo (lo hi : Int) : (upTo lo hi).Nodup := by
  apply nodup_range.map
  intro n m same
  simp only at same
  omega

theorem upTo_cons {lo hi : Int} (inside : lo ≤ hi) : upTo lo hi = lo :: upTo (lo + 1) hi := by
  have count : (hi + 1 - lo).toNat = (hi + 1 - (lo + 1)).toNat + 1 := by omega
  rw [upTo, count, range_succ_eq_map, map_cons, map_map, upTo]
  congr 1
  · simp
  · apply map_congr_left
    intro n _
    simp only [Function.comp_apply]
    omega

section Loops

variable {m : Type u → Type v} [Monad m] {σ : Type u}

/-- The loop from `c`, for the `n` values that remain. -/
def loopFrom (top : Int) (past : σ → m σ) (body : σ → Int → m σ) : Nat → Int → σ → m σ
  | 0, _, s => pure s
  | n + 1, c, s => do
    let s ← body s c
    if c = top then past s else loopFrom top past body n (c + 1) s

/-- The loop while the counter is at most `hi`. -/
def loop (top : Int) (past : σ → m σ) (body : σ → Int → m σ) (lo hi : Int) (s : σ) : m σ :=
  loopFrom top past body (hi + 1 - lo).toNat lo s

variable {top : Int} {past : σ → m σ} {body : σ → Int → m σ}

theorem loopFrom_below (n : Nat) {c : Int} (below : c + n ≤ top) (s : σ) :
    loopFrom top past body n c s = (upTo c (c + n - 1)).foldlM body s := by
  induction n generalizing c s with
  | zero =>
    have nothing : upTo c (c + (0 : Nat) - 1) = [] := by
      simp [upTo]
    rw [nothing]
    rfl
  | succ n ih =>
    rw [upTo_cons (by omega), foldlM_cons, loopFrom]
    congr 1
    funext s
    rw [if_neg (by omega), ih (by omega)]
    congr 2
    omega

theorem loop_below {lo hi : Int} (below : hi < top) (s : σ) :
    loop top past body lo hi s = (upTo lo hi).foldlM body s := by
  rw [loop]
  by_cases inside : lo ≤ hi
  · rw [loopFrom_below _ (by omega)]
    congr 2
    omega
  · have none_left : (hi + 1 - lo).toNat = 0 := by omega
    have nothing : upTo lo hi = [] := by rw [upTo, none_left]; rfl
    rw [none_left, nothing]
    rfl

variable [LawfulMonad m]

theorem loop_top {lo : Int} (inside : lo ≤ top) (s : σ) :
    loop top past body lo top s = (upTo lo top).foldlM body s >>= past := by
  obtain ⟨n, count⟩ : ∃ n : Nat, (top + 1 - lo).toNat = n + 1 := ⟨(top - lo).toNat, by omega⟩
  rw [loop, count]
  induction n generalizing lo s with
  | zero =>
    have only : lo = top := by omega
    subst only
    have nothing : upTo (lo + 1) lo = [] := by simp [upTo]
    rw [upTo_cons (Int.le_refl _), nothing, loopFrom]
    simp
  | succ n ih =>
    rw [upTo_cons inside, foldlM_cons, loopFrom, bind_assoc]
    congr 1
    funext s
    rw [if_neg (by omega), ih (by omega) s (by omega)]

theorem foldlM_flatMap {ι : Type*} {κ : Type*} (f : ι → List κ) (step : σ → κ → m σ) (xs : List ι)
    (s : σ) : (xs.flatMap f).foldlM step s = xs.foldlM (fun s x => (f x).foldlM step s) s := by
  induction xs generalizing s with
  | nil => rfl
  | cons x xs ih =>
    rw [flatMap_cons, foldlM_append, foldlM_cons]
    congr 1
    funext s
    exact ih s

end Loops

end CountedLoop
