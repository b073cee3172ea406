import Mathlib.Logic.Basic

/-!
# Runs of a machine and forward simulation

A machine answers each operation with a reply and a next state, or does not
return. A specification is a relation between states, operations and replies.
When every guarded step of the machine is matched by a step of the specification
between related states, so is every run whose steps all meet the guard.
-/

namespace Runs

open List

universe u v w x

variable {S : Type u} {Op : Type v} {R : Type w} {A : Type x} (step : S → Op → Option (R × S))

/-- The replies of a run and its last state; `none` when some step does not return. -/
def run (s : S) : List Op → Option (List R × S)
  | [] => some ([], s)
  | op :: ops =>
    match step s op with
    | none => none
    | some (r, s) => (run s ops).map fun (rs, s) => (r :: rs, s)

/-- Every step of the run meets the guard in the state it starts from. -/
def Along (guard : S → Op → Prop) (s : S) : List Op → Prop
  | [] => True
  | op :: ops =>
    guard s op ∧
    match step s op with
    | none => True
    | some (_, s) => Along guard s ops

instance decidableAlong (guard : S → Op → Prop) [∀ s op, Decidable (guard s op)] (s : S) :
    (ops : List Op) → Decidable (Along step guard s ops)
  | [] => .isTrue trivial
  | op :: ops =>
    match stepped : step s op with
    | none => decidable_of_iff (guard s op) (by simp [Along, stepped])
    | some (_, s') =>
      have := decidableAlong guard s' ops
      decidable_of_iff (guard s op ∧ Along step guard s' ops) (by simp [Along, stepped])

/-- The replies the specification allows to a sequence of operations. -/
inductive Trace (spec : A → Op → R → A → Prop) : A → List Op → List R → A → Prop
  | nil (a : A) : Trace spec a [] [] a
  | cons {a a' a'' : A} {op : Op} {r : R} {ops : List Op} {rs : List R} (first : spec a op r a')
      (rest : Trace spec a' ops rs a'') : Trace spec a (op :: ops) (r :: rs) a''

variable {step} {guard : S → Op → Prop}

theorem along_of_forall (free : ∀ s op, guard s op) (s : S) (ops : List Op) :
    Along step guard s ops := by
  induction ops generalizing s with
  | nil => trivial
  | cons op ops ih =>
    refine ⟨free s op, ?_⟩
    split
    · trivial
    · exact ih _

variable {ops : List Op} {s : S}

theorem Along.and_mem {p : Op → Prop} (along : Along step guard s ops)
    (all : ∀ op ∈ ops, p op) : Along step (fun s op => guard s op ∧ p op) s ops := by
  induction ops generalizing s with
  | nil => trivial
  | cons op ops ih =>
    obtain ⟨first, later⟩ := along
    refine ⟨⟨first, all op (mem_cons_self ..)⟩, ?_⟩
    cases stepped : step s op with
    | none => trivial
    | some next =>
      rw [stepped] at later
      exact ih later fun op member => all op (mem_cons_of_mem _ member)

variable {rs : List R}

theorem run_concat {s s' s'' : S} {op : Op} {r : R}
    (ran : run step s ops = some (rs, s')) (stepped : step s' op = some (r, s'')) :
    run step s (ops ++ [op]) = some (rs ++ [r], s'') := by
  induction ops generalizing s rs with
  | nil =>
    cases ran
    rw [nil_append, run, stepped]
    rfl
  | cons first ops ih =>
    rw [run] at ran
    rw [cons_append, run]
    cases begun : step s first with
    | none =>
      rw [begun] at ran
      cases ran
    | some next =>
      rw [begun] at ran
      obtain ⟨⟨rs₁, _⟩, later, same⟩ := Option.map_eq_some_iff.mp ran
      cases same
      dsimp only
      rw [ih later]
      rfl

variable {spec : A → Op → R → A → Prop}

theorem Trace.length_eq {a a' : A} (trace : Trace spec a ops rs a') : rs.length = ops.length := by
  induction trace with
  | nil => rfl
  | cons _ _ ih => rw [length_cons, length_cons, ih]

/-- A trace of a specification that is a function ends where the function leads. -/
theorem Trace.end_eq {next : A → Op → R → A}
    (functional : ∀ a op r a', spec a op r a' → a' = next a op r) {a a' : A}
    (trace : Trace spec a ops rs a') :
    a' = (ops.zip rs).foldl (fun a e => next a e.1 e.2) a := by
  induction trace with
  | nil => rfl
  | cons first _ ih =>
    rw [zip_cons_cons, foldl_cons, ← functional _ _ _ _ first]
    exact ih

theorem run_simulates {rel : S → A → Prop} (matched : ∀ s a op, rel s a → guard s op →
      ∃ r s' a', step s op = some (r, s') ∧ spec a op r a' ∧ rel s' a') {a : A} (related : rel s a)
    (ops : List Op) (along : Along step guard s ops) :
    ∃ rs s' a', run step s ops = some (rs, s') ∧ Trace spec a ops rs a' ∧ rel s' a' := by
  induction ops generalizing s a with
  | nil => exact ⟨[], s, a, rfl, .nil a, related⟩
  | cons op ops ih =>
    obtain ⟨allowed, later⟩ := along
    obtain ⟨r, s₁, a₁, stepped, first, related₁⟩ := matched s a op related allowed
    rw [stepped] at later
    obtain ⟨rs, s', a', ran, rest, related'⟩ := ih related₁ later
    refine ⟨r :: rs, s', a', ?_, .cons first rest, related'⟩
    rw [run, stepped]
    simp only [ran, Option.map_some]

/-- An invariant that guarded steps keep holds after every run of guarded steps. -/
theorem run_invariant {inv : S → Prop}
    (kept : ∀ s op, inv s → guard s op → ∃ r s', step s op = some (r, s') ∧ inv s') (start : inv s)
    (ops : List Op) (along : Along step guard s ops) :
    ∃ rs s', run step s ops = some (rs, s') ∧ inv s' := by
  have matched : ∀ (s : S) (a : Unit) (op : Op), inv s → guard s op →
      ∃ r s', ∃ a' : Unit, step s op = some (r, s') ∧ True ∧ inv s' := by
    intro s a op holds allowed
    obtain ⟨r, s', stepped, after⟩ := kept s op holds allowed
    exact ⟨r, s', a, stepped, trivial, after⟩
  obtain ⟨rs, s', _, ran, _, last⟩ := run_simulates matched (a := ()) start ops along
  exact ⟨rs, s', ran, last⟩

section Total

variable (next : S → Op → S) {start s : S}

/-- The states that steps meeting the guard lead to, for a machine whose steps all
return. -/
inductive Path (guard : S → Op → Prop) (start : S) : S → Prop
  | start : Path guard start start
  | step {s : S} (op : Op) (reached : Path guard start s) (allowed : guard s op) :
      Path guard start (next s op)

variable {next}

theorem Path.invariant (inv : S → Prop) (kept : ∀ s op, inv s → guard s op → inv (next s op))
    (first : inv start) (path : Path next guard start s) : inv s := by
  induction path with
  | start => exact first
  | step op _ allowed ih => exact kept _ op ih allowed

theorem Path.weaken {weaker : S → Op → Prop} (weaken : ∀ s op, guard s op → weaker s op)
    (path : Path next guard start s) : Path next weaker start s := by
  induction path with
  | start => exact .start
  | step op _ allowed ih => exact .step op ih (weaken _ op allowed)

theorem Path.trans {t u : S} (first : Path next guard s t) (second : Path next guard t u) :
    Path next guard s u := by
  induction second with
  | start => exact first
  | step op _ allowed ih => exact .step op ih allowed

/-- Every operation of the list meets the guard in the state it starts from. -/
def Allowed (next : S → Op → S) (guard : S → Op → Prop) : S → List Op → Prop
  | _, [] => True
  | s, op :: ops => guard s op ∧ Allowed next guard (next s op) ops

instance instDecidableAllowed [∀ s op, Decidable (guard s op)] :
    ∀ s ops, Decidable (Allowed next guard s ops)
  | _, [] => .isTrue trivial
  | s, op :: ops => @instDecidableAnd _ _ _ (instDecidableAllowed (next s op) ops)

theorem Allowed.path (allowed : Allowed next guard s ops) :
    Path next guard s (ops.foldl next s) := by
  induction ops generalizing s with
  | nil => exact .start
  | cons op ops ih => exact (Path.step op .start allowed.1).trans (ih allowed.2)

theorem path_foldl (s : S) (ops : List Op) : Path next (fun _ _ => True) s (ops.foldl next s) := by
  induction ops generalizing s with
  | nil => exact .start
  | cons op ops ih => exact (Path.step op .start trivial).trans (ih (next s op))

end Total

end Runs
