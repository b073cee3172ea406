import Mathlib.Data.Multiset.AddSub
import Mathlib.Data.Multiset.Count
import Kith.Base
import Kith.Lib.Runs

/-!
# The delivery executor

In executor mode the reactor thread composes a session's view and submits its
delivery as a job to a pool of worker threads. A flag of the session, a
reference on it and a count of the jobs in flight are moved before the submit,
and taken back by the worker or by a refused submit. Each access is one step
here; the reactor's steps and those of all workers interleave in any order.
-/

namespace Kith.Gateway

open Runs Function Multiset

/-- Where the reactor thread stands in the visit of a session: `waiting` for the flag,
`composing`, about to look at the flag (`delivering`), and then what it has done of the
submission, or has taken back of a refused one. -/
inductive VisitPhase where
  | idle
  | waiting (session : Nat)
  | composing (session : Nat)
  | delivering (session : Nat)
  | unclaimed (session : Nat)
  | flagged (session : Nat)
  | acquired (session : Nat)
  | counted (session : Nat)
  | refused (session : Nat)
  | unflagged (session : Nat)
  | released (session : Nat)
  deriving DecidableEq

/-- A job in the queue, its delivery running, the delivery over and counted out, the flag
cleared. The release of the reference is the job's last step. -/
inductive JobStage where
  | queued
  | running
  | counted
  | cleared
  deriving DecidableEq

structure DeliveryJob where
  session : Nat
  stage : JobStage
  deriving DecidableEq

/-- `inFlight` is `delivery_in_flight` of each session and `refs` its reference count;
`others` are the references of everyone but the executor. -/
structure ExecutorRun where
  inFlight : Nat → Bool
  refs : Nat → Nat
  others : Nat → Nat
  inflightCurrent : UInt64
  jobs : Multiset DeliveryJob
  phase : VisitPhase

/-- `answer` is what the reactor's step finds out: that the wait's deadline has passed, that
the composition succeeded, that the pool took the job. -/
inductive ExecutorOp where
  | visit (session : Nat) (compose : Bool)
  | reactor (answer : Bool)
  | worker (job : DeliveryJob)
  | acquire (session : Nat)
  | release (session : Nat)

section Steps

variable (r : ExecutorRun)

def ExecutorRun.setFlag (session : Nat) (flag : Bool) : ExecutorRun :=
  { r with inFlight := update r.inFlight session flag }

def ExecutorRun.addRefs (session : Nat) (n : Nat) : ExecutorRun :=
  { r with refs := update r.refs session (r.refs session + n) }

def ExecutorRun.dropRef (session : Nat) : ExecutorRun :=
  { r with refs := update r.refs session (r.refs session - 1) }

/-- The next access of `gateway_tick_visit_session` and `gateway_delivery_executor_deliver`. -/
def ExecutorRun.reactor (answer : Bool) : ExecutorRun :=
  match r.phase with
  | .idle => r
  | .waiting s =>
    if r.inFlight s = false then { r with phase := .composing s }
    else if answer then { r with phase := .delivering s }
    else r
  | .composing s => { r with phase := if answer then .delivering s else .idle }
  | .delivering s => { r with phase := if r.inFlight s then .idle else .unclaimed s }
  | .unclaimed s => { r.setFlag s true with phase := .flagged s }
  | .flagged s => { r.addRefs s 1 with phase := .acquired s }
  | .acquired s => { r with inflightCurrent := r.inflightCurrent + 1, phase := .counted s }
  | .counted s =>
    if answer then { r with jobs := ⟨s, .queued⟩ ::ₘ r.jobs, phase := .idle }
    else { r with phase := .refused s }
  | .refused s => { r.setFlag s false with phase := .unflagged s }
  | .unflagged s => { r.dropRef s with phase := .released s }
  | .released _ => { r with inflightCurrent := r.inflightCurrent - 1, phase := .idle }

/-- The next access of `gateway_delivery_job_run`. -/
def ExecutorRun.worker (job : DeliveryJob) : ExecutorRun :=
  if job ∈ r.jobs then
    let rest := r.jobs.erase job
    match job.stage with
    | .queued => { r with jobs := ⟨job.session, .running⟩ ::ₘ rest }
    | .running =>
      { r with inflightCurrent := r.inflightCurrent - 1, jobs := ⟨job.session, .counted⟩ ::ₘ rest }
    | .counted => { r.setFlag job.session false with jobs := ⟨job.session, .cleared⟩ ::ₘ rest }
    | .cleared => { r.dropRef job.session with jobs := rest }
  else r

def ExecutorRun.next : ExecutorOp → ExecutorRun
  | .visit s compose =>
    if r.phase = .idle then { r with phase := if compose then .waiting s else .delivering s } else r
  | .reactor answer => r.reactor answer
  | .worker job => r.worker job
  | .acquire s => { r.addRefs s 1 with others := update r.others s (r.others s + 1) }
  | .release s =>
    if 0 < r.others s then { r.dropRef s with others := update r.others s (r.others s - 1) }
    else r

/-- A gateway with its executor; `others` are the references its sessions start with. -/
def ExecutorRun.start (others : Nat → Nat) : ExecutorRun :=
  ⟨fun _ => false, others, others, 0, 0, .idle⟩

end Steps

section Accounting

/-- The reactor has set the flag of the session and not handed it over. -/
def VisitPhase.flags : VisitPhase → Nat → Nat
  | .flagged s, t | .acquired s, t | .counted s, t | .refused s, t => if s = t then 1 else 0
  | _, _ => 0

/-- The reactor has a reference on the session that it has not handed over. -/
def VisitPhase.refers : VisitPhase → Nat → Nat
  | .acquired s, t | .counted s, t | .refused s, t | .unflagged s, t => if s = t then 1 else 0
  | _, _ => 0

/-- A submission is counted and neither accepted nor taken back. -/
def VisitPhase.submits : VisitPhase → Nat
  | .counted _ | .refused _ | .unflagged _ | .released _ => 1
  | _ => 0

/-- A job that is queued or running, up to the moment it clears the flag. -/
def DeliveryJob.Active (s : Nat) (job : DeliveryJob) : Prop :=
  job.session = s ∧ job.stage ≠ .cleared

def DeliveryJob.Unfinished (job : DeliveryJob) : Prop := job.stage = .queued ∨ job.stage = .running

instance (s : Nat) : DecidablePred (DeliveryJob.Active s) :=
  fun job => inferInstanceAs (Decidable (job.session = s ∧ job.stage ≠ .cleared))

instance : DecidablePred DeliveryJob.Unfinished :=
  fun job => inferInstanceAs (Decidable (job.stage = .queued ∨ job.stage = .running))

structure ExecutorRun.Accounted (r : ExecutorRun) : Prop where
  flag : ∀ s, r.jobs.countP (DeliveryJob.Active s) + r.phase.flags s = if r.inFlight s then 1 else 0
  free : ∀ s, r.phase = .composing s ∨ r.phase = .unclaimed s → r.inFlight s = false
  count : r.inflightCurrent = .ofNat (r.jobs.countP DeliveryJob.Unfinished + r.phase.submits)
  refs : ∀ s, r.refs s = r.others s + r.jobs.countP (·.session = s) + r.phase.refers s

variable {r : ExecutorRun}

/-- A job counts for its session until it has cleared the flag, and for the count of the
executor until it has taken itself out. -/
theorem countP_active (s t : Nat) (stage : JobStage) (rest : Multiset DeliveryJob) :
    (⟨s, stage⟩ ::ₘ rest).countP (DeliveryJob.Active t) =
      rest.countP (DeliveryJob.Active t) + if s = t ∧ stage ≠ .cleared then 1 else 0 :=
  countP_cons ..

theorem countP_unfinished (s : Nat) (stage : JobStage) (rest : Multiset DeliveryJob) :
    (⟨s, stage⟩ ::ₘ rest).countP DeliveryJob.Unfinished =
      rest.countP DeliveryJob.Unfinished + if stage = .queued ∨ stage = .running then 1 else 0 :=
  countP_cons ..

section

variable (accounted : r.Accounted)
include accounted

theorem ExecutorRun.Accounted.turn {p q : VisitPhase} (now : r.phase = q)
    (flags : p.flags = q.flags) (refers : p.refers = q.refers) (submits : p.submits = q.submits)
    (free : ∀ s, p = .composing s ∨ p = .unclaimed s → r.inFlight s = false) :
    ExecutorRun.Accounted { r with phase := p } := by
  obtain ⟨flag, _, count, refs⟩ := accounted
  rw [now, ← flags] at flag
  rw [now, ← submits] at count
  rw [now, ← refers] at refs
  exact ⟨flag, free, count, refs⟩

theorem ExecutorRun.Accounted.reactor (answer : Bool) : (r.reactor answer).Accounted := by
  have ⟨flag, free, count, refs⟩ := accounted
  rw [ExecutorRun.reactor]
  cases now : r.phase with
  | idle => exact accounted
  | waiting s =>
    dsimp only
    split
    · rename_i idle
      refine accounted.turn now rfl rfl rfl ?_
      rintro t (⟨⟨⟩⟩ | ⟨⟨⟩⟩)
      exact idle
    · split
      · exact accounted.turn now rfl rfl rfl (by simp)
      · exact accounted
  | composing s =>
    cases answer with
    | true | false =>
      exact accounted.turn now rfl rfl rfl (by simp)
  | delivering s =>
    dsimp only
    split
    · exact accounted.turn now rfl rfl rfl (by simp)
    · rename_i idle
      refine accounted.turn now rfl rfl rfl ?_
      rintro t (⟨⟨⟩⟩ | ⟨⟨⟩⟩)
      simpa using idle
  | unclaimed s =>
    rw [now] at flag count refs
    refine ⟨?_, ?_, count, refs⟩
    · intro t
      have old := flag t
      simp only [VisitPhase.flags, ExecutorRun.setFlag, update_apply] at old ⊢
      grind
    · simp
  | flagged s =>
    rw [now] at flag count refs
    refine ⟨flag, ?_, count, ?_⟩
    · simp
    · intro t
      have old := refs t
      simp only [VisitPhase.refers, ExecutorRun.addRefs, update_apply] at old ⊢
      grind
  | acquired s =>
    rw [now] at flag count refs
    refine ⟨flag, ?_, ?_, refs⟩
    · simp
    · show r.inflightCurrent + 1 = .ofNat (_ + 1)
      rw [count, ofNat_succ]
      rfl
  | counted s =>
    rw [now] at flag count refs
    dsimp only
    split
    · refine ⟨?_, ?_, ?_, ?_⟩
      · intro t
        have old := flag t
        simp only [VisitPhase.flags, countP_active] at old ⊢
        grind
      · simp
      · simp only [countP_unfinished]
        exact count
      · intro t
        have old := refs t
        simp only [VisitPhase.refers, countP_cons] at old ⊢
        grind
    · exact accounted.turn now rfl rfl rfl (by simp)
  | refused s =>
    rw [now] at flag count refs
    refine ⟨?_, ?_, count, refs⟩
    · intro t
      have old := flag t
      simp only [VisitPhase.flags, ExecutorRun.setFlag, update_apply] at old ⊢
      grind
    · simp
  | unflagged s =>
    rw [now] at flag count refs
    refine ⟨flag, ?_, count, ?_⟩
    · simp
    · intro t
      have old := refs t
      simp only [VisitPhase.refers, ExecutorRun.dropRef, update_apply] at old ⊢
      grind
  | released s =>
    rw [now] at flag count refs
    refine ⟨flag, ?_, ?_, refs⟩
    · simp
    · have one : r.inflightCurrent = .ofNat (r.jobs.countP DeliveryJob.Unfinished) + 1 := by
        rw [count, ← ofNat_succ]
        rfl
      show r.inflightCurrent - 1 = .ofNat (_ + 0)
      rw [one, Nat.add_zero]
      grind

theorem ExecutorRun.Accounted.worker (job : DeliveryJob) : (r.worker job).Accounted := by
  have ⟨flag, free, count, refs⟩ := accounted
  rw [ExecutorRun.worker]
  split
  · rename_i member
    obtain ⟨s, stage⟩ := job
    have jobs := (cons_erase member).symm
    generalize r.jobs.erase ⟨s, stage⟩ = rest at jobs
    rw [jobs] at flag count refs
    simp only [countP_active] at flag
    simp only [countP_unfinished] at count
    simp only [countP_cons] at refs
    cases stage with
    | queued =>
      refine ⟨?_, free, ?_, ?_⟩
      · intro t
        simp only [countP_active]
        grind
      · simp only [countP_unfinished]
        exact count
      · simp only [countP_cons]
        exact refs
    | running =>
      refine ⟨?_, free, ?_, ?_⟩
      · intro t
        simp only [countP_active]
        grind
      · simp only [reduceCtorEq, or_true, if_true] at count
        simp only [countP_unfinished, reduceCtorEq, or_false, if_false, Nat.add_zero]
        rw [count, Nat.add_right_comm, ofNat_succ]
        grind
      · simp only [countP_cons]
        exact refs
    | counted =>
      refine ⟨?_, ?_, ?_, ?_⟩
      · intro t
        simp only [countP_active, ExecutorRun.setFlag, update_apply]
        grind
      · intro t busy
        have idle := free t busy
        simp only [ExecutorRun.setFlag, update_apply]
        grind
      · simp only [countP_unfinished]
        exact count
      · simp only [countP_cons]
        exact refs
    | cleared =>
      refine ⟨?_, free, ?_, ?_⟩
      · intro t
        simp only [ExecutorRun.dropRef]
        grind
      · exact count
      · intro t
        simp only [ExecutorRun.dropRef, update_apply]
        grind
  · exact accounted

theorem ExecutorRun.Accounted.next (op : ExecutorOp) : (r.next op).Accounted := by
  have ⟨flag, free, count, refs⟩ := accounted
  cases op with
  | visit s compose =>
    rw [ExecutorRun.next]
    split
    · rename_i idle
      cases compose with
      | true | false =>
        exact accounted.turn idle rfl rfl rfl (by simp)
    · exact accounted
  | reactor answer => exact accounted.reactor answer
  | worker job => exact accounted.worker job
  | acquire s =>
    refine ⟨flag, free, count, ?_⟩
    intro t
    simp only [ExecutorRun.next, ExecutorRun.addRefs, update_apply]
    grind
  | release s =>
    rw [ExecutorRun.next]
    split
    · refine ⟨flag, free, count, ?_⟩
      intro t
      simp only [ExecutorRun.dropRef, update_apply]
      grind
    · exact accounted

end

/-- A job runs while the reactor comes back to its session and finds the flag set. -/
def revisitedRun : ExecutorRun :=
  ([ExecutorOp.visit 3 false] ++ List.replicate 5 (ExecutorOp.reactor true) ++
    [ExecutorOp.worker ⟨3, .queued⟩, .visit 3 false, .reactor true]).foldl ExecutorRun.next
      (.start fun _ => 1)

end Accounting

end Kith.Gateway
