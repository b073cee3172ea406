import Mathlib.Data.Nat.Count
import Kith.Gateway.SessionTable

/-!
# The rotation of the compose pass

A tick visits the sessions from a cursor on. The first session it meets is
composed; when the budget is used up, those with a view are deferred, and the next
tick starts at the first of them. The walk is followed on a line of positions, on
which the buckets repeat: the cursor moves on past at least one session whenever a
session is left out.
-/

namespace Kith.Gateway

open List

section Pass

/-- What the outside answers while a session is visited: its view, the clock, and
the results of `kith_gateway_view_refresh` and `kith_gateway_deliver`. -/
structure VisitAnswers where
  hasView : Bool
  now : UInt64
  refreshed : Rc
  delivered : Rc

/-- `struct gateway_tick_pass` with inline delivery; `visited` records the buckets
whose session was composed. -/
structure TickPass where
  budgetExhausted : Bool
  composed : UInt32
  deferredAny : Bool
  nextStart : Nat
  visited : List Nat

def gatewayTickShouldCompose (a : VisitAnswers) (passStartNs budgetNs : UInt64) (exhausted : Bool)
    (composed : UInt32) : Bool × Bool :=
  if a.hasView = false then (true, exhausted)
  else if composed = 0 then (true, exhausted)
  else if exhausted then (false, exhausted)
  else if a.now - passStartNs ≤ budgetNs then (true, exhausted)
  else (false, true)

/-- Whether the pass skips the session, and the error to propagate. -/
def gatewayTickComposeSession (a : VisitAnswers) : Bool × Rc :=
  match a.refreshed with
  | .ok => (false, .ok)
  | .err code => (true, if code = .estate then .ok else .err code)

def gatewayTickDeliverSession (a : VisitAnswers) : Rc :=
  if a.delivered = .err .estate then .ok else a.delivered

def gatewayTickVisitSession (pass : TickPass) (passStartNs budgetNs : UInt64) (a : VisitAnswers)
    (bucketIndex : Nat) : Rc × TickPass :=
  match gatewayTickShouldCompose a passStartNs budgetNs pass.budgetExhausted pass.composed with
  | (true, exhausted) =>
    let pass := { pass with
      budgetExhausted := exhausted
      composed := pass.composed + 1
      visited := pass.visited ++ [bucketIndex] }
    match gatewayTickComposeSession a with
    | (true, err) => (err, pass)
    | (false, _) => (gatewayTickDeliverSession a, pass)
  | (false, exhausted) =>
    (gatewayTickDeliverSession a, { pass with
      budgetExhausted := exhausted
      deferredAny := true
      nextStart := if pass.deferredAny then pass.nextStart else bucketIndex })

/-- The loop body: an empty bucket is passed over, and the first error is kept. -/
def visitBucket (t : GatewaySessionTable) (passStartNs budgetNs : UInt64)
    (answers : Nat → VisitAnswers) (start : Nat) (run : Rc × TickPass) (n : Nat) : Rc × TickPass :=
  let i := (start + n) % t.buckets
  match t.slots i with
  | none => run
  | some _ =>
    match gatewayTickVisitSession run.2 passStartNs budgetNs (answers i) i with
    | (err, pass) => (if run.1 = .ok then err else run.1, pass)

def gatewayTickSessionPass (t : GatewaySessionTable) (budgetUs : UInt32) (passStartNs : UInt64)
    (answers : Nat → VisitAnswers) (cursor : Nat) : Rc × TickPass :=
  let start := cursor % t.buckets
  (List.range t.buckets).foldl
    (visitBucket t passStartNs (budgetUs.toUInt64 * 1000) answers start)
    (.ok, ⟨false, 0, false, (start + 1) % t.buckets, []⟩)

end Pass

section Walk

variable {t : GatewaySessionTable} {passStartNs budgetNs : UInt64} {answers : Nat → VisitAnswers}
  {x y n : Nat} {run : Rc × TickPass}

def GatewaySessionTable.at (t : GatewaySessionTable) (x : Nat) : Bool :=
  (t.slots (x % t.buckets)).isSome

def GatewaySessionTable.sessions (t : GatewaySessionTable) : Nat :=
  Nat.count (fun i => (t.slots i).isSome = true) t.buckets

def GatewaySessionTable.before (t : GatewaySessionTable) (x : Nat) : Nat :=
  Nat.count (fun k => t.at k = true) x

/-- What a walk from `x` over the next `n` positions leaves. -/
structure Walked (t : GatewaySessionTable) (x n : Nat) (pass : TickPass) : Prop where
  fresh : (∀ k < n, t.at (x + k) = false) → pass.composed = 0
  whole : pass.deferredAny = false →
    ∀ k < n, t.at (x + k) = true → (x + k) % t.buckets ∈ pass.visited
  deferred : pass.deferredAny = true → ∃ m, pass.nextStart = (x + m) % t.buckets ∧
    (∃ k < m, t.at (x + k) = true) ∧
    ∀ k < m, t.at (x + k) = true → (x + k) % t.buckets ∈ pass.visited

theorem visitSession_cases (pass : TickPass) (passStartNs budgetNs : UInt64) (a : VisitAnswers)
    (i : Nat) :
    (∃ exhausted, (gatewayTickVisitSession pass passStartNs budgetNs a i).2 = { pass with
        budgetExhausted := exhausted
        composed := pass.composed + 1
        visited := pass.visited ++ [i] }) ∨
      pass.composed ≠ 0 ∧ ∃ exhausted,
        (gatewayTickVisitSession pass passStartNs budgetNs a i).2 = { pass with
          budgetExhausted := exhausted
          deferredAny := true
          nextStart := if pass.deferredAny then pass.nextStart else i } := by
  unfold gatewayTickVisitSession
  rcases asked : gatewayTickShouldCompose a passStartNs budgetNs pass.budgetExhausted pass.composed
    with ⟨_ | _, exhausted⟩
  · refine .inr ⟨fun none_yet => ?_, exhausted, rfl⟩
    simp [gatewayTickShouldCompose, none_yet] at asked
  · refine .inl ⟨exhausted, ?_⟩
    dsimp only
    split <;> rfl

theorem Walked.skip (walked : Walked t x n run.2) (empty : t.at (x + n) = false) :
    Walked t x (n + 1) run.2 where
  fresh none_there := walked.fresh fun k hk => none_there k (Nat.lt_succ_of_lt hk)
  whole all k hk session := by
    rcases Nat.lt_succ_iff_lt_or_eq.mp hk with before | rfl
    · exact walked.whole all k before session
    · rw [empty] at session
      cases session
  deferred := walked.deferred

/-- One more position. -/
theorem Walked.step (walked : Walked t x n run.2) :
    Walked t x (n + 1) (visitBucket t passStartNs budgetNs answers (x % t.buckets) run n).2 := by
  simp only [visitBucket, Nat.mod_add_mod]
  cases found : t.slots ((x + n) % t.buckets) with
  | none => exact walked.skip (by simp [GatewaySessionTable.at, found])
  | some s =>
    have busy : ¬ ∀ k < n + 1, t.at (x + k) = false := fun none_there => by
      simpa [GatewaySessionTable.at, found] using none_there n (Nat.lt_succ_self n)
    rcases visitSession_cases run.2 passStartNs budgetNs (answers ((x + n) % t.buckets))
      ((x + n) % t.buckets) with ⟨exhausted, left⟩ | ⟨later, exhausted, left⟩
    · rw [left]
      refine ⟨fun none_there => absurd none_there busy, fun all k hk here => ?_, fun put_off => ?_⟩
      · rcases Nat.lt_succ_iff_lt_or_eq.mp hk with before | rfl
        · exact mem_append_left _ (walked.whole all k before here)
        · exact mem_append_right _ (mem_singleton_self _)
      · obtain ⟨m, next, earlier, seen⟩ := walked.deferred put_off
        exact ⟨m, next, earlier, fun k hk here => mem_append_left _ (seen k hk here)⟩
    · rw [left]
      refine ⟨fun none_there => absurd none_there busy, fun none_put_off => (by cases none_put_off),
        fun _ => ?_⟩
      cases before : run.2.deferredAny with
      | true => exact walked.deferred before
      | false =>
        -- the first one put off is not the first session of the pass
        refine ⟨n, rfl, ?_, walked.whole before⟩
        by_contra none_earlier
        refine later (walked.fresh fun k hk => ?_)
        simpa using fun here => none_earlier ⟨k, hk, here⟩

theorem sessionPass_moves {budgetUs : UInt32} {cursor : Nat}
    (start : cursor % t.buckets = x % t.buckets)
    (inside : x ≤ y ∧ y < x + t.buckets) (session : t.at y = true) :
    y % t.buckets ∈ (gatewayTickSessionPass t budgetUs passStartNs answers cursor).2.visited ∨
      ∃ z, (gatewayTickSessionPass t budgetUs passStartNs answers cursor).2.nextStart =
        z % t.buckets ∧ x ≤ z ∧ z ≤ y ∧ t.before x < t.before z := by
  have walked : ∀ n, Walked t x n ((range n).foldl
      (visitBucket t passStartNs (budgetUs.toUInt64 * 1000) answers (x % t.buckets))
      (.ok, ⟨false, 0, false, (x % t.buckets + 1) % t.buckets, []⟩)).2 := by
    intro n
    induction n with
    | zero =>
      exact ⟨fun _ => rfl, fun _ k hk => absurd hk k.not_lt_zero, fun put_off => by cases put_off⟩
    | succ n ih =>
      rw [range_succ, foldl_append]
      exact ih.step
  have done := walked t.buckets
  obtain ⟨d, rfl⟩ := Nat.exists_eq_add_of_le inside.1
  simp only [gatewayTickSessionPass, start]
  generalize (range t.buckets).foldl _ _ = run at done ⊢
  cases put_off : run.2.deferredAny with
  | false => exact .inl (done.whole put_off d (by omega) session)
  | true =>
    obtain ⟨m, next, ⟨k, before, there⟩, seen⟩ := done.deferred put_off
    by_cases early : d < m
    · exact .inl (seen d early session)
    · refine .inr ⟨x + m, next, by omega, by omega, ?_⟩
      exact (Nat.count_monotone _ (Nat.le_add_right x k)).trans_lt
        (Nat.count_strict_mono there (by omega))

end Walk

/-- The cursor before pass number `k`; the budget is the same in all, the clock and the
answers are any. -/
def cursorAt (t : GatewaySessionTable) (budgetUs : UInt32) (clock : Nat → UInt64)
    (answers : Nat → Nat → VisitAnswers) (cursor : Nat) : Nat → Nat
  | 0 => cursor
  | k + 1 => (gatewayTickSessionPass t budgetUs (clock k) (answers k)
      (cursorAt t budgetUs clock answers cursor k)).2.nextStart

/-- The buckets that pass number `k` composes. -/
def composedIn (t : GatewaySessionTable) (budgetUs : UInt32) (clock : Nat → UInt64)
    (answers : Nat → Nat → VisitAnswers) (cursor k : Nat) : List Nat :=
  (gatewayTickSessionPass t budgetUs (clock k) (answers k)
    (cursorAt t budgetUs clock answers cursor k)).2.visited

section Coverage

variable {t : GatewaySessionTable} {budgetUs : UInt32} {clock : Nat → UInt64}
  {answers : Nat → Nat → VisitAnswers} {cursor x y : Nat}

theorem composed_within (n k : Nat)
    (start : cursorAt t budgetUs clock answers cursor k % t.buckets = x % t.buckets)
    (inside : x ≤ y ∧ y < x + t.buckets) (session : t.at y = true)
    (near : t.before y < t.before x + n) :
    ∃ j < n, y % t.buckets ∈ composedIn t budgetUs clock answers cursor (k + j) := by
  induction n generalizing k x with
  | zero => exact absurd near (Nat.not_lt.mpr (Nat.count_monotone _ inside.1))
  | succ n ih =>
    have moves : y % t.buckets ∈ composedIn t budgetUs clock answers cursor k ∨ _ :=
      sessionPass_moves start inside session
    rcases moves with seen | ⟨z, next, forward, behind, fewer⟩
    · exact ⟨0, Nat.succ_pos n, seen⟩
    · have next' :
          cursorAt t budgetUs clock answers cursor (k + 1) % t.buckets = z % t.buckets := by
        rw [cursorAt, next, Nat.mod_mod]
      obtain ⟨j, few, seen⟩ := ih (k + 1) next' ⟨behind, by omega⟩ (by omega)
      exact ⟨j + 1, Nat.succ_lt_succ few, by rw [Nat.add_comm j, ← Nat.add_assoc]; exact seen⟩

/-- A round of the line has every session once. -/
theorem before_round (t : GatewaySessionTable) (x : Nat) :
    t.before (x + t.buckets) = t.before x + t.sessions := by
  have again : (fun k => t.at (t.buckets + k) = true) = fun k => t.at k = true := by
    funext k
    rw [GatewaySessionTable.at, GatewaySessionTable.at, Nat.add_mod_left]
  have once : t.before t.buckets = t.sessions := by
    rw [GatewaySessionTable.before, GatewaySessionTable.sessions, Nat.count_eq_card_filter_range,
      Nat.count_eq_card_filter_range]
    congr 1
    refine Finset.filter_congr fun k member => ?_
    rw [GatewaySessionTable.at, Nat.mod_eq_of_lt (Finset.mem_range.mp member)]
  rw [Nat.add_comm, GatewaySessionTable.before, Nat.count_add, Nat.add_comm, ← once]
  simp only [again]
  rfl

/-- Two sessions in four buckets, and a clock that is always late. -/
def pairTable : GatewaySessionTable :=
  ⟨fun i => if i = 0 ∨ i = 2 then some ⟨i, 1, by decide⟩ else none, 4, 2, 2⟩

end Coverage

end Kith.Gateway
