import Kith.Gateway.Cache
import Kith.Lib.SortedArray

/-!
# The identity a composed view is built around

Binding an actor stores the identity and then, under the window lock, moves the
window counter. The composer on the reactor thread takes the counter with its
window snapshot and reads the identity again whenever it needs it: for the skip
check, for each attempt to locate the subscriber, for the self record and for
the skip baseline. Each access is one step here, and binders move in between.
-/

namespace Kith.Gateway

open Runs

/-- `subjects[0]`: its id, and the row that its position, velocity, tick and sequence are
copied from. -/
structure SelfSubject where
  actorId : UInt64
  sub : Artifact

structure SkipBaseline where
  windowSeq : UInt64
  actorId : UInt64
  budget : Nat
  deriving DecidableEq

/-- Where the composer stands; `windowSeq` is the counter of its snapshot. -/
inductive ComposePhase where
  | idle
  | snapped (windowSeq : UInt64)
  | rebuilding (windowSeq : UInt64)
  | missed (windowSeq : UInt64)
  | located (windowSeq : UInt64) (sub : Artifact)
  | selected (windowSeq : UInt64)

/-- A session with its composer. `binders` counts the binds that have stored their identity
and not yet moved the counter; no self record is there before the first composition, and
no baseline before the first one that got to its end. -/
structure IdentityRun where
  actorId : UInt64
  windowSeq : UInt64
  binders : Nat
  budget : Nat
  self : Option SelfSubject
  baseline : Option SkipBaseline
  phase : ComposePhase

section Composer

/-- The first cached window cell that holds the actor. -/
def gatewayViewLocate (cells : List (Option CacheNode)) (actorId : UInt64) : Option Artifact :=
  cells.findSome? fun cell => cell.bind fun n =>
    (SortedArray.find (fun a : Artifact => a.actorId.toNat) n.rows actorId.toNat).bind fun i =>
      n.rows[i]?

def gatewayViewSkipCandidate (r : IdentityRun) (windowSeq : UInt64) : Bool :=
  r.self.isSome ∧ r.baseline = some ⟨windowSeq, r.actorId, r.budget⟩

/-- `same` is what the content sequences of the window's cells say, `cells` what the window
caches at that moment; a flag `granted` or `ready` tells whether the allocations before the
next read of the identity were granted, and `reconciled` whether some cell was repaired. -/
inductive IdentityOp where
  | store (actorId : UInt64)
  | bump
  | mutate
  | snapshot (granted : Bool)
  | check (same : Bool)
  | locate (ready : Bool) (cells : List (Option CacheNode))
  | repair (reconciled : Bool) (cells : List (Option CacheNode))
  | select (granted : Bool)
  | record (granted : Bool)

/-- What a failed or finished attempt to locate leads to. -/
def ComposePhase.found (windowSeq : UInt64) (sub : Option Artifact) (otherwise : ComposePhase) :
    ComposePhase :=
  sub.elim otherwise (.located windowSeq)

def IdentityRun.next (r : IdentityRun) (op : IdentityOp) : IdentityRun :=
  match op, r.phase with
  | .store actorId, _ => { r with actorId := actorId, binders := r.binders + 1 }
  | .bump, _ =>
    if 0 < r.binders then { r with windowSeq := r.windowSeq + 1, binders := r.binders - 1 } else r
  -- A window change by another call, which moves the counter too.
  | .mutate, _ => { r with windowSeq := r.windowSeq + 1 }
  | .snapshot granted, .idle => if granted then { r with phase := .snapped r.windowSeq } else r
  | .check same, .snapped w =>
    if gatewayViewSkipCandidate r w ∧ same then { r with phase := .idle }
    else { r with phase := .rebuilding w }
  | .locate ready cells, .rebuilding w =>
    { r with phase :=
        if ready then .found w (gatewayViewLocate cells r.actorId) (.missed w) else .idle }
  | .repair reconciled cells, .missed w =>
    { r with phase := if reconciled then .found w (gatewayViewLocate cells r.actorId) .idle
      else .idle }
  | .select granted, .located w sub =>
    if granted then { r with self := some ⟨r.actorId, sub⟩, phase := .selected w }
    else { r with phase := .idle }
  | .record granted, .selected w =>
    if granted then { r with baseline := some ⟨w, r.actorId, r.budget⟩, phase := .idle }
    else { r with phase := .idle }
  | _, _ => r

def IdentityRun.start (budget : Nat) : IdentityRun := ⟨0, 0, 0, budget, none, none, .idle⟩

end Composer

section Identity

variable {r : IdentityRun} {cells : List (Option CacheNode)}

theorem actorId_of_locate {actorId : UInt64} {sub : Artifact}
    (found : gatewayViewLocate cells actorId = some sub) : sub.actorId = actorId := by
  obtain ⟨cell, _, here⟩ := List.exists_of_findSome?_eq_some found
  obtain ⟨n, _, here⟩ := Option.bind_eq_some_iff.mp here
  obtain ⟨i, at_i, row⟩ := Option.bind_eq_some_iff.mp here
  rw [SortedArray.find] at at_i
  split at at_i
  · cases at_i
  · rename_i x lower
    split at at_i
    · rename_i same
      cases at_i
      rw [lower] at row
      cases row
      exact UInt64.toNat_inj.mp same
    · cases at_i

/-- The counter as it will be when every bind that has stored its identity is through. -/
def IdentityRun.due (r : IdentityRun) : Nat := r.windowSeq.toNat + r.binders

def SelfSubject.Mixed (s : SelfSubject) : Prop := s.sub.actorId ≠ s.actorId

/-- A mixed self record is older than the counter `seq`: the baseline cannot match it. -/
def IdentityRun.Outdated (r : IdentityRun) (seq : Nat) : Prop :=
  ∀ s b, r.self = some s → s.Mixed → r.baseline = some b → b.windowSeq.toNat < seq

/-- The counter of the snapshot a composition works with. -/
def ComposePhase.seq : ComposePhase → Option UInt64
  | .idle => none
  | .snapped w | .rebuilding w | .missed w | .located w _ | .selected w => some w

/-- What a composition in progress can rely on. As long as the due counter is the one of
its snapshot, nothing was stored since. -/
def IdentityRun.Underway (r : IdentityRun) : ComposePhase → Prop
  | .snapped w => r.Outdated w.toNat
  | .located w sub => r.due = w.toNat → sub.actorId = r.actorId
  | .selected w => ∀ s, r.self = some s → s.Mixed → w.toNat < r.due
  | _ => True

structure IdentityRun.Sound (r : IdentityRun) : Prop where
  past : ∀ b, r.baseline = some b → b.windowSeq.toNat ≤ r.windowSeq.toNat
  outdated : r.Outdated r.due
  snapshot : ∀ w, r.phase.seq = some w → w.toNat ≤ r.windowSeq.toNat ∧
    ∀ b, r.baseline = some b → b.windowSeq.toNat ≤ w.toNat
  underway : r.Underway r.phase

/-- A binder's step, or another one that moves the counter: what is stored makes the due
counter grow. -/
theorem IdentityRun.Sound.advance {r' : IdentityRun} (sound : r.Sound) (self : r'.self = r.self)
    (baseline : r'.baseline = r.baseline) (phase : r'.phase = r.phase)
    (seq : r.windowSeq.toNat ≤ r'.windowSeq.toNat)
    (due : r.due < r'.due ∨ r'.due = r.due ∧ r'.actorId = r.actorId) : r'.Sound := by
  have grown : r.due ≤ r'.due := by omega
  constructor
  · intro b recorded
    rw [baseline] at recorded
    exact (sound.past b recorded).trans seq
  · intro s b stored mixed recorded
    rw [self] at stored
    rw [baseline] at recorded
    exact (sound.outdated s b stored mixed recorded).trans_le grown
  · intro w working
    rw [phase] at working
    rw [baseline]
    obtain ⟨old, after⟩ := sound.snapshot w working
    exact ⟨old.trans seq, after⟩
  · have underway := sound.underway
    rw [phase]
    cases now : r.phase with
    | idle | rebuilding w | missed w => trivial
    | snapped w =>
      rw [now] at underway
      intro s b stored mixed recorded
      rw [self] at stored
      rw [baseline] at recorded
      exact underway s b stored mixed recorded
    | located w sub =>
      rw [now] at underway
      have old := (sound.snapshot w (by rw [now]; rfl)).1
      have below : r.windowSeq.toNat ≤ r.due := Nat.le_add_right ..
      intro still
      rcases due with more | ⟨same, actor⟩
      · omega
      · rw [actor]
        exact underway (same ▸ still)
    | selected w =>
      rw [now] at underway
      intro s stored mixed
      rw [self] at stored
      exact (underway s stored mixed).trans_le grown

theorem IdentityRun.Sound.turn {p : ComposePhase} (sound : r.Sound)
    (seq : ∀ w, p.seq = some w → r.phase.seq = some w) (underway : r.Underway p) :
    IdentityRun.Sound { r with phase := p } :=
  ⟨sound.past, sound.outdated, fun w working => sound.snapshot w (seq w working), by
    cases p with
    | idle | rebuilding w | missed w => trivial
    | snapped w | located w sub => exact underway
    | selected w => exact underway⟩

theorem IdentityRun.Sound.stop (sound : r.Sound) : IdentityRun.Sound { r with phase := .idle } :=
  sound.turn (fun _ working => by cases working) trivial

theorem IdentityRun.Sound.found {w : UInt64} {otherwise : ComposePhase} (sound : r.Sound)
    (working : r.phase.seq = some w) (missed : IdentityRun.Sound { r with phase := otherwise }) :
    IdentityRun.Sound { r with
      phase := .found w (gatewayViewLocate cells r.actorId) otherwise } := by
  cases located : gatewayViewLocate cells r.actorId with
  | none => exact missed
  | some sub =>
    refine sound.turn ?_ fun _ => actorId_of_locate located
    rintro _ ⟨⟩
    exact working

/-- The condition on a step: no window snapshot is taken while a bind stands between its
store and its counter, and the counter does not wrap. -/
def IdentityRun.Calm (r : IdentityRun) : IdentityOp → Prop
  | .snapshot _ => r.binders = 0
  | .bump | .mutate => r.windowSeq.toNat + 1 < 2 ^ 64
  | _ => True

theorem IdentityRun.Sound.next (sound : r.Sound) {op : IdentityOp} (calm : r.Calm op) :
    (r.next op).Sound := by
  have moved (calm : r.windowSeq.toNat + 1 < 2 ^ 64) :
      (r.windowSeq + 1).toNat = r.windowSeq.toNat + 1 := by
    rw [UInt64.toNat_add, UInt64.toNat_one, Nat.mod_eq_of_lt calm]
  unfold IdentityRun.next
  split
  · exact sound.advance rfl rfl rfl le_rfl (.inl (by simp only [IdentityRun.due]; omega))
  · split
    · have counter := moved calm
      refine sound.advance rfl rfl rfl (by dsimp only; omega) (.inr ⟨?_, rfl⟩)
      simp only [IdentityRun.due]
      omega
    · exact sound
  · have counter := moved calm
    refine sound.advance rfl rfl rfl (by dsimp only; omega) (.inl ?_)
    simp only [IdentityRun.due]
    omega
  · split
    · have settled : r.due = r.windowSeq.toNat := by
        rw [IdentityRun.due, show r.binders = 0 from calm, Nat.add_zero]
      have outdated := sound.outdated
      rw [settled] at outdated
      refine ⟨sound.past, sound.outdated, ?_, outdated⟩
      rintro _ ⟨⟩
      exact ⟨le_rfl, sound.past⟩
    · exact sound
  · rename_i w now
    split
    · exact sound.stop
    · exact sound.turn (by rintro _ ⟨⟩; rw [now]; rfl) trivial
  · rename_i w now
    split
    · exact sound.found (by rw [now]; rfl) (sound.turn (by rintro _ ⟨⟩; rw [now]; rfl) trivial)
    · exact sound.stop
  · rename_i w now
    split
    · exact sound.found (by rw [now]; rfl) sound.stop
    · exact sound.stop
  · rename_i w sub now
    split
    · obtain ⟨old, after⟩ := sound.snapshot w (by rw [now]; rfl)
      have located := sound.underway
      rw [now] at located
      have below : r.windowSeq.toNat ≤ r.due := Nat.le_add_right ..
      -- The identity of the record differs from the located one only after a store.
      have behind :
          ∀ s, some (SelfSubject.mk r.actorId sub) = some s → s.Mixed → w.toNat < r.due := by
        rintro _ ⟨⟩ mixed
        have moved : r.due ≠ w.toNat := fun still => mixed (located still)
        omega
      refine ⟨sound.past, ?_, ?_, behind⟩
      · intro s b stored mixed recorded
        exact (after b recorded).trans_lt (behind s stored mixed)
      · rintro _ ⟨⟩
        exact ⟨old, after⟩
    · exact sound.stop
  · rename_i w now
    split
    · obtain ⟨old, after⟩ := sound.snapshot w (by rw [now]; rfl)
      have behind := sound.underway
      rw [now] at behind
      refine ⟨?_, ?_, ?_, trivial⟩
      · rintro _ ⟨⟩
        exact old
      · rintro s _ stored mixed ⟨⟩
        exact behind s stored mixed
      · rintro _ ⟨⟩
    · exact sound.stop
  · exact sound

theorem start_sound (budget : Nat) : (IdentityRun.start budget).Sound := by
  refine ⟨?_, ?_, ?_, trivial⟩
  · rintro _ ⟨⟩
  · rintro _ _ ⟨⟩
  · rintro _ ⟨⟩

/-- In every run in which no window snapshot is taken while a bind stands between its store
and its counter: a composition that is about to skip keeps a self record whose id and
position are of one actor. -/
theorem skip_keeps_one_identity {budget : Nat}
    (path : Path IdentityRun.next IdentityRun.Calm (.start budget) r) {w : UInt64}
    (snapped : r.phase = .snapped w) (skips : gatewayViewSkipCandidate r w = true) :
    ∃ s, r.self = some s ∧ s.sub.actorId = s.actorId := by
  have sound := path.invariant IdentityRun.Sound (fun r op sound calm => sound.next calm)
    (start_sound budget)
  simp only [gatewayViewSkipCandidate, decide_eq_true_eq, Option.isSome_iff_exists] at skips
  obtain ⟨⟨s, stored⟩, recorded⟩ := skips
  have outdated := sound.underway
  rw [snapped] at outdated
  refine ⟨s, stored, ?_⟩
  by_contra mixed
  exact absurd (outdated s _ stored mixed recorded) (Nat.lt_irrefl _)

def actorCell (actorId : UInt64) : Option CacheNode :=
  some { CacheNode.zero with
    artifacts := some [⟨actorId, 0, 0, 0, 0, 0, 0, 0, 0⟩], artifactCount := 1 }

/-- The composer locates actor 1; `stored` is what binders do before it builds the view. -/
def composedRun (stored : List IdentityOp) : IdentityRun :=
  ([IdentityOp.store 1, .bump, .snapshot true, .check false,
    .locate true [actorCell 1, actorCell 2]] ++
    stored ++ [IdentityOp.select true, .record true, .snapshot true]).foldl IdentityRun.next
      (.start 8)

theorem skip_keeps_one_identity_composed :
    ∃ s, (composedRun []).self = some s ∧ s.sub.actorId = s.actorId := by
  have path : Path IdentityRun.next IdentityRun.Calm (.start 8) (composedRun []) :=
    Allowed.path ⟨trivial, show (0 : UInt64).toNat + 1 < 2 ^ 64 by decide, rfl, trivial, trivial,
      trivial, trivial, rfl, trivial⟩
  exact skip_keeps_one_identity path (w := 1) rfl (by decide +kernel)

/-- A bind that stands between its store and its counter during two compositions: the
first one builds a record of actor 2 at the place of actor 1, the second one skips on it. -/
theorem stalled_bind_skips_mixed :
    (composedRun [.store 2]).phase = .snapped 1 ∧
      gatewayViewSkipCandidate (composedRun [.store 2]) 1 = true ∧
      (composedRun [.store 2]).self.map (fun s => (s.actorId, s.sub.actorId)) = some (2, 1) :=
  ⟨rfl, by decide +kernel, by decide +kernel⟩

end Identity

end Kith.Gateway
