import Kith.Coord.Refinement
import Kith.Fabric.Tables

/-!
# The epochs of the coord against the epochs of the fabric

A publisher passes the fabric the epoch the coord reports for the cell. The
fabric keeps the epoch of the last product it accepted and refuses a lower one,
so what matters is that no change of an override takes the reported epoch of a
cell below the retained one. The coord answers epoch 0 for a cell whose override
it has dropped, which is below any epoch an override has had.
-/

namespace Kith.Coord

open Kith.Fabric Function

/-- The epoch `kith_coord_authority` reports, from the override. -/
def reportedEpoch (o : Option Authority) : UInt32 := (o.map Authority.authorityEpoch).getD 0

theorem kithCoordAuthority_epoch (c : KithCoord) (bus : Option Bus) (key : CellKey) :
    (kithCoordAuthority c bus key).authorityEpoch = reportedEpoch (c.override key) := by
  rw [kithCoordAuthority_eq]
  cases c.override key <;> rfl

/-- The product the fabric retains for the key is no newer than the override. -/
def Permits (f : KithFabric) (key : CellKey) (o : Option Authority) : Prop :=
  ∀ node, f.product key = some node → node.authorityEpoch ≤ reportedEpoch o

instance (f : KithFabric) (key : CellKey) (o : Option Authority) : Decidable (Permits f key o) :=
  match h : f.product key with
  | none => isTrue (by simp [Permits, h])
  | some node => decidable_of_iff (node.authorityEpoch ≤ reportedEpoch o) (by simp [Permits, h])

/-- One coord and one fabric, with the results of the publishes made so far; a
publish that does not return has none. -/
structure EpochRun where
  coord : KithCoord
  fabric : KithFabric
  heap : Heap FabricSite
  results : List (Option Rc)

inductive EpochOp where
  | coord (op : CoordOp)
  | publish (bus : Option Bus) (key : CellKey) (actors : UInt32)
  | remove (key : CellKey)

/-- A publish passes the epoch that the coord reports at that moment. -/
def EpochRun.step (r : EpochRun) : EpochOp → EpochRun
  | .coord op => { r with coord := r.coord.apply op }
  | .publish bus key actors =>
    let epoch := (kithCoordAuthority r.coord bus key).authorityEpoch
    match kithFabricPublish r.fabric r.heap key epoch actors with
    | none => { r with results := r.results ++ [none] }
    | some (published, fabric, heap) =>
      { r with fabric := fabric, heap := heap, results := r.results ++ [some published.rc] }
  | .remove key => { r with fabric := (kithFabricRemoveCell r.fabric key).2 }

def EpochRun.run (r : EpochRun) (ops : List EpochOp) : EpochRun := ops.foldl EpochRun.step r

/-- No override changes to an epoch below that of the product the fabric retains
for the cell; an override that goes away counts as epoch 0. -/
def EpochRun.SteadyOp (r : EpochRun) : EpochOp → Prop
  | .coord (.set key instanceId) => r.coord.Stores key →
      Permits r.fabric key (some ⟨instanceId, r.coord.authorityEpochCounter + 1⟩)
  | .coord (.clear key) => Permits r.fabric key none
  | .coord (.rebalance contract) => contract.Lands r.coord →
      Permits r.fabric contract.key contract.outcome
  | .coord (.tick (some bus) heap nowMs) => ∀ v ∈ tickTrail ⟨r.coord, bus, heap⟩ nowMs,
      ∀ d, phasePlan nowMs v.1 v.2 = some d → d.Lands v.2.coord → Permits r.fabric d.key d.outcome
  | _ => True

def EpochRun.Steady : EpochRun → List EpochOp → Prop
  | _, [] => True
  | r, op :: ops => r.SteadyOp op ∧ (r.step op).Steady ops

/-- No publish at the reported epoch is stale. -/
structure Agree (c : KithCoord) (f : KithFabric) : Prop where
  coord : c.Valid
  fabric : f.Valid
  permits : ∀ key, Permits f key (c.override key)

variable {c c' : KithCoord} {f f' : KithFabric}

section

variable (agree : Agree c f) (valid : c'.Valid)
include agree valid

theorem Agree.keep (kept : c'.override = c.override) : Agree c' f :=
  ⟨valid, agree.fabric, fun key => kept ▸ agree.permits key⟩

theorem Agree.write {key : CellKey} {o : Option Authority}
    (written : c'.override = update c.override key o) (permits : Permits f key o) : Agree c' f := by
  refine ⟨valid, agree.fabric, fun k => ?_⟩
  by_cases hk : k = key
  · subst hk
    rwa [written, update_self]
  · rw [written, update_of_ne hk]
    exact agree.permits k

theorem Agree.writeIf {key : CellKey} {o : Option Authority} {p : Prop} [Decidable p]
    (written : c'.override = if p then update c.override key o else c.override)
    (permits : p → Permits f key o) : Agree c' f := by
  by_cases hp : p
  · rw [if_pos hp] at written
    exact agree.write valid written (permits hp)
  · rw [if_neg hp] at written
    exact agree.keep valid written

end

theorem Agree.phase {nowMs : UInt64} {v : Nat × Phase} {s : TickState} (agree : Agree s.coord f)
    (steady : ∀ d, phasePlan nowMs v s = some d → d.Lands s.coord → Permits f d.key d.outcome) :
    Agree (coordTickPhase nowMs v s).2.coord f := by
  cases planned : phasePlan nowMs v s with
  | none => rwa [coordTickPhase_of_plan_none planned]
  | some d =>
    have spec := coordTickPhase_of_plan_some agree.coord planned
    exact agree.writeIf spec.valid spec.override (steady d planned)

theorem Agree.tick {s : TickState} {nowMs : UInt64} (agree : Agree s.coord f)
    (steady : ∀ v ∈ tickTrail s nowMs, ∀ d, phasePlan nowMs v.1 v.2 = some d →
      d.Lands v.2.coord → Permits f d.key d.outcome) :
    Agree (coordTickOn s nowMs).2.coord f := by
  have counted : Agree s.coord.countTick f :=
    agree.keep (countTick_valid agree.coord) (countTick_override s.coord)
  refine (tick_invariant (P := fun t => Agree t.coord f) counted ?_ ?_).1
  · rwa [tickStart_coord]
  · intro v hv agree
    exact agree.phase (steady v hv)

variable {r : EpochRun}

theorem Agree.apply (agree : Agree r.coord r.fabric) {op : CoordOp}
    (steady : r.SteadyOp (.coord op)) : Agree (r.coord.apply op) r.fabric := by
  cases op with
  | set key instanceId =>
    obtain ⟨valid, written, _⟩ := kithCoordSetAuthority_spec agree.coord key instanceId
    exact agree.writeIf valid written steady
  | clear key =>
    obtain ⟨valid, written⟩ := kithCoordClearAuthority_spec agree.coord key
    exact agree.write valid written steady
  | rebalance contract =>
    obtain ⟨valid, written, _⟩ := kithCoordOnRebalance_spec agree.coord contract
    exact agree.writeIf valid written steady
  | report key actorCount nowMs =>
    have same := (kithCoordReportDensity_shards r.coord key actorCount nowMs).1
    exact agree.keep (valid_congr agree.coord same) (override_congr same)
  | tick bus heap nowMs =>
    cases bus with
    | none => exact agree.keep (countTick_valid agree.coord) (countTick_override r.coord)
    | some bus => exact agree.tick steady

/-- A publish at the reported epoch is not stale, and what it leaves is no newer
than what the coord reports. -/
theorem Agree.publish (agree : Agree c f) (heap : Heap FabricSite) (bus : Option Bus)
    (key : CellKey) (actors : UInt32) :
    ∃ r, kithFabricPublish f heap key (kithCoordAuthority c bus key).authorityEpoch actors =
      some r ∧ Agree c r.2.1 ∧ r.1.rc ≠ .err .eperm := by
  rw [kithCoordAuthority_epoch]
  obtain ⟨r, published, spec⟩ :=
    kithFabricPublish_spec agree.fabric heap key (reportedEpoch (c.override key)) actors
  refine ⟨r, published, ⟨agree.coord, spec.valid, fun k node found => ?_⟩, fun stale => ?_⟩
  · rw [spec.product] at found
    split at found
    · by_cases hk : k = key
      · subst hk
        rw [update_self, Option.some.injEq] at found
        subst found
        exact UInt32.le_refl _
      · rw [update_of_ne hk] at found
        exact agree.permits k node found
    · exact agree.permits k node found
  · obtain ⟨node, found, newer⟩ := spec.stale.mp stale
    exact UInt32.not_le.mpr newer (agree.permits key node found)

theorem Agree.remove (agree : Agree c f) (key : CellKey) :
    Agree c (kithFabricRemoveCell f key).2 := by
  obtain ⟨valid, erased⟩ := kithFabricRemoveCell_spec agree.fabric key
  refine ⟨agree.coord, valid, fun k node found => ?_⟩
  rw [erased] at found
  by_cases hk : k = key
  · rw [hk, update_self] at found
    cases found
  · rw [update_of_ne hk] at found
    exact agree.permits k node found

/-- A publish that returned, and was not refused as stale. -/
def Accepted (result : Option Rc) : Prop := ∃ rc, result = some rc ∧ rc ≠ .err .eperm

theorem EpochRun.step_agree (agree : Agree r.coord r.fabric)
    (accepted : ∀ result ∈ r.results, Accepted result) {op : EpochOp} (steady : r.SteadyOp op) :
    Agree (r.step op).coord (r.step op).fabric ∧
      ∀ result ∈ (r.step op).results, Accepted result := by
  cases op with
  | coord op => exact ⟨agree.apply steady, accepted⟩
  | remove key => exact ⟨agree.remove key, accepted⟩
  | publish bus key actors =>
    obtain ⟨⟨published, fabric, heap⟩, returned, after, fresh⟩ :=
      agree.publish r.heap bus key actors
    simp only [EpochRun.step, returned, List.mem_append, List.mem_singleton]
    refine ⟨after, ?_⟩
    rintro result (old | rfl)
    · exact accepted result old
    · exact ⟨_, rfl, fresh⟩

theorem EpochRun.run_agree (agree : Agree r.coord r.fabric)
    (accepted : ∀ result ∈ r.results, Accepted result) {ops : List EpochOp}
    (steady : r.Steady ops) :
    Agree (r.run ops).coord (r.run ops).fabric ∧
      ∀ result ∈ (r.run ops).results, Accepted result := by
  induction ops generalizing r with
  | nil => exact ⟨agree, accepted⟩
  | cons op ops ih =>
    obtain ⟨agree', accepted'⟩ := step_agree agree accepted steady.1
    exact ih agree' accepted' steady.2

/-- In every run that lowers no cell's epoch below the retained one, each publish
at the reported epoch returns and is not refused as stale, and the same holds of
any publish that could come next. -/
theorem publish_not_stale {params : Option CoordParams} {fparams : Option FabricParams}
    {heap heap' : Heap CoordSite} {fheap fheap' : Heap FabricSite}
    (coord : kithCoordCreate params heap = some (.ok c, heap'))
    (fabric : kithFabricCreate fparams fheap = some (.ok f, fheap')) (ops : List EpochOp)
    (steady : EpochRun.Steady ⟨c, f, fheap', []⟩ ops) :
    (∀ result ∈ (EpochRun.run ⟨c, f, fheap', []⟩ ops).results, Accepted result) ∧
    ∀ bus key actors, Accepted
      ((kithFabricPublish (EpochRun.run ⟨c, f, fheap', []⟩ ops).fabric
        (EpochRun.run ⟨c, f, fheap', []⟩ ops).heap key
        (kithCoordAuthority (EpochRun.run ⟨c, f, fheap', []⟩ ops).coord bus key).authorityEpoch
        actors).map fun r => r.1.rc) := by
  obtain ⟨hf, empty⟩ := kithFabricCreate_valid fabric
  have start : Agree c f := by
    refine ⟨(kithCoordCreate_valid coord).1, hf, fun key node found => ?_⟩
    rw [empty] at found
    cases found
  obtain ⟨agree, accepted⟩ := EpochRun.run_agree (r := ⟨c, f, fheap', []⟩) start
    (fun _ h => nomatch h) steady
  refine ⟨accepted, fun bus key actors => ?_⟩
  obtain ⟨r, returned, _, fresh⟩ := agree.publish _ bus key actors
  rw [returned]
  exact ⟨_, rfl, fresh⟩

section Instances

def sampleRun : EpochRun := ⟨sampleCoord, sampleFabric, ⟨fun _ _ => true, 19⟩, []⟩

def risingOps : List EpochOp :=
  [.coord (.set (sampleCell 0) 1), .publish none (sampleCell 0) 3,
    .coord (.set (sampleCell 0) 2), .publish none (sampleCell 0) 4]

theorem risingOps_accepted : sampleRun.Steady risingOps ∧
    ∀ result ∈ (sampleRun.run risingOps).results, Accepted result := by
  have steady : sampleRun.Steady risingOps :=
    ⟨fun _ => by decide +kernel, trivial, fun _ => by decide +kernel, trivial, trivial⟩
  exact ⟨steady, (publish_not_stale sampleCoord_created sampleFabric_created risingOps steady).1⟩

/-- The coord's own instance sets and publishes a cell, clears the override and
publishes again: the coord still names it the authority, at epoch 0, and the
fabric refuses. -/
theorem cleared_cell_refuses_authority :
    let ops : List EpochOp := [.coord (.set (sampleCell 0) 1), .publish none (sampleCell 0) 3,
      .coord (.clear (sampleCell 0))]
    kithCoordAuthority (sampleRun.run ops).coord none (sampleCell 0) = ⟨1, 0⟩ ∧
    (sampleRun.run (ops ++ [.publish none (sampleCell 0) 3])).results =
      [some .ok, some (.err .eperm)] := by
  decide +kernel

end Instances

end Kith.Coord
