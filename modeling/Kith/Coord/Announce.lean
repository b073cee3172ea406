import Mathlib.Data.List.Nodup
import Kith.Coord.Refinement

/-!
# Splits, merges and their broadcasts

A tick updates the override table before it publishes the contract. The change
and the contract stay together exactly when the allocations of every publish
that follows a change are granted; a refused one leaves the change in place, and
since a later tick skips a cell whose override already exists, the change stays
unannounced.
-/

namespace Kith.Coord

open LinearProbe Sweep Function List

variable {c : KithCoord} {v : Nat × Phase} {key : CellKey}

section Density

/-- The invariant of the density table: a chained table without tombstones, in
which no node waits for a split and a merge at once. -/
structure KithCoord.DensityValid (c : KithCoord) : Prop where
  pow2 : ∃ b, c.densityBuckets = 2 ^ b
  chained : Chained densityLayout c.densityBuckets c.density coordCellMix
  present : ∀ i, (c.density i).deleted = false
  exclusive : ∀ i, (c.density i).splitSinceMs = 0 ∨ (c.density i).mergeSinceMs = 0

theorem kithCoordCreate_densityValid {params : Option CoordParams} {heap heap' : Heap CoordSite}
    (created : kithCoordCreate params heap = some (.ok c, heap')) : c.DensityValid := by
  obtain ⟨p, buckets, densityBuckets, rfl, _, ⟨k, hk⟩⟩ := kithCoordCreate_eq created
  exact ⟨⟨k, hk⟩, chained_empty fun _ _ => rfl, fun _ => rfl, fun _ => .inl rfl⟩

theorem DensityNode.report_exclusive (n : DensityNode) (split merge actors : UInt32)
    (nowMs : UInt64) : (n.report split merge actors nowMs).splitSinceMs = 0 ∨
      (n.report split merge actors nowMs).mergeSinceMs = 0 := by
  simp only [DensityNode.report]
  split
  · exact .inr rfl
  · split
    · exact .inl rfl
    · exact .inl rfl

theorem DensityNode.report_marks (n : DensityNode) (split merge actors : UInt32) (nowMs : UInt64) :
    (n.report split merge actors nowMs).marks = n.marks := by
  simp only [DensityNode.report]
  split
  · rfl
  · split <;> rfl

variable {c : KithCoord} {c' : KithCoord} {s : TickState}

section

variable (valid : c.DensityValid)
include valid

theorem KithCoord.DensityValid.rewrite (buckets : c'.densityBuckets = c.densityBuckets)
    (marks : ∀ j, (c'.density j).marks = (c.density j).marks)
    (exclusive : ∀ j, (c'.density j).splitSinceMs = 0 ∨ (c'.density j).mergeSinceMs = 0) :
    c'.DensityValid := by
  refine ⟨buckets ▸ valid.pow2, ?_, fun j => ?_, exclusive⟩
  · rw [buckets]
    refine valid.chained.congr (fun k j => ?_) fun j used => (congrArg (·.2.1) (marks j)).trans used
    change _ ∧ ((c'.density j).marks.2.1 && !(c'.density j).marks.2.2) = true ∧
      (c'.density j).marks.1 = k ↔ _
    rw [marks]
    rfl
  · exact (congrArg (·.2.2) (marks j)).trans (valid.present j)

theorem KithCoord.DensityValid.report (i : Nat) (actors : UInt32) (nowMs : UInt64) :
    (c.report i actors nowMs).DensityValid := by
  refine valid.rewrite rfl (fun j => ?_) fun j => ?_ <;>
    simp only [KithCoord.report, KithCoord.setDensity, update_apply] <;> split
  · rename_i here
    rw [here, DensityNode.report_marks]
  · rfl
  · exact DensityNode.report_exclusive ..
  · exact valid.exclusive j

theorem KithCoord.DensityValid.create {i : Nat} (absent : coordDensityFind c key = none)
    (opened : Open densityLayout c.densityBuckets c.density (coordCellMix key) i) :
    (c.setDensity i ⟨key, true, false, 0, 0, 0, 0⟩).DensityValid := by
  obtain ⟨b, hb⟩ := valid.pow2
  have missing := (lookup_eq_none_iff hb valid.chained key).mp absent
  refine ⟨⟨b, hb⟩, valid.chained.store missing opened rfl rfl, fun j => ?_, fun j => ?_⟩ <;>
    simp only [KithCoord.setDensity, update_apply] <;> split
  · rfl
  · exact valid.present j
  · exact .inl rfl
  · exact valid.exclusive j

theorem kithCoordReportDensity_densityValid (key : CellKey) (actorCount : UInt32) (nowMs : UInt64) :
    (kithCoordReportDensity c key actorCount nowMs).2.DensityValid := by
  simp only [kithCoordReportDensity, coordDensityCreate]
  cases absent : coordDensityFind c key with
  | some i => exact valid.report i actorCount nowMs
  | none =>
    cases hp : place densityLayout c.densityBuckets c.density (coordCellMix key) with
    | fresh i reused =>
      have made := valid.create absent (place_fresh hp).1
      have counted : KithCoord.DensityValid
          { c.setDensity i ⟨key, true, false, 0, 0, 0, 0⟩ with
            densityCount := c.densityCount + 1 } :=
        { made with }
      exact counted.report i actorCount nowMs
    | full tomb =>
      obtain ⟨b, hb⟩ := valid.pow2
      have empty := (place_full_tomb hb hp).1.mpr fun i _ => valid.present i
      subst empty
      exact valid

end

theorem DensityNode.Kept.trans {n n' n'' : DensityNode} (first : n.Kept n') (second : n'.Kept n'') :
    n.Kept n'' := by
  refine ⟨second.marks.trans first.marks, ?_, ?_⟩
  · rcases second.split with h | h
    · rw [h]
      exact first.split
    · exact .inr h
  · rcases second.merge with h | h
    · rw [h]
      exact first.merge
    · exact .inr h

theorem DensityKept.trans {a b d : KithCoord} (first : DensityKept a b) (second : DensityKept b d) :
    DensityKept a d :=
  ⟨second.buckets.trans first.buckets, fun j => (first.node j).trans (second.node j)⟩

theorem KithCoord.DensityValid.kept (valid : c.DensityValid) (kept : DensityKept c c') :
    c'.DensityValid := by
  refine valid.rewrite kept.buckets (fun j => (kept.node j).marks) fun j => ?_
  rcases valid.exclusive j with h | h
  · exact .inl ((kept.node j).split.elim (fun e => e.trans h) id)
  · exact .inr ((kept.node j).merge.elim (fun e => e.trans h) id)

theorem coordTickPhase_densityKept {nowMs : UInt64} (valid : s.coord.Valid) :
    DensityKept s.coord (coordTickPhase nowMs v s).2.coord := by
  cases planned : phasePlan nowMs v s with
  | none =>
    rw [coordTickPhase_of_plan_none planned]
    exact densityKept_of_eq rfl rfl
  | some d => exact (coordTickPhase_of_plan_some valid planned).density

theorem tick_densityKept (valid : s.coord.Valid) (nowMs : UInt64) :
    DensityKept s.coord (coordTickOn s nowMs).2.coord ∧
      ∀ v ∈ tickTrail s nowMs, DensityKept s.coord v.2.coord := by
  refine tick_invariant (P := fun t => DensityKept s.coord t.coord)
    (densityKept_of_eq rfl rfl) ?_ ?_
  · rw [tickStart_coord]
    exact densityKept_of_eq rfl rfl
  · intro v hv kept
    exact kept.trans (coordTickPhase_densityKept ((tick_valid valid).2 v hv))

end Density

inductive Reachable : KithCoord → Prop where
  | create {params : Option CoordParams} {heap heap' : Heap CoordSite} {c : KithCoord}
      (created : kithCoordCreate params heap = some (.ok c, heap')) : Reachable c
  | call {c : KithCoord} (reached : Reachable c) (op : CoordOp) : Reachable (c.apply op)

theorem apply_valid (valid : c.Valid) (op : CoordOp) : (c.apply op).Valid := by
  cases op with
  | set key instanceId => exact (kithCoordSetAuthority_spec valid key instanceId).1
  | clear key => exact (kithCoordClearAuthority_spec valid key).1
  | rebalance contract => exact (kithCoordOnRebalance_spec valid contract).1
  | report key actorCount nowMs =>
    exact valid_congr valid (kithCoordReportDensity_shards c key actorCount nowMs).1
  | tick bus heap nowMs =>
    cases bus with
    | none => exact countTick_valid valid
    | some bus => exact (tick_valid (s := ⟨c, bus, heap⟩) valid).1

theorem apply_densityValid (valid : c.Valid) (density : c.DensityValid)
    (op : CoordOp) : (c.apply op).DensityValid := by
  have same : ∀ c' : KithCoord, c'.densityBuckets = c.densityBuckets → c'.density = c.density →
      c'.DensityValid := fun c' hb hd => density.kept (densityKept_of_eq hb hd)
  cases op with
  | set key instanceId | clear key => exact same _ rfl rfl
  | rebalance contract =>
    simp only [KithCoord.apply, kithCoordOnRebalance]
    split <;> exact same _ rfl rfl
  | report key actorCount nowMs =>
    exact kithCoordReportDensity_densityValid density key actorCount nowMs
  | tick bus heap nowMs =>
    cases bus with
    | none => exact same _ rfl rfl
    | some bus => exact density.kept (tick_densityKept (s := ⟨c, bus, heap⟩) valid nowMs).1

theorem Reachable.valid (reached : Reachable c) : c.Valid ∧ c.DensityValid := by
  induction reached with
  | create created =>
    exact ⟨(kithCoordCreate_valid created).1, kithCoordCreate_densityValid created⟩
  | call _ op ih => exact ⟨apply_valid ih.1 op, apply_densityValid ih.1 ih.2 op⟩

section Events

def BusEvent.contract? (e : BusEvent) : Option RebalanceContract :=
  if e.eventType = .rebalance then contractOfBytes e.payload else none

def contractsFor (key : CellKey) (events : List BusEvent) : List RebalanceContract :=
  (events.filterMap BusEvent.contract?).filter fun k => k.key = key

theorem contractsFor_append (key : CellKey) (xs ys : List BusEvent) :
    contractsFor key (xs ++ ys) = contractsFor key xs ++ contractsFor key ys := by
  simp [contractsFor]

@[simp] theorem event_contract (s : TickState) (d : Decision) :
    (s.event d).contract? = some d.contract := by
  simp [BusEvent.contract?, TickState.event, Bus.event, contractOfBytes_bytes]

theorem contractsFor_event (key : CellKey) (s : TickState) (d : Decision) :
    contractsFor key [s.event d] = if d.key = key then [d.contract] else [] := by
  by_cases h : d.key = key
  · simp [contractsFor, contract_key, h]
  · simp [contractsFor, contract_key, h]

end Events

section Announcing

variable {nowMs : UInt64}

/-- Two reached phases that decide about one cell are the same phase. -/
def DistinctKeys (nowMs : UInt64) (vs : List ((Nat × Phase) × TickState)) : Prop :=
  vs.Pairwise fun v w => ∀ d e, phasePlan nowMs v.1 v.2 = some d →
    phasePlan nowMs w.1 w.2 = some e → d.key ≠ e.key

/-- What a stretch of the loop from `s` to `t` did about a cell no phase decided on. -/
def Untouched (s t : TickState) (new : List BusEvent) (key : CellKey) : Prop :=
  t.coord.override key = s.coord.override key ∧ contractsFor key new = []

/-- What it did about the cell of the decision `d`, taken in the state `u`. -/
structure Settled (s t u : TickState) (new : List BusEvent) (d : Decision) : Prop where
  before : u.coord.override d.key = s.coord.override d.key
  after : t.coord.override d.key =
    if d.Lands u.coord then d.outcome else s.coord.override d.key
  sent : contractsFor d.key new =
    if d.Made u.coord ∧ u.granted d = true then [d.contract] else []

def phaseEvents (s : TickState) (d : Decision) : List BusEvent :=
  if d.Made s.coord ∧ s.granted d = true then [s.event d] else []

def planEvents (nowMs : UInt64) (a : Nat × Phase) (s : TickState) : List BusEvent :=
  (phasePlan nowMs a s).elim [] (phaseEvents s)

variable {s : TickState} {d : Decision}

theorem phase_settles {r : Rc × TickState}
    (spec : PhaseSpec s d r) : Settled s r.2 s (phaseEvents s d) d := by
  refine ⟨rfl, ?_, ?_⟩
  · rw [spec.override]
    split
    · exact update_self ..
    · rfl
  · simp only [phaseEvents]
    split
    · simp [contractsFor_event]
    · rfl

theorem phase_untouched {r : Rc × TickState} (spec : PhaseSpec s d r) (other : d.key ≠ key) :
    Untouched s r.2 (phaseEvents s d) key := by
  refine ⟨?_, ?_⟩
  · rw [spec.override]
    split
    · exact update_of_ne other.symm ..
    · rfl
  · simp only [phaseEvents]
    split
    · simp [contractsFor_event, other]
    · rfl

/-- What a stretch with the trail `vs` did: it settled the cells that were decided
about and left the others alone. -/
structure Stretch (nowMs : UInt64) (vs : List ((Nat × Phase) × TickState)) (s t : TickState)
    (new : List BusEvent) : Prop where
  pending : t.bus.pending = s.bus.pending ++ new
  untouched : ∀ key, (∀ v ∈ vs, ∀ d, phasePlan nowMs v.1 v.2 = some d → d.key ≠ key) →
    Untouched s t new key
  settled : ∀ v ∈ vs, ∀ d, phasePlan nowMs v.1 v.2 = some d → Settled s t v.2 new d

theorem phase_stretch (valid : s.coord.Valid) (a : Nat × Phase) :
    Stretch nowMs [(a, s)] s (coordTickPhase nowMs a s).2 (planEvents nowMs a s) := by
  rw [planEvents]
  cases planned : phasePlan nowMs a s with
  | none =>
    rw [coordTickPhase_of_plan_none planned]
    refine ⟨(append_nil _).symm, fun _ _ => ⟨rfl, rfl⟩, fun v hv d hd => ?_⟩
    rw [mem_singleton.mp hv, planned] at hd
    cases hd
  | some d =>
    have spec := coordTickPhase_of_plan_some valid planned
    refine ⟨spec.pending, fun key none_planned => ?_, fun v hv e he => ?_⟩
    · exact phase_untouched spec (none_planned (a, s) mem_cons_self d planned)
    · obtain rfl := mem_singleton.mp hv
      obtain rfl : d = e := Option.some.inj (planned.symm.trans he)
      exact phase_settles spec

variable {xs ys : List BusEvent}

theorem Untouched.trans {s t u : TickState}
    (first : Untouched s t xs key) (second : Untouched t u ys key) :
    Untouched s u (xs ++ ys) key :=
  ⟨second.1.trans first.1, by rw [contractsFor_append, first.2, second.2, nil_append]⟩

theorem Settled.then_untouched {s t u w : TickState}
    (first : Settled s t u xs d) (second : Untouched t w ys d.key) : Settled s w u (xs ++ ys) d :=
  ⟨first.before, second.1.trans first.after,
    by rw [contractsFor_append, second.2, append_nil, first.sent]⟩

theorem Untouched.then_settled {s t u w : TickState}
    (first : Untouched s t xs d.key) (second : Settled t w u ys d) : Settled s w u (xs ++ ys) d :=
  ⟨second.before.trans first.1, by rw [second.after, first.1],
    by rw [contractsFor_append, first.2, nil_append, second.sent]⟩

theorem Stretch.cons {s t u : TickState} {a : Nat × Phase}
    {vs : List ((Nat × Phase) × TickState)} (first : Stretch nowMs [(a, s)] s t xs)
    (rest : Stretch nowMs vs t u ys) (distinct : DistinctKeys nowMs ((a, s) :: vs)) :
    Stretch nowMs ((a, s) :: vs) s u (xs ++ ys) := by
  obtain ⟨apart, _⟩ := pairwise_cons.mp distinct
  have alone : ∀ key, (∀ d, phasePlan nowMs a s = some d → d.key ≠ key) → Untouched s t xs key := by
    intro key other
    apply first.untouched key
    rintro v hv
    obtain rfl := mem_singleton.mp hv
    exact other
  refine ⟨?_, fun key none_planned => ?_, fun v hv e he => ?_⟩
  · rw [rest.pending, first.pending, append_assoc]
  · exact (alone key (none_planned (a, s) mem_cons_self)).trans
      (rest.untouched key fun v hv => none_planned v (mem_cons_of_mem _ hv))
  · rcases mem_cons.mp hv with rfl | hv
    · exact (first.settled _ mem_cons_self e he).then_untouched
        (rest.untouched e.key fun w hw f hf => (apart w hw e f he hf).symm)
    · exact (alone e.key fun d hd => apart v hv d e hd he).then_settled (rest.settled v hv e he)

theorem sweep_settles {as : List (Nat × Phase)} (valid : s.coord.Valid)
    (distinct : DistinctKeys nowMs (trail .ok (coordTickPhase nowMs) as s)) :
    ∃ new, Stretch nowMs (trail .ok (coordTickPhase nowMs) as s) s
      (sweep .ok (coordTickPhase nowMs) as s).2 new := by
  induction as generalizing s with
  | nil => exact ⟨[], (append_nil _).symm, fun _ _ => ⟨rfl, rfl⟩, fun v hv => by cases hv⟩
  | cons a as ih =>
    rw [trail] at distinct ⊢
    rw [sweep]
    split at distinct
    · rename_i ok
      rw [if_pos ok, if_pos ok]
      obtain ⟨new, rest⟩ := ih (coordTickPhase_valid valid) (pairwise_cons.mp distinct).2
      exact ⟨_, (phase_stretch valid a).cons rest distinct⟩
    · rename_i stop
      rw [if_neg stop, if_neg stop]
      exact ⟨_, phase_stretch valid a⟩

theorem tickPhases_nodup (buckets : Nat) : (tickPhases buckets).Nodup := by
  rw [tickPhases, nodup_flatMap]
  refine ⟨fun i _ => by simp, ?_⟩
  refine nodup_range.imp fun hij => ?_
  simp [onFun, disjoint_left, hij]

theorem mem_tickPhases {buckets : Nat} (hv : v ∈ tickPhases buckets) : v.1 < buckets := by
  simp only [tickPhases, mem_flatMap, mem_range, mem_cons, not_mem_nil, or_false] at hv
  obtain ⟨i, hi, rfl | rfl⟩ := hv <;> exact hi

/-- A due phase is about a node that was live and whose timer ran before the tick. -/
theorem phaseDue_kept {c c' : KithCoord} (kept : DensityKept c c')
    (due : phaseDue c' nowMs v = true) :
    densityLayout.live (c.density v.1) = true ∧ (c'.density v.1).key = (c.density v.1).key ∧
      match v.2 with
      | .split => (c.density v.1).splitSinceMs ≠ 0
      | .merge => (c.density v.1).mergeSinceMs ≠ 0 := by
  obtain ⟨i, phase⟩ := v
  obtain ⟨marks, split, merge⟩ := kept.node i
  have live : densityLayout.live (c'.density i) = densityLayout.live (c.density i) :=
    congrArg (fun m : CellKey × Bool × Bool => m.2.1 && !m.2.2) marks
  cases phase <;>
    simp only [phaseDue, Bool.and_eq_true, Bool.not_eq_true', decide_eq_true_eq] at due <;>
    refine ⟨live.symm.trans ((live_iff _).mpr due.1.1), congrArg Prod.fst marks, fun zero => ?_⟩
  · exact due.1.2 (split.elim (·.trans zero) id)
  · exact due.1.2 (merge.elim (·.trans zero) id)

/-- The two timers of a node exclude each other and keys are distinct, so a tick
decides about a cell at most once. -/
theorem tick_distinct (valid : s.coord.Valid) (density : s.coord.DensityValid) (nowMs : UInt64) :
    DistinctKeys nowMs (tickTrail s nowMs) := by
  have items : ((tickTrail s nowMs).map Prod.fst).Sublist (tickPhases s.coord.densityBuckets) := by
    rw [tickTrail]
    split
    · exact trail_items
    · exact nil_sublist _
  have apart : (tickTrail s nowMs).Pairwise fun v w => v.1 ≠ w.1 :=
    pairwise_map.mp ((tickPhases_nodup _).sublist items)
  refine apart.imp_of_mem fun {v w} hv hw hne d e hd he same => ?_
  obtain ⟨dueV, keyV, _⟩ := phasePlan_some hd
  obtain ⟨dueW, keyW, _⟩ := phasePlan_some he
  have keptV := (tick_densityKept valid nowMs).2 v hv
  have keptW := (tick_densityKept valid nowMs).2 w hw
  obtain ⟨liveV, sameV, timerV⟩ := phaseDue_kept keptV dueV
  obtain ⟨liveW, sameW, timerW⟩ := phaseDue_kept keptW dueW
  have inV := mem_tickPhases (items.subset (mem_map_of_mem hv))
  have inW := mem_tickPhases (items.subset (mem_map_of_mem hw))
  have index : v.1.1 = w.1.1 := by
    refine density.chained.distinct _ _ _ ⟨inV, liveV, rfl⟩ ⟨inW, liveW, ?_⟩
    change (s.coord.density w.1.1).key = (s.coord.density v.1.1).key
    rw [← sameV, ← sameW, ← keyV, ← keyW, same]
  obtain ⟨⟨i, phaseV⟩, tv⟩ := v
  obtain ⟨⟨j, phaseW⟩, tw⟩ := w
  obtain rfl : i = j := index
  cases phaseV <;> cases phaseW
  · exact hne rfl
  · exact (density.exclusive i).elim timerV timerW
  · exact (density.exclusive i).elim timerW timerV
  · exact hne rfl

theorem tick_settles (valid : s.coord.Valid) (density : s.coord.DensityValid) (nowMs : UInt64) :
    ∃ new, Stretch nowMs (tickTrail s nowMs) s (coordTickOn s nowMs).2 new := by
  have distinct := tick_distinct valid density nowMs
  have sameOverride : (tickStart s).coord.override = s.coord.override := by
    rw [tickStart_coord, countTick_override]
  simp only [coordTickOn, tickTrail] at distinct ⊢
  by_cases gate : tickGate s.coord.countTick s.bus = true
  · simp only [gate, if_true] at distinct ⊢
    have valid' : (tickStart s).coord.Valid := by
      rw [tickStart_coord]
      exact countTick_valid valid
    obtain ⟨new, swept⟩ := sweep_settles valid' distinct
    refine ⟨new, ?_, fun key hkey => ?_, fun v hv d hd => ?_⟩
    · rw [swept.pending, tickStart_pending]
    · obtain ⟨same, sent⟩ := swept.untouched key hkey
      exact ⟨by rw [same, sameOverride], sent⟩
    · obtain ⟨before, after, sent⟩ := swept.settled v hv d hd
      exact ⟨by rw [before, sameOverride], by rw [after, sameOverride], sent⟩
  · simp only [gate]
    exact ⟨[], (append_nil _).symm, fun key _ => ⟨by simp, rfl⟩, fun v hv => by cases hv⟩

/-- The contract says what the override became; a cleared cell is sent to target 0. -/
def RebalanceContract.Describes (k : RebalanceContract) : Option Authority → Prop
  | some a => k.targetInstanceId = a.instanceId ∧ k.authorityEpoch = a.authorityEpoch
  | none => k.targetInstanceId = 0

/-- If the tick from `s` to `t` changed the override of the cell, exactly one of the
events it added is a contract for that cell, and it describes the change. -/
def Announced (s t : TickState) (key : CellKey) : Prop :=
  t.coord.override key ≠ s.coord.override key →
    ∃ k, contractsFor key (t.bus.pending.drop s.bus.pending.length) = [k] ∧
      k.Describes (t.coord.override key)

/-- The override changes of a tick are all announced, whatever the tick returns,
exactly when no broadcast that follows a change is refused an allocation. -/
theorem tick_announces_iff {s : TickState} (reached : Reachable s.coord) (nowMs : UInt64) :
    (∀ key, Announced s (coordTickOn s nowMs).2 key) ↔
      ∀ v ∈ tickTrail s nowMs, ∀ d, phasePlan nowMs v.1 v.2 = some d →
        d.Lands v.2.coord → v.2.granted d = true := by
  obtain ⟨valid, density⟩ := reached.valid
  obtain ⟨new, hpending, huntouched, hsettled⟩ := tick_settles valid density nowMs
  have hnew : (coordTickOn s nowMs).2.bus.pending.drop s.bus.pending.length = new := by
    rw [hpending, List.drop_left]
  constructor
  · intro announced v hv d hd lands
    obtain ⟨before, after, sent⟩ := hsettled v hv d hd
    rw [if_pos lands] at after
    have changed : (coordTickOn s nowMs).2.coord.override d.key ≠ s.coord.override d.key := by
      intro same
      have plan := (phasePlan_some hd).2.2
      rw [before, ← same, after] at plan
      cases houtcome : d.outcome <;> simp [houtcome] at plan
    obtain ⟨k, single, _⟩ := announced d.key changed
    rw [hnew, sent] at single
    by_contra refused
    simp [refused] at single
  · intro granted key changed
    by_cases decided : ∃ v ∈ tickTrail s nowMs, ∃ d, phasePlan nowMs v.1 v.2 = some d ∧ d.key = key
    · obtain ⟨v, hv, d, hd, rfl⟩ := decided
      obtain ⟨before, after, sent⟩ := hsettled v hv d hd
      have lands : d.Lands v.2.coord := by
        by_contra lost
        rw [if_neg lost] at after
        exact changed after
      rw [if_pos lands] at after
      rw [if_pos ⟨lands.made, granted v hv d hd lands⟩] at sent
      refine ⟨d.contract, by rw [hnew, sent], ?_⟩
      rw [after]
      cases d <;> simp [Decision.outcome, Decision.contract, RebalanceContract.Describes]
    · refine absurd (huntouched key fun v hv d hd hkey => ?_).1 changed
      exact decided ⟨v, hv, d, hd, hkey⟩

def usedPhases (c : KithCoord) : List (Nat × Phase) :=
  (tickPhases c.densityBuckets).filter fun v => (c.density v.1).used

theorem tick_used (valid : s.coord.Valid) (gate : tickGate s.coord.countTick s.bus = true) :
    coordTickOn s nowMs =
        sweep .ok (coordTickPhase nowMs) (usedPhases s.coord) (tickStart s) ∧
      ∀ v ∈ tickTrail s nowMs, ∀ d, phasePlan nowMs v.1 v.2 = some d →
        v ∈ trail .ok (coordTickPhase nowMs) (usedPhases s.coord) (tickStart s) := by
  have used : ∀ {t : TickState} {v d}, DensityKept s.coord t.coord → phasePlan nowMs v t = some d →
      (s.coord.density v.1).used = true := by
    intro t v d kept planned
    exact ((live_iff _).mp (phaseDue_kept kept (phasePlan_some planned).1).1).1
  obtain ⟨result, reached⟩ :=
    @sweep_filter _ _ _ _ (tickPhases s.coord.densityBuckets) (tickStart s)
    .ok (coordTickPhase nowMs) (fun v => (s.coord.density v.1).used)
    (fun t => t.coord.Valid ∧ DensityKept s.coord t.coord)
    (fun v t h => ⟨coordTickPhase_valid h.1, h.2.trans (coordTickPhase_densityKept h.1)⟩)
    (fun v t h unused => by
      apply coordTickPhase_of_plan_none
      cases planned : phasePlan nowMs v t with
      | none => rfl
      | some d => simp [used h.2 planned] at unused)
    (by rw [tickStart_coord]; exact ⟨countTick_valid valid, densityKept_of_eq rfl rfl⟩)
  refine ⟨by rw [coordTickOn, if_pos gate, usedPhases, result], fun v hv d planned => ?_⟩
  have kept := (tick_densityKept valid nowMs).2 v hv
  rw [tickTrail, if_pos gate] at hv
  rw [usedPhases, reached]
  exact mem_filter.mpr ⟨hv, used kept planned⟩

end Announcing

section Instances

def sampleBus : Bus := ⟨1, [⟨1, 0, 0, 0⟩, ⟨2, 0, 0, 0⟩], 8, [], 0, []⟩

/-- The sample coord after a report above its split threshold. -/
def crowdedCoord : KithCoord := sampleCoord.apply (.report (sampleCell 0) 5 100)

def granting : Heap BusSite := ⟨fun _ _ => true, 0⟩

def firstPhases : List (Nat × Phase) := [(0, .split), (0, .merge)]

/-- The crowded coord with an allocator that refuses payload copies. -/
def refusedState : TickState :=
  ⟨crowdedCoord, sampleBus, ⟨fun site _ => site ≠ .payload, 0⟩⟩

theorem crowdedCoord_reachable : Reachable crowdedCoord :=
  Reachable.call (.create sampleCoord_created) (.report (sampleCell 0) 5 100)

theorem refusedState_reachable : Reachable refusedState.coord := by
  simp only [refusedState, crowdedCoord_reachable]

theorem tick_announces_refused :
    (∀ key, Announced refusedState (coordTickOn refusedState 200).2 key) ↔
      ∀ v ∈ tickTrail refusedState 200, ∀ d,
        phasePlan 200 v.1 v.2 = some d → d.Lands v.2.coord → v.2.granted d = true :=
  tick_announces_iff (s := refusedState) refusedState_reachable 200

/-- The refused tick leaves the cell with instance 2 and says so to nobody, and the
next tick, whose allocator grants everything, finds the override and stays silent. -/
theorem refused_split_stays_silent :
    let t := (coordTickOn refusedState 200).2
    (coordTickOn refusedState 200).1 = .err .enomem ∧ ¬ Announced refusedState t (sampleCell 0) ∧
    t.coord.override (sampleCell 0) = some ⟨2, 1⟩ ∧
    (coordTickOn ⟨t.coord, t.bus, granting⟩ 300).1 = .ok ∧
    (coordTickOn ⟨t.coord, t.bus, granting⟩ 300).2.bus.pending = [] := by
  have first : (coordTickOn refusedState 200).1 = .err .enomem ∧
      (coordTickOn refusedState 200).2.bus.pending = [] ∧
      (coordTickOn refusedState 200).2.coord.override (sampleCell 0) = some ⟨2, 1⟩ ∧
      refusedState.coord.override (sampleCell 0) = none := by
    decide +kernel
  have valid : (coordTickOn refusedState 200).2.coord.Valid :=
    (tick_valid refusedState_reachable.valid.1).1
  have used : usedPhases (coordTickOn refusedState 200).2.coord = firstPhases := by
    decide +kernel
  have second : ∀ t, t = (coordTickOn refusedState 200).2 →
      coordTickOn ⟨t.coord, t.bus, granting⟩ 300 =
        sweep .ok (coordTickPhase 300) firstPhases (tickStart ⟨t.coord, t.bus, granting⟩) := by
    intro t same
    rw [← same] at valid used
    rw [(tick_used (s := ⟨t.coord, t.bus, granting⟩) valid (by rw [same]; decide +kernel)).1, used]
  obtain ⟨rc, pending, held, absent⟩ := first
  simp only [second _ rfl]
  refine ⟨rc, fun announced => ?_, held, by decide +kernel⟩
  obtain ⟨k, sent, _⟩ := announced (by rw [held, absent]; simp)
  rw [pending, List.drop_nil] at sent
  cases sent

end Instances

end Kith.Coord
