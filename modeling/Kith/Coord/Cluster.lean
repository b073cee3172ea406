import Kith.Coord.Announce
import Kith.Lib.KeyedLog

/-!
# Coords that share a bus

A cluster ticks its coords against one bus and delivers the broadcast contracts
to them in any order. `kith_coord_on_rebalance` applies whatever it is handed,
without comparing epochs, so the coords end in agreement when each of them
applies the contracts of a cell in the order they were broadcast, its own
included; a contract that arrives after a later one for the same cell undoes it.
-/

namespace Kith.Coord

open KeyedLog Sweep Function List

/-- A contract as a write to the override map. -/
def contractSchema : Schema RebalanceContract CellKey (Option Authority) :=
  ⟨RebalanceContract.key, RebalanceContract.outcome⟩

/-- The log is the sequence of contracts placed on the bus, each with the coords
that have applied it. -/
structure Cluster (ι : Type) where
  coords : ι → KithCoord
  bus : Bus
  heap : Heap BusSite
  log : List (Entry ι RebalanceContract)

inductive ClusterOp (ι : Type) where
  | report (i : ι) (key : CellKey) (actorCount : UInt32) (nowMs : UInt64)
  | tick (i : ι) (nowMs : UInt64)
  | deliver (i : ι) (k : Nat)
  | drain (out : Bool) (max : Nat)

variable {ι : Type} [DecidableEq ι] (s : Cluster ι)

def Cluster.tickState (i : ι) : TickState := ⟨s.coords i, s.bus, s.heap⟩

/-- The contracts a tick from `s` to `t` placed on the bus. -/
def newContracts (s t : TickState) : List RebalanceContract :=
  (t.bus.pending.drop s.bus.pending.length).filterMap BusEvent.contract?

def Cluster.step : ClusterOp ι → Cluster ι
  | .report i key actorCount nowMs =>
    let c := (kithCoordReportDensity (s.coords i) key actorCount nowMs).2
    { s with coords := update s.coords i c }
  | .tick i nowMs =>
    let t := (coordTickOn (s.tickState i) nowMs).2
    { coords := update s.coords i t.coord
      bus := t.bus
      heap := t.heap
      log := s.log ++ (newContracts (s.tickState i) t).map fun k => ⟨k, fun j => decide (j = i)⟩ }
  | .deliver i k =>
    match s.log[k]? with
    | none => s
    | some e =>
      { s with
        coords := update s.coords i (kithCoordOnRebalance (s.coords i) e.write).2
        log := s.log.modify k (Entry.mark i) }
  | .drain out max => { s with bus := (kithCoordBusDrain s.bus out max).bus }

def Cluster.run (ops : List (ClusterOp ι)) : Cluster ι := ops.foldl Cluster.step s

/-- A decision that is stored and announced as stored, or refused before either;
a split to instance 0 is announced as a clear. -/
def Decision.Faithful (s : TickState) (d : Decision) : Prop :=
  d.Lands s.coord ∧ s.granted d = true ∧ d.contract.outcome = d.outcome ∨ ¬ d.Made s.coord

/-- The steps of a run in which contracts are applied in broadcast order. -/
def Cluster.OrderlyOp : ClusterOp ι → Prop
  | .tick i nowMs => ∀ v ∈ tickTrail (s.tickState i) nowMs, ∀ d,
      phasePlan nowMs v.1 v.2 = some d → d.Faithful v.2
  | .deliver i k => ∀ e, s.log[k]? = some e →
      Latest contractSchema s.log i k e.write.key ∧ e.write.Lands (s.coords i)
  | _ => True

def Cluster.Orderly : Cluster ι → List (ClusterOp ι) → Prop
  | _, [] => True
  | s, op :: ops => s.OrderlyOp op ∧ (s.step op).Orderly ops

/-- Coords without overrides, as creation leaves them, whose instances are members of the bus. -/
structure Cluster.Initial (s : Cluster ι) : Prop where
  valid : ∀ i, (s.coords i).Valid
  empty : ∀ i, (s.coords i).override = fun _ => none
  member : ∀ i, (s.coords i).instanceId ∈ s.bus.ids
  quiet : s.log = []

/-- Every coord holds what the contracts it has applied leave in broadcast order. -/
structure Cluster.Synced (s : Cluster ι) : Prop where
  valid : ∀ i, (s.coords i).Valid
  current : ∀ i, (s.coords i).override = view contractSchema (fun _ => none) i s.log
  member : ∀ i, (s.coords i).instanceId ∈ s.bus.ids

omit [DecidableEq ι] in
theorem Cluster.Initial.synced {s : Cluster ι} (initial : s.Initial) : s.Synced where
  valid := initial.valid
  current := fun i => by rw [initial.empty, initial.quiet]; rfl
  member := initial.member

/-- Between `s` and `t` a tick changed the overrides by the contracts it sent. -/
structure Followed (s t : TickState) (es : List BusEvent) : Prop where
  valid : t.coord.Valid
  pending : t.bus.pending = s.bus.pending ++ es
  override : t.coord.override =
    (es.filterMap BusEvent.contract?).foldl contractSchema.apply s.coord.override
  ids : t.bus.ids = s.bus.ids
  instanceId : t.coord.instanceId = s.coord.instanceId

variable {nowMs : UInt64}

theorem Followed.phase {s t : TickState} {es : List BusEvent} {v : Nat × Phase}
    (followed : Followed s t es) (faithful : ∀ d, phasePlan nowMs v t = some d → d.Faithful t) :
    ∃ es', Followed s (coordTickPhase nowMs v t).2 es' := by
  cases planned : phasePlan nowMs v t with
  | none =>
    rw [coordTickPhase_of_plan_none planned]
    exact ⟨es, followed⟩
  | some d =>
    have spec := coordTickPhase_of_plan_some followed.valid planned
    have hids := spec.ids.trans followed.ids
    have hinst := spec.instanceId.trans followed.instanceId
    rcases faithful d planned with ⟨lands, granted, outcome⟩ | unmade
    · refine ⟨es ++ [t.event d], spec.valid, ?_, ?_, hids, hinst⟩
      · rw [spec.pending, followed.pending, if_pos ⟨lands.made, granted⟩, append_assoc]
      · rw [spec.override, if_pos lands, followed.override]
        simp [Schema.apply, contractSchema, contract_key, outcome]
    · have lost : ¬ d.Lands t.coord := fun lands => unmade lands.made
      refine ⟨es, spec.valid, ?_, ?_, hids, hinst⟩
      · rw [spec.pending, followed.pending, if_neg (fun h => unmade h.1), append_nil]
      · rw [spec.override, if_neg lost, followed.override]

theorem tick_followed {s : TickState} (valid : s.coord.Valid)
    (faithful : ∀ v ∈ tickTrail s nowMs, ∀ d, phasePlan nowMs v.1 v.2 = some d → d.Faithful v.2) :
    ∃ es, Followed s (coordTickOn s nowMs).2 es := by
  refine (tick_invariant (P := fun t => ∃ es, Followed s t es) ?_ ?_ ?_).1
  · exact ⟨[], countTick_valid valid, by simp, by simp, rfl, rfl⟩
  · refine ⟨[], ?_, by simp, by simp, by simp, ?_⟩
    · rw [tickStart_coord]
      exact countTick_valid valid
    · rw [tickStart_coord]
      rfl
  · rintro v hv ⟨es, followed⟩
    exact followed.phase (faithful v hv)

theorem Cluster.Synced.tick {s : Cluster ι} (synced : s.Synced) {i : ι}
    (orderly : s.OrderlyOp (.tick i nowMs)) : (s.step (.tick i nowMs)).Synced := by
  obtain ⟨es, followed⟩ := tick_followed (s := s.tickState i) (synced.valid i) orderly
  have sent : newContracts (s.tickState i) (coordTickOn (s.tickState i) nowMs).2 =
      es.filterMap BusEvent.contract? := by
    rw [newContracts, followed.pending, drop_left]
  have marks : ∀ j, ∀ e ∈ (es.filterMap BusEvent.contract?).map fun k =>
      (⟨k, fun j => decide (j = i)⟩ : Entry ι RebalanceContract), e.seen j = decide (j = i) := by
    intro j e he
    obtain ⟨k, _, rfl⟩ := mem_map.mp he
    rfl
  refine ⟨fun j => ?_, fun j => ?_, fun j => ?_⟩ <;> by_cases h : j = i
  · subst h
    simpa [Cluster.step] using followed.valid
  · simpa [Cluster.step, h] using synced.valid j
  · subst h
    simp only [Cluster.step, update_self, sent]
    rw [view_append_seen fun e he => by simp [marks j e he], ← synced.current, followed.override,
      foldl_map]
    rfl
  · simp only [Cluster.step, update_of_ne h]
    rw [sent, view_append_unseen fun e he => by simp [marks j e he, h], synced.current]
  · subst h
    simp only [Cluster.step, update_self]
    rw [followed.ids, followed.instanceId]
    exact synced.member j
  · simp only [Cluster.step, update_of_ne h]
    rw [followed.ids]
    exact synced.member j

theorem Cluster.Synced.deliver {s : Cluster ι} (synced : s.Synced) {i : ι} {k : Nat}
    (orderly : s.OrderlyOp (.deliver i k)) : (s.step (.deliver i k)).Synced := by
  cases found : s.log[k]? with
  | none => simpa only [Cluster.step, found] using synced
  | some e =>
    obtain ⟨hk, rfl⟩ := List.getElem?_eq_some_iff.mp found
    obtain ⟨latest, lands⟩ := orderly _ found
    obtain ⟨valid, written, _⟩ := kithCoordOnRebalance_spec (synced.valid i) s.log[k].write
    rw [if_pos lands] at written
    have inst : ∀ (c : KithCoord) (contract : RebalanceContract),
        (kithCoordOnRebalance c contract).2.instanceId = c.instanceId := by
      intro c contract
      simp only [kithCoordOnRebalance]
      split <;> rfl
    simp only [Cluster.step, found]
    refine ⟨fun j => ?_, fun j => ?_, fun j => ?_⟩ <;> by_cases h : j = i
    · subst h
      simpa using valid
    · simpa [h] using synced.valid j
    · subst h
      simp only [update_self]
      rw [view_mark hk latest, ← synced.current, written]
      rfl
    · simp only [update_of_ne h]
      rw [view_mark_of_ne h, synced.current]
    · subst h
      simpa [inst] using synced.member j
    · simpa [h] using synced.member j

theorem Cluster.Synced.step {s : Cluster ι} (synced : s.Synced) {op : ClusterOp ι}
    (orderly : s.OrderlyOp op) : (s.step op).Synced := by
  cases op with
  | tick i nowMs => exact synced.tick orderly
  | deliver i k => exact synced.deliver orderly
  | drain out max => exact { synced with }
  | report i key actorCount nowMs =>
    obtain ⟨shards, _, inst⟩ := kithCoordReportDensity_shards (s.coords i) key actorCount nowMs
    simp only [Cluster.step]
    refine ⟨fun j => ?_, fun j => ?_, fun j => ?_⟩ <;> by_cases h : j = i
    · subst h
      simpa using valid_congr (synced.valid j) shards
    · simpa [h] using synced.valid j
    · subst h
      simpa [override_congr shards] using synced.current j
    · simpa [h] using synced.current j
    · subst h
      simpa [inst] using synced.member j
    · simpa [h] using synced.member j

theorem Cluster.Synced.run {s : Cluster ι} (synced : s.Synced) {ops : List (ClusterOp ι)}
    (orderly : s.Orderly ops) : (s.run ops).Synced := by
  induction ops generalizing s with
  | nil => exact synced
  | cons op ops ih => exact ih (synced.step orderly.1) orderly.2

theorem coordHashFallback_agree {bus : Bus} {c c' : KithCoord} (hc : c.instanceId ∈ bus.ids)
    (hc' : c'.instanceId ∈ bus.ids) (key : CellKey) :
    coordHashFallback c (some bus) key = coordHashFallback c' (some bus) key := by
  simp only [coordHashFallback]
  by_cases few : bus.members.length ≤ 1
  · rw [← length_ids] at few
    have only : ∀ {x y : UInt32}, x ∈ bus.ids → y ∈ bus.ids → x = y := by
      intro x y hx hy
      match hids : bus.ids with
      | [] => simp [hids] at hx
      | [z] =>
        rw [hids, mem_singleton] at hx hy
        rw [hx, hy]
      | _ :: _ :: _ => simp [hids] at few
    rw [length_ids] at few
    simp [few, only hc hc']
  · simp [few]

/-- In every run that applies the contracts of a cell in broadcast order at every
coord, once all contracts are applied everywhere the coords report one authority
for every cell, so no two of different instances both report themselves. -/
theorem cluster_agrees {s : Cluster ι} (initial : s.Initial) (ops : List (ClusterOp ι))
    (orderly : s.Orderly ops) (settled : ∀ e ∈ (s.run ops).log, ∀ i, e.seen i = true)
    (i j : ι) (key : CellKey) :
    kithCoordAuthority ((s.run ops).coords i) (some (s.run ops).bus) key =
      kithCoordAuthority ((s.run ops).coords j) (some (s.run ops).bus) key ∧
    (((s.run ops).coords i).instanceId ≠ ((s.run ops).coords j).instanceId →
      ¬ ((kithCoordAuthority ((s.run ops).coords i) (some (s.run ops).bus) key).instanceId =
          ((s.run ops).coords i).instanceId ∧
        (kithCoordAuthority ((s.run ops).coords j) (some (s.run ops).bus) key).instanceId =
          ((s.run ops).coords j).instanceId)) := by
  have synced := initial.synced.run orderly
  have same : kithCoordAuthority ((s.run ops).coords i) (some (s.run ops).bus) key =
      kithCoordAuthority ((s.run ops).coords j) (some (s.run ops).bus) key := by
    rw [kithCoordAuthority_eq, kithCoordAuthority_eq, synced.current i, synced.current j,
      view_eq_of_all_seen fun e he => ⟨settled e he i, settled e he j⟩,
      coordHashFallback_agree (synced.member i) (synced.member j)]
  refine ⟨same, fun different both => different ?_⟩
  rw [← both.1, same, both.2]

section Instances

theorem Cluster.run_nil : s.run [] = s := rfl

theorem Cluster.run_cons (op : ClusterOp ι) (ops : List (ClusterOp ι)) :
    s.run (op :: ops) = (s.step op).run ops := rfl

def pairCluster : Cluster Bool where
  coords := fun b => coordOfParams { sampleParams with instanceId := if b then 2 else 1 } 16 4096
  bus := sampleBus
  heap := granting
  log := []

theorem pairCluster_initial : pairCluster.Initial := by
  have created : ∀ b, kithCoordCreate
      (some { sampleParams with instanceId := if b then 2 else 1 }) ⟨fun _ _ => true, 0⟩ =
      some (.ok (pairCluster.coords b), ⟨fun _ _ => true, 18⟩) := by
    intro b
    cases b <;> rfl
  refine ⟨fun b => (kithCoordCreate_valid (created b)).1,
    fun b => (kithCoordCreate_valid (created b)).2, fun b => ?_, rfl⟩
  cases b <;> decide +kernel

/-- A tick step whose loop visits bucket 0 only. -/
def Cluster.tickFirst (i : ι) (nowMs : UInt64) : Cluster ι :=
  let t := (sweep .ok (coordTickPhase nowMs) firstPhases (tickStart (s.tickState i))).2
  { coords := update s.coords i t.coord
    bus := t.bus
    heap := t.heap
    log := s.log ++ (newContracts (s.tickState i) t).map fun k => ⟨k, fun j => decide (j = i)⟩ }

variable {nowMs : UInt64} {s : Cluster ι} {i : ι}

section

variable (valid : (s.coords i).Valid)
    (ready : tickGate (s.coords i).countTick s.bus = true ∧ usedPhases (s.coords i) = firstPhases)
include valid ready

theorem Cluster.step_tick_eq : s.step (.tick i nowMs) = s.tickFirst i nowMs := by
  have used : usedPhases (s.tickState i).coord = firstPhases := ready.2
  simp only [Cluster.step, Cluster.tickFirst, (tick_used (s := s.tickState i) valid ready.1).1,
    used]

omit [DecidableEq ι] in
theorem Cluster.orderly_tick (faithful : ∀ v ∈ trail .ok (coordTickPhase nowMs) firstPhases
      (tickStart (s.tickState i)), ∀ d ∈ phasePlan nowMs v.1 v.2,
        d.Lands v.2.coord ∧ v.2.granted d = true ∧ d.contract.outcome = d.outcome) :
    s.OrderlyOp (.tick i nowMs) := by
  intro v hv d planned
  have reached := (tick_used (s := s.tickState i) valid ready.1).2 v hv d planned
  rw [show usedPhases (s.tickState i).coord = firstPhases from ready.2] at reached
  exact .inl (faithful v reached d planned)

end

def crowd (b : Bool) : ClusterOp Bool := .report b (sampleCell 0) 5 100

/-- Both coords have been told that the cell is crowded. -/
def crowdedPair : Cluster Bool := (pairCluster.step (crowd false)).step (crowd true)

theorem crowdedPair_synced : crowdedPair.Synced :=
  (pairCluster_initial.synced.step (show pairCluster.OrderlyOp (crowd false) from trivial)).step
    (show Cluster.OrderlyOp _ (crowd true) from trivial)

theorem crowdedPair_ready (b : Bool) : tickGate (crowdedPair.coords b).countTick sampleBus = true ∧
    usedPhases (crowdedPair.coords b) = firstPhases := by
  cases b <;> decide +kernel

theorem crowdedPair_tick : crowdedPair.step (.tick false 200) = crowdedPair.tickFirst false 200 :=
  Cluster.step_tick_eq (crowdedPair_synced.valid false) (crowdedPair_ready false)

def heardOps : List (ClusterOp Bool) := [crowd false, crowd true, .tick false 200, .deliver true 0]

def heardPair : Cluster Bool := (crowdedPair.tickFirst false 200).step (.deliver true 0)

theorem heard_eq : pairCluster.run heardOps = heardPair := by
  rw [heardOps, Cluster.run_cons, Cluster.run_cons, ← crowdedPair, Cluster.run_cons,
    crowdedPair_tick, Cluster.run_cons, Cluster.run_nil, heardPair]

theorem heard_orderly : pairCluster.Orderly heardOps := by
  have tick : crowdedPair.OrderlyOp (.tick false 200) :=
    Cluster.orderly_tick (crowdedPair_synced.valid false) (crowdedPair_ready false)
      (by decide +kernel)
  have deliver : ∀ e ∈ (crowdedPair.tickFirst false 200).log[0]?,
      (∀ f ∈ (crowdedPair.tickFirst false 200).log.drop 1,
        f.write.key = e.write.key → f.seen true = false) ∧
      e.write.Lands ((crowdedPair.tickFirst false 200).coords true) := by
    decide +kernel
  simp only [heardOps, Cluster.Orderly]
  rw [← crowdedPair, crowdedPair_tick]
  exact ⟨trivial, trivial, tick, deliver, trivial⟩

theorem cluster_agrees_heard :
    kithCoordAuthority ((pairCluster.run heardOps).coords false)
      (some (pairCluster.run heardOps).bus) (sampleCell 0) =
    kithCoordAuthority ((pairCluster.run heardOps).coords true)
      (some (pairCluster.run heardOps).bus) (sampleCell 0) :=
  (cluster_agrees pairCluster_initial heardOps heard_orderly
    (by rw [heard_eq]; decide +kernel) false true (sampleCell 0)).1

/-- Each coord splits the cell to the other, then each applies the other's contract. -/
def crossedOps : List (ClusterOp Bool) :=
  [crowd false, crowd true, .tick false 200, .tick true 200, .deliver false 1, .deliver true 0]

def crossedPair : Cluster Bool :=
  (((crowdedPair.tickFirst false 200).tickFirst true 200).step (.deliver false 1)).step
    (.deliver true 0)

theorem crossed_eq : pairCluster.run crossedOps = crossedPair := by
  have untouched : (crowdedPair.tickFirst false 200).coords true = crowdedPair.coords true := by
    simp [Cluster.tickFirst]
  have second : (crowdedPair.tickFirst false 200).step (.tick true 200) =
      (crowdedPair.tickFirst false 200).tickFirst true 200 :=
    Cluster.step_tick_eq (by rw [untouched]; exact crowdedPair_synced.valid true)
      (by rw [untouched]; exact ⟨by decide +kernel, (crowdedPair_ready true).2⟩)
  rw [crossedOps, Cluster.run_cons, Cluster.run_cons, ← crowdedPair, Cluster.run_cons,
    crowdedPair_tick, Cluster.run_cons, second, Cluster.run_cons, Cluster.run_cons,
    Cluster.run_nil, crossedPair]

/-- Two coords split one cell to each other before either hears of it; when both
contracts are applied everywhere, each coord reports itself. -/
theorem crossed_splits_disagree :
    pairCluster.Initial ∧
    (∀ e ∈ (pairCluster.run crossedOps).log, ∀ b, e.seen b = true) ∧
    kithCoordAuthority ((pairCluster.run crossedOps).coords false)
      (some (pairCluster.run crossedOps).bus) (sampleCell 0) = ⟨1, 1⟩ ∧
    kithCoordAuthority ((pairCluster.run crossedOps).coords true)
      (some (pairCluster.run crossedOps).bus) (sampleCell 0) = ⟨2, 1⟩ := by
  rw [crossed_eq]
  exact ⟨pairCluster_initial, by decide +kernel⟩

end Instances

end Kith.Coord
