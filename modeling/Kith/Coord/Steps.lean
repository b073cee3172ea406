import Kith.Coord.Handle

/-!
# What one call changes

Every operation of the coord is described by its effect on the override map and
the epoch counter. A tick is described phase by phase: a phase either plans
nothing and leaves the state as it is, or makes one decision.
-/

namespace Kith.Coord

open LinearProbe Sweep Function Option

structure KithCoord.Valid (c : KithCoord) : Prop where
  shard : ∀ i, (c.shards i).Valid
  zoned : ∀ i key, ((c.shards i).override key).isSome → coordShardFor key.zone = i

variable {c : KithCoord}

section Shards

variable {key : CellKey} {sh : Shard} {o : Option Authority}

theorem KithCoord.Valid.shardOf (valid : c.Valid) (key : CellKey) : (c.shardOf key).Valid :=
  valid.shard _

section

variable (valid : c.Valid) (hsh : sh.Valid)
include valid hsh

theorem setShard_spec (written : sh.override = update (c.shardOf key).override key o) :
    (c.setShard key sh).Valid ∧ (c.setShard key sh).override = update c.override key o := by
  constructor
  · exact ⟨routed_each valid.shard hsh _,
      routed_homed (fun k : CellKey => coordShardFor k.zone) Shard.override valid.zoned written⟩
  · exact routed_update (fun k : CellKey => coordShardFor k.zone) Shard.override c.shards written

theorem setShard_ite {p : Prop} [Decidable p] (written : sh.override =
      if p then update (c.shardOf key).override key o else (c.shardOf key).override) :
    (c.setShard key sh).Valid ∧
      (c.setShard key sh).override = if p then update c.override key o else c.override := by
  by_cases landed : p
  · rw [if_pos landed] at written ⊢
    exact setShard_spec valid hsh written
  · rw [if_neg landed] at written ⊢
    have same : sh.override = update (c.shardOf key).override key (c.override key) := by
      rw [written, eq_comm, update_eq_self_iff, KithCoord.override]
    have kept := setShard_spec valid hsh same
    rwa [update_eq_self] at kept

end

end Shards

theorem kithCoordAuthority_eq (c : KithCoord) (bus : Option Bus) (key : CellKey) :
    kithCoordAuthority c bus key = (c.override key).getD ⟨coordHashFallback c bus key, 0⟩ := by
  rw [kithCoordAuthority, KithCoord.override, Shard.override]
  cases coordCellLookup (c.shardOf key) key <;> rfl

section Created

theorem coordResolveBuckets_pow {requested b : UInt32}
    (found : coordResolveBuckets requested = some b) : ∃ k, b.toNat = 2 ^ k := by
  obtain ⟨r, hr, rfl⟩ := map_eq_some_iff.mp found
  obtain ⟨k, _, pow⟩ := nextPow2Loop_pow hr
  split
  · exact ⟨4, rfl⟩
  · exact ⟨k, pow⟩

variable {params : Option CoordParams} {heap heap' : Heap CoordSite}

variable (created : kithCoordCreate params heap = some (.ok c, heap'))
include created

theorem kithCoordCreate_eq :
    ∃ p buckets densityBuckets, c = coordOfParams p buckets densityBuckets ∧
      (∃ k, buckets.toNat = 2 ^ k) ∧ ∃ k, densityBuckets.toNat = 2 ^ k := by
  rw [kithCoordCreate] at created
  cases ready : coordParamsReady params with
  | error code => simp [ready] at created
  | ok p =>
    simp only [ready] at created
    split at created
    · simp at created
    · obtain ⟨buckets, hb, created⟩ := bind_eq_some_iff.mp created
      split at created
      · simp at created
      · obtain ⟨densityBuckets, hd, created⟩ := map_eq_some_iff.mp created
        split at created
        · simp at created
        · simp only [Prod.mk.injEq, Except.ok.injEq] at created
          exact ⟨p, buckets, densityBuckets, created.1.symm, coordResolveBuckets_pow hb,
            coordResolveBuckets_pow hd⟩

theorem kithCoordCreate_valid : c.Valid ∧ c.override = fun _ => none := by
  obtain ⟨p, buckets, densityBuckets, rfl, ⟨k, hk⟩, _⟩ := kithCoordCreate_eq created
  have shards :
      ∀ i, (coordOfParams p buckets densityBuckets).shards i = coordShardInit (2 ^ k) := by
    intro i
    rw [← hk]
    rfl
  refine ⟨⟨fun i => shards i ▸ .of_table (.empty k fun _ _ => rfl), fun i key hkey => ?_⟩, ?_⟩
  · rw [shards, coordShardInit_override] at hkey
    cases hkey
  · funext key
    rw [KithCoord.override, KithCoord.shardOf, shards, coordShardInit_override]

end Created

section Calls

/-- A write of the key lands: the key has a live bucket, or its shard has room. -/
def KithCoord.Stores (c : KithCoord) (key : CellKey) : Prop := (c.shardOf key).Stores key

instance (c : KithCoord) (key : CellKey) : Decidable (c.Stores key) :=
  inferInstanceAs (Decidable ((c.shardOf key).Stores key))

section

variable (valid : c.Valid)
include valid

variable (key : CellKey)

theorem setShard_store (a : Authority) :
    let r := coordCellStore (c.shardOf key) key a
    (c.setShard key r.2).Valid ∧ (c.setShard key r.2).override =
      (if c.Stores key then update c.override key (some a) else c.override) ∧
    (r.1 = .ok ↔ c.Stores key ∨ (c.shardOf key).HasTomb) := by
  have spec := coordCellStore_spec (valid.shardOf key) key a
  obtain ⟨stored, written⟩ := setShard_ite valid spec.valid spec.override
  exact ⟨stored, written, spec.rc_ok⟩

theorem setShard_clear : (c.setShard key (coordCellClear (c.shardOf key) key)).Valid ∧
    (c.setShard key (coordCellClear (c.shardOf key) key)).override =
      update c.override key none := by
  obtain ⟨cleared, written⟩ := coordCellClear_spec (valid.shardOf key) key
  exact setShard_spec valid cleared written

theorem counter_valid (epoch : UInt32) :
    KithCoord.Valid { c with authorityEpochCounter := epoch } :=
  ⟨valid.shard, valid.zoned⟩

theorem kithCoordSetAuthority_spec (instanceId : UInt32) :
    let r := kithCoordSetAuthority c key instanceId
    r.2.Valid ∧ r.2.override = (if c.Stores key then
        update c.override key (some ⟨instanceId, c.authorityEpochCounter + 1⟩)
      else c.override) ∧ (r.1 = .ok ↔ c.Stores key ∨ (c.shardOf key).HasTomb) :=
  setShard_store (counter_valid valid (c.authorityEpochCounter + 1)) key _

theorem kithCoordClearAuthority_spec : (kithCoordClearAuthority c key).2.Valid ∧
    (kithCoordClearAuthority c key).2.override = update c.override key none :=
  setShard_clear (counter_valid valid (c.authorityEpochCounter + 1)) key

end

def RebalanceContract.outcome (contract : RebalanceContract) : Option Authority :=
  if contract.targetInstanceId = 0 then none
  else some ⟨contract.targetInstanceId, contract.authorityEpoch⟩

/-- A contract takes effect: it clears, or its write lands. -/
def RebalanceContract.Lands (contract : RebalanceContract) (c : KithCoord) : Prop :=
  contract.targetInstanceId = 0 ∨ c.Stores contract.key

instance (contract : RebalanceContract) (c : KithCoord) : Decidable (contract.Lands c) :=
  inferInstanceAs (Decidable (contract.targetInstanceId = 0 ∨ c.Stores contract.key))

theorem kithCoordOnRebalance_spec (valid : c.Valid) (contract : RebalanceContract) :
    let r := kithCoordOnRebalance c contract
    r.2.Valid ∧
      r.2.override = (if contract.Lands c then update c.override contract.key contract.outcome
      else c.override) ∧
    (r.1 = .ok ↔ contract.Lands c ∨ (c.shardOf contract.key).HasTomb) := by
  by_cases zero : contract.targetInstanceId = 0
  · have lands : contract.Lands c := .inl zero
    have cleared := setShard_clear valid contract.key
    simp only [kithCoordOnRebalance, zero, if_true, RebalanceContract.outcome, lands, true_or,
      and_true]
    exact cleared
  · have lands : contract.Lands c ↔ c.Stores contract.key := by
      simp [RebalanceContract.Lands, zero]
    simp only [kithCoordOnRebalance, zero, if_false, RebalanceContract.outcome, lands]
    exact setShard_store valid contract.key _

end Calls

section Reports

theorem kithCoordReportDensity_shards (c : KithCoord) (key : CellKey) (actorCount : UInt32)
    (nowMs : UInt64) :
    let c' := (kithCoordReportDensity c key actorCount nowMs).2
    c'.shards = c.shards ∧ c'.authorityEpochCounter = c.authorityEpochCounter ∧
      c'.instanceId = c.instanceId := by
  simp only [kithCoordReportDensity, coordDensityCreate]
  cases coordDensityFind c key with
  | some i => exact ⟨rfl, rfl, rfl⟩
  | none =>
    cases place densityLayout c.densityBuckets c.density (coordCellMix key) with
    | fresh i reused => exact ⟨rfl, rfl, rfl⟩
    | full tomb => cases tomb <;> exact ⟨rfl, rfl, rfl⟩

variable {c' : KithCoord}

theorem override_congr (same : c'.shards = c.shards) : c'.override = c.override := by
  funext k
  rw [KithCoord.override, KithCoord.override, KithCoord.shardOf, KithCoord.shardOf, same]

theorem valid_congr (valid : c.Valid) (same : c'.shards = c.shards) : c'.Valid :=
  ⟨fun i => same ▸ valid.shard i, fun i k hk => valid.zoned i k (same ▸ hk)⟩

end Reports

section Phases

inductive Decision where
  | split (key : CellKey) (source target epoch : UInt32)
  | merge (key : CellKey) (source epoch : UInt32)
  deriving DecidableEq

def Decision.key : Decision → CellKey
  | .split key _ _ _ => key
  | .merge key _ _ => key

def Decision.contract : Decision → RebalanceContract
  | .split key source target epoch => ⟨key, source, target, epoch⟩
  | .merge key source epoch => ⟨key, source, 0, epoch⟩

theorem contract_key (d : Decision) : d.contract.key = d.key := by
  cases d <;> rfl

def Decision.outcome : Decision → Option Authority
  | .split _ _ target epoch => some ⟨target, epoch⟩
  | .merge _ _ _ => none

/-- The decision a phase comes to in the state it meets. -/
def phasePlan (nowMs : UInt64) (v : Nat × Phase) (s : TickState) : Option Decision :=
  if phaseDue s.coord nowMs v = true then
    let key := (s.coord.density v.1).key
    let epoch := s.coord.authorityEpochCounter + 1
    match v.2, s.coord.override key with
    | .split, none =>
      let target := coordPickSplitTarget (some s.bus) s.coord.instanceId
      if target = s.coord.instanceId then none
      else some (.split key s.coord.instanceId target epoch)
    | .split, some _ => none
    | .merge, some a => some (.merge key a.instanceId epoch)
    | .merge, none => none
  else none

/-- The decision takes effect on the override map. -/
def Decision.Lands (c : KithCoord) : Decision → Prop
  | .split key _ _ _ => (c.shardOf key).HasRoom
  | .merge _ _ _ => True

/-- The decision gets as far as its broadcast: for a split, `coord_cell_create`
returns a node, which may be a tombstone. -/
def Decision.Made (c : KithCoord) : Decision → Prop
  | .split key _ _ _ => (c.shardOf key).HasRoom ∨ (c.shardOf key).HasTomb
  | .merge _ _ _ => True

instance (c : KithCoord) : (d : Decision) → Decidable (d.Lands c)
  | .split key _ _ _ => inferInstanceAs (Decidable (c.shardOf key).HasRoom)
  | .merge _ _ _ => isTrue trivial

instance (c : KithCoord) : (d : Decision) → Decidable (d.Made c)
  | .split key _ _ _ =>
    inferInstanceAs (Decidable ((c.shardOf key).HasRoom ∨ (c.shardOf key).HasTomb))
  | .merge _ _ _ => isTrue trivial

variable {d : Decision} {nowMs : UInt64} {v : Nat × Phase} {s : TickState} {c c' : KithCoord}
    {n : DensityNode} {i : Nat}

theorem Decision.Lands.made (lands : d.Lands c) : d.Made c := by
  cases d with
  | split key source target epoch => exact .inl lands
  | merge key source epoch => trivial

/-- A decision is about the node's key, which a split finds without an override
and a merge with one. -/
theorem phasePlan_some (planned : phasePlan nowMs v s = some d) :
    phaseDue s.coord nowMs v = true ∧ d.key = (s.coord.density v.1).key ∧
      ((s.coord.override d.key).isSome ↔ d.outcome = none) := by
  obtain ⟨i, phase⟩ := v
  by_cases due : phaseDue s.coord nowMs (i, phase) = true
  · refine ⟨due, ?_⟩
    simp only [phasePlan, due, if_true] at planned
    split at planned
    · rename_i found
      simp only [ite_none_left_eq_some, some.injEq] at planned
      obtain ⟨_, rfl⟩ := planned
      exact ⟨rfl, by simp [Decision.key, Decision.outcome, found]⟩
    · cases planned
    · rename_i a found
      cases planned
      exact ⟨rfl, by simp [Decision.key, Decision.outcome, found]⟩
    · cases planned
  · simp only [phasePlan, due] at planned
    cases planned

/-- The allocations of the decision's broadcast are granted. -/
def TickState.granted (s : TickState) (d : Decision) : Bool :=
  s.bus.publishGranted s.heap d.contract.bytes

def TickState.event (s : TickState) (d : Decision) : BusEvent :=
  s.bus.event .rebalance d.key.zone d.contract.bytes

/-- What places a node in the density table. -/
def DensityNode.marks (n : DensityNode) : CellKey × Bool × Bool := (n.key, n.used, n.deleted)

/-- The node stays in place and at most its timers stop. -/
structure DensityNode.Kept (n n' : DensityNode) : Prop where
  marks : n'.marks = n.marks
  split : n'.splitSinceMs = n.splitSinceMs ∨ n'.splitSinceMs = 0
  merge : n'.mergeSinceMs = n.mergeSinceMs ∨ n'.mergeSinceMs = 0

structure DensityKept (c c' : KithCoord) : Prop where
  buckets : c'.densityBuckets = c.densityBuckets
  node : ∀ j, (c.density j).Kept (c'.density j)

structure PhaseSpec (s : TickState) (d : Decision) (r : Rc × TickState) : Prop where
  valid : r.2.coord.Valid
  override : r.2.coord.override = if d.Lands s.coord then
    update s.coord.override d.key d.outcome else s.coord.override
  rc : r.1 = if d.Made s.coord ∧ s.granted d then .ok else .err .enomem
  pending : r.2.bus.pending =
    s.bus.pending ++ if d.Made s.coord ∧ s.granted d then [s.event d] else []
  ids : r.2.bus.ids = s.bus.ids
  instanceId : r.2.coord.instanceId = s.coord.instanceId
  density : DensityKept s.coord r.2.coord

theorem coordTickPhase_of_plan_none (idle : phasePlan nowMs v s = none) :
    coordTickPhase nowMs v s = (.ok, s) := by
  obtain ⟨i, phase⟩ := v
  by_cases due : phaseDue s.coord nowMs (i, phase) = true
  · simp only [phasePlan, due, if_true, KithCoord.override, Shard.override] at idle
    simp only [coordTickPhase, due, if_true]
    cases phase with
    | split =>
      simp only [coordTickSplit]
      cases found : coordCellLookup (s.coord.shardOf (s.coord.density i).key)
          (s.coord.density i).key with
      | some j => rfl
      | none =>
        rw [found] at idle
        simp only [map_none, ite_eq_left_iff, reduceCtorEq, imp_false, not_not] at idle
        simp [idle]
    | merge =>
      simp only [coordTickMerge]
      cases found : coordCellLookup (s.coord.shardOf (s.coord.density i).key)
          (s.coord.density i).key with
      | some j =>
        rw [found] at idle
        cases idle
      | none => rfl
  · simp only [coordTickPhase, due]
    rfl

section

variable (buckets : c'.densityBuckets = c.densityBuckets) (same : c'.density = c.density)
include buckets same

theorem densityKept_of_eq : DensityKept c c' :=
  ⟨buckets, fun _ => same ▸ ⟨rfl, .inl rfl, .inl rfl⟩⟩

theorem densityKept_setDensity (kept : (c.density i).Kept n) :
    DensityKept c (c'.setDensity i n) := by
  refine ⟨buckets, fun j => ?_⟩
  simp only [KithCoord.setDensity, same, update_apply]
  split
  · rename_i here
    rwa [here]
  · exact ⟨rfl, .inl rfl, .inl rfl⟩

end

theorem coordTickAnnounce_spec {coord : KithCoord} (made : d.Made s.coord) (valid : coord.Valid)
    (override : coord.override = if d.Lands s.coord then
      update s.coord.override d.key d.outcome else s.coord.override)
    (instanceId : coord.instanceId = s.coord.instanceId) (kept : DensityKept s.coord coord)
    (stopped : DensityKept s.coord (coord.setDensity i n)) :
    PhaseSpec s d (coordTickAnnounce { s with coord := coord } d.contract i n) := by
  have spec := kithCoordBusPublish_spec s.bus s.heap .rebalance d.key.zone d.contract.bytes
  have hids : ∀ bus : Bus, bus.members = s.bus.members → bus.ids = s.bus.ids := by
    intro bus same
    rw [Bus.ids, Bus.ids, same]
  simp only [coordTickAnnounce, coordBroadcastRebalance, contract_key]
  rcases published : kithCoordBusPublish s.bus s.heap .rebalance d.key.zone d.contract.bytes
    with ⟨rc, bus, heap⟩
  rw [published] at spec
  cases granted : s.granted d with
  | true =>
    have grant : s.bus.publishGranted s.heap d.contract.bytes = true := granted
    obtain rfl : rc = .ok := by simpa [grant] using spec.rc
    refine ⟨⟨valid.shard, valid.zoned⟩, ?_, by simp [made, granted], ?_,
      hids _ spec.members, instanceId, stopped⟩
    · exact (override_congr rfl).trans override
    · simpa [made, granted, grant, TickState.event] using spec.pending
  | false =>
    have refused : s.bus.publishGranted s.heap d.contract.bytes = false := granted
    obtain rfl : rc = .err .enomem := by simpa [refused] using spec.rc
    refine ⟨valid, override, by simp [granted], ?_, hids _ spec.members, instanceId, kept⟩
    simpa [granted, refused] using spec.pending

variable (valid : s.coord.Valid)
include valid

theorem coordTickSplit_spec {target : UInt32}
    (absent : s.coord.override (s.coord.density i).key = none)
    (htarget : coordPickSplitTarget (some s.bus) s.coord.instanceId = target)
    (other : target ≠ s.coord.instanceId) :
    PhaseSpec s (.split (s.coord.density i).key s.coord.instanceId target
      (s.coord.authorityEpochCounter + 1)) (coordTickSplit s i) := by
  set key := (s.coord.density i).key with hkey
  set epoch := s.coord.authorityEpochCounter + 1 with hepoch
  set d : Decision := .split key s.coord.instanceId target epoch with hd
  have missing : coordCellLookup (s.coord.shardOf key) key = none := by
    simpa [KithCoord.override, Shard.override] using absent
  obtain ⟨hsome, hvalid, hover⟩ :=
    coordCellInsert_spec (valid.shardOf key) key ⟨target, epoch⟩ absent
  simp only [coordTickSplit, ← hkey, missing, htarget, other, if_false, ← hepoch]
  cases inserted : coordCellInsert (s.coord.shardOf key) key ⟨target, epoch⟩ with
  | mk node sh =>
    rw [inserted] at hsome hvalid hover
    have made : d.Made s.coord ↔ node.isSome := hsome.symm
    set coord := KithCoord.setShard { s.coord with authorityEpochCounter := epoch } key sh
    obtain ⟨after, written⟩ : coord.Valid ∧ coord.override = if d.Lands s.coord then
        update s.coord.override d.key d.outcome else s.coord.override :=
      setShard_ite (p := (s.coord.shardOf key).HasRoom) (counter_valid valid epoch) hvalid hover
    have kept : DensityKept s.coord coord := densityKept_of_eq rfl rfl
    cases node with
    | none =>
      have unmade : ¬ d.Made s.coord := by simp [made]
      exact ⟨after, written, by simp [unmade], by simp [unmade], rfl, rfl, kept⟩
    | some j =>
      exact coordTickAnnounce_spec (made.mpr rfl) after written rfl kept
        (densityKept_setDensity rfl rfl ⟨rfl, .inr rfl, .inl rfl⟩)

theorem coordTickMerge_spec {a : Authority}
    (present : s.coord.override (s.coord.density i).key = some a) :
    PhaseSpec s (.merge (s.coord.density i).key a.instanceId (s.coord.authorityEpochCounter + 1))
      (coordTickMerge s i) := by
  set key := (s.coord.density i).key with hkey
  set epoch := s.coord.authorityEpochCounter + 1 with hepoch
  obtain ⟨j, found, rfl⟩ : ∃ j, coordCellLookup (s.coord.shardOf key) key = some j ∧
      ((s.coord.shardOf key).cells j).authority = a := by
    simpa [KithCoord.override, Shard.override] using present
  have holds := ((valid.shardOf key).lookup_iff key j).mp found
  obtain ⟨hvalid, hover⟩ := vacate_spec (valid.shardOf key) holds
  simp only [coordTickMerge, ← hkey, found, ← hepoch]
  obtain ⟨after, written⟩ := setShard_spec (counter_valid valid epoch) hvalid hover
  exact coordTickAnnounce_spec (d := .merge key _ epoch) trivial after
    (written.trans (if_pos trivial).symm) rfl (densityKept_of_eq rfl rfl)
    (densityKept_setDensity rfl rfl ⟨rfl, .inl rfl, .inr rfl⟩)

theorem coordTickPhase_of_plan_some (planned : phasePlan nowMs v s = some d) :
    PhaseSpec s d (coordTickPhase nowMs v s) := by
  obtain ⟨i, phase⟩ := v
  by_cases due : phaseDue s.coord nowMs (i, phase) = true
  · simp only [phasePlan, due, if_true] at planned
    simp only [coordTickPhase, due, if_true]
    cases phase with
    | split =>
      cases found : s.coord.override (s.coord.density i).key with
      | some a =>
        rw [found] at planned
        cases planned
      | none =>
        rw [found] at planned
        simp only [ite_none_left_eq_some, some.injEq] at planned
        obtain ⟨other, rfl⟩ := planned
        exact coordTickSplit_spec valid found rfl other
    | merge =>
      cases found : s.coord.override (s.coord.density i).key with
      | none =>
        rw [found] at planned
        cases planned
      | some a =>
        rw [found] at planned
        cases planned
        exact coordTickMerge_spec valid found
  · simp only [phasePlan, due] at planned
    cases planned

end Phases

section Ticks

variable {s : TickState} {nowMs : UInt64}

@[simp] theorem tickStart_coord (s : TickState) : (tickStart s).coord = s.coord.countTick := by
  simp only [tickStart, TickState.loaded]
  cases coordBusMemberFind s.bus s.coord.countTick.instanceId <;> rfl

@[simp] theorem tickStart_pending (s : TickState) : (tickStart s).bus.pending = s.bus.pending := by
  simp only [tickStart, TickState.loaded]
  cases coordBusMemberFind s.bus s.coord.countTick.instanceId <;> rfl

@[simp] theorem tickStart_ids (s : TickState) : (tickStart s).bus.ids = s.bus.ids := by
  simp only [tickStart, TickState.loaded]
  cases coordBusMemberFind s.bus s.coord.countTick.instanceId with
  | none => rfl
  | some m => simp

theorem countTick_valid (valid : c.Valid) : c.countTick.Valid := valid_congr valid rfl

@[simp] theorem countTick_override (c : KithCoord) : c.countTick.override = c.override :=
  override_congr rfl

/-- The invariant rule of the tick. -/
theorem tick_invariant {P : TickState → Prop} (idle : P { s with coord := s.coord.countTick })
    (start : P (tickStart s))
    (kept : ∀ v ∈ tickTrail s nowMs, P v.2 → P (coordTickPhase nowMs v.1 v.2).2) :
    P (coordTickOn s nowMs).2 ∧ ∀ v ∈ tickTrail s nowMs, P v.2 := by
  simp only [coordTickOn, tickTrail] at kept ⊢
  by_cases gate : tickGate s.coord.countTick s.bus = true
  · simp only [gate, if_true] at kept ⊢
    exact sweep_invariant start kept
  · simp only [gate, Bool.false_eq_true, if_false, List.not_mem_nil, false_imp_iff, implies_true,
      and_true]
    exact idle

/-- The simulation rule of the tick. -/
theorem tick_relate {τ : Type*} {R : TickState → τ → Prop} {f : τ → (Nat × Phase) × TickState → τ}
    {t : τ} (idle : R { s with coord := s.coord.countTick } t) (start : R (tickStart s) t)
    (advance : ∀ v ∈ tickTrail s nowMs, ∀ t, R v.2 t → R (coordTickPhase nowMs v.1 v.2).2 (f t v)) :
    R (coordTickOn s nowMs).2 ((tickTrail s nowMs).foldl f t) := by
  simp only [coordTickOn, tickTrail] at advance ⊢
  by_cases gate : tickGate s.coord.countTick s.bus = true
  · simp only [gate, if_true] at advance ⊢
    exact sweep_relate start advance
  · simp only [gate]
    exact idle

theorem coordTickPhase_valid {v : Nat × Phase} (valid : s.coord.Valid) :
    (coordTickPhase nowMs v s).2.coord.Valid := by
  cases planned : phasePlan nowMs v s with
  | none => rwa [coordTickPhase_of_plan_none planned]
  | some d => exact (coordTickPhase_of_plan_some valid planned).valid

theorem tick_valid (valid : s.coord.Valid) : (coordTickOn s nowMs).2.coord.Valid ∧
    ∀ v ∈ tickTrail s nowMs, v.2.coord.Valid := by
  apply tick_invariant (P := fun t => t.coord.Valid) (countTick_valid valid)
  · rw [tickStart_coord]
    exact countTick_valid valid
  · intro v _ hv
    exact coordTickPhase_valid hv

end Ticks

end Kith.Coord
