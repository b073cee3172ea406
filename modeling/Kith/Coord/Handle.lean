import Mathlib.Data.Fintype.Basic
import Kith.Coord.Bus
import Kith.Coord.Table
import Kith.Lib.Sweep

/-!
# The coord handle

Creation, authority queries and changes, density reports, the split/merge tick
and the application of an incoming contract. The bus is borrowed, so the calls
that read it take it as an argument and the tick returns it.
-/

namespace Kith.Coord

open LinearProbe Sweep

structure DensityNode where
  key : CellKey
  used : Bool
  deleted : Bool
  actorCount : UInt32
  splitSinceMs : UInt64
  mergeSinceMs : UInt64
  lastReportMs : UInt64
  deriving DecidableEq

def DensityNode.zero : DensityNode := ⟨⟨0, 0, 0, 0, 0⟩, false, false, 0, 0, 0, 0⟩

def densityLayout : Layout DensityNode CellKey :=
  ⟨DensityNode.used, DensityNode.deleted, DensityNode.key⟩

/-- `struct kith_coord`, the borrowed bus apart. -/
structure KithCoord where
  instanceId : UInt32
  authorityEpochCounter : UInt32
  shards : Fin 16 → Shard
  density : Nat → DensityNode
  densityBuckets : Nat
  densityCount : Nat
  splitThreshold : UInt32
  mergeThreshold : UInt32
  splitMinDwellMs : UInt64
  mergeMinDwellMs : UInt64
  densityStride : UInt32
  tickCounter : UInt32

section Create

def coordNextPow2 (v : UInt32) : Option UInt32 := nextPow2Loop v 33 1

def coordResolveBuckets (requested : UInt32) : Option UInt32 :=
  (coordNextPow2 requested).map fun b => if b < 16 then 16 else b

/-- `kith_coord_params_t`; `size` and `abiVersion` are checked against 120 and 1. -/
structure CoordParams where
  size : UInt32
  abiVersion : UInt32
  instanceId : UInt32
  cellBucketCount : UInt32
  densityStride : UInt32
  splitThreshold : UInt32
  mergeThreshold : UInt32
  splitMinDwellMs : UInt64
  mergeMinDwellMs : UInt64
  deriving DecidableEq

def coordResolveParams (p : CoordParams) : CoordParams :=
  { p with
    cellBucketCount := if p.cellBucketCount = 0 then 4096 else p.cellBucketCount
    densityStride := if p.densityStride = 0 then 64 else p.densityStride
    splitThreshold := if p.splitThreshold = 0 then 200 else p.splitThreshold
    mergeThreshold := if p.mergeThreshold = 0 then 50 else p.mergeThreshold
    splitMinDwellMs := if p.splitMinDwellMs = 0 then 5000 else p.splitMinDwellMs
    mergeMinDwellMs := if p.mergeMinDwellMs = 0 then 10000 else p.mergeMinDwellMs }

def coordParamsReady : Option CoordParams → Except KithError CoordParams
  | none => .ok (coordResolveParams ⟨120, 1, 0, 0, 0, 0, 0, 0, 0⟩)
  | some p =>
    if p.size < 120 then .error .esize
    else if p.abiVersion ≠ 1 then .error .eabiver
    else .ok (coordResolveParams p)

inductive CoordSite where
  | handle | shard | density
  deriving DecidableEq

def coordOfParams (p : CoordParams) (buckets densityBuckets : UInt32) : KithCoord where
  instanceId := p.instanceId
  authorityEpochCounter := 0
  shards := fun _ => coordShardInit buckets.toNat
  density := fun _ => DensityNode.zero
  densityBuckets := densityBuckets.toNat
  densityCount := 0
  splitThreshold := p.splitThreshold
  mergeThreshold := p.mergeThreshold
  splitMinDwellMs := p.splitMinDwellMs
  mergeMinDwellMs := p.mergeMinDwellMs
  densityStride := p.densityStride
  tickCounter := 0

/-- `none` when a power-of-two search does not return. -/
def kithCoordCreate (params : Option CoordParams) (heap : Heap CoordSite) :
    Option (Except KithError KithCoord × Heap CoordSite) :=
  match coordParamsReady params with
  | .error code => some (.error code, heap)
  | .ok p =>
    match heap.request .handle with
    | (false, heap) => some (.error .enomem, heap)
    | (true, heap) =>
      (coordResolveBuckets p.cellBucketCount).bind fun buckets =>
        match Heap.requests heap .shard 16 with
        | (false, heap) => some (.error .enomem, heap)
        | (true, heap) =>
          (coordResolveBuckets 4096).map fun densityBuckets =>
            match heap.request .density with
            | (false, heap) => (.error .enomem, heap)
            | (true, heap) => (.ok (coordOfParams p buckets densityBuckets), heap)

end Create

section Ownership

def coordShardFor (zone : UInt32) : Fin 16 := ⟨zone.toNat % 16, zone_shard_lt zone⟩

variable (c : KithCoord) (key : CellKey)

def KithCoord.shardOf : Shard := c.shards (coordShardFor key.zone)

def KithCoord.setShard (sh : Shard) : KithCoord :=
  { c with shards := Function.update c.shards (coordShardFor key.zone) sh }

def KithCoord.override : Option Authority := (c.shardOf key).override key

def coordHashFallback (bus : Option Bus) (key : CellKey) : UInt32 :=
  match bus with
  | none => c.instanceId
  | some bus =>
    if bus.members.length ≤ 1 then c.instanceId
    else
      let members := UInt32.ofNat bus.members.length
      let h := (key.cellX.toUInt32 + key.cellY.toUInt32 + key.zone) % members
      let h := if h ≥ members then 0 else h
      bus.ids.getD h.toNat 0

def kithCoordAuthority (bus : Option Bus) (key : CellKey) : Authority :=
  match coordCellLookup (c.shardOf key) key with
  | some i => ((c.shardOf key).cells i).authority
  | none => ⟨coordHashFallback c bus key, 0⟩

def kithCoordSetAuthority (instanceId : UInt32) : Rc × KithCoord :=
  let epoch := c.authorityEpochCounter + 1
  let r := coordCellStore (c.shardOf key) key ⟨instanceId, epoch⟩
  (r.1, { c with authorityEpochCounter := epoch }.setShard key r.2)

def kithCoordClearAuthority : Rc × KithCoord :=
  (.ok, { c with authorityEpochCounter := c.authorityEpochCounter + 1 }.setShard key
    (coordCellClear (c.shardOf key) key))

def kithCoordOnRebalance (contract : RebalanceContract) : Rc × KithCoord :=
  let sh := c.shardOf contract.key
  if contract.targetInstanceId = 0 then
    (.ok, c.setShard contract.key (coordCellClear sh contract.key))
  else
    let r := coordCellStore sh contract.key
      ⟨contract.targetInstanceId, contract.authorityEpoch⟩
    (r.1, c.setShard contract.key r.2)

def kithCoordCellCount : UInt32 :=
  (List.finRange 16).foldl (fun total i => total + UInt32.ofNat (c.shards i).count) 0

def ownedInShard (sh : Shard) (instanceId : UInt32) (total : UInt32) : UInt32 :=
  (List.range sh.buckets).foldl (fun total j =>
    let n := sh.cells j
    if n.used = true ∧ n.deleted = false ∧ n.instanceId = instanceId then total + 1 else total)
      total

def kithCoordOwnedCellCount (instanceId : UInt32) : UInt32 :=
  (List.finRange 16).foldl (fun total i => ownedInShard (c.shards i) instanceId total) 0

end Ownership

section Density

variable (c : KithCoord)

def coordDensityFind (key : CellKey) : Option Nat :=
  lookup densityLayout c.densityBuckets c.density (coordCellMix key) key

def KithCoord.setDensity (i : Nat) (n : DensityNode) : KithCoord :=
  { c with density := Function.update c.density i n }

def coordDensityCreate (key : CellKey) : Option Nat × KithCoord :=
  match place densityLayout c.densityBuckets c.density (coordCellMix key) with
  | .fresh i _ => (some i, c.setDensity i ⟨key, true, false, 0, 0, 0, 0⟩)
  | .full tomb => (tomb, c)

/-- The threshold bookkeeping of one report. -/
def DensityNode.report (n : DensityNode) (splitThreshold mergeThreshold actorCount : UInt32)
    (nowMs : UInt64) : DensityNode :=
  let n := { n with actorCount := actorCount, lastReportMs := nowMs }
  if actorCount ≥ splitThreshold then
    { n with
      splitSinceMs := if n.splitSinceMs = 0 then nowMs else n.splitSinceMs
      mergeSinceMs := 0 }
  else if actorCount ≤ mergeThreshold then
    { n with
      mergeSinceMs := if n.mergeSinceMs = 0 then nowMs else n.mergeSinceMs
      splitSinceMs := 0 }
  else { n with splitSinceMs := 0, mergeSinceMs := 0 }

def KithCoord.report (i : Nat) (actorCount : UInt32) (nowMs : UInt64) : KithCoord :=
  c.setDensity i ((c.density i).report c.splitThreshold c.mergeThreshold actorCount nowMs)

def kithCoordReportDensity (key : CellKey) (actorCount : UInt32) (nowMs : UInt64) :
    Rc × KithCoord :=
  match coordDensityFind c key with
  | some i => (.ok, c.report i actorCount nowMs)
  | none =>
    match coordDensityCreate c key with
    | (none, c) => (.err .enomem, c)
    | (some i, c) =>
      (.ok, { c with densityCount := c.densityCount + 1 }.report i actorCount nowMs)

end Density

section Tick

/-- The best candidate so far is an instance id and its load. -/
def pickLoop (localId : UInt32) :
    List BusMember → Option (UInt32 × UInt32) → Option (UInt32 × UInt32)
  | [], best => best
  | m :: ms, best =>
    if m.instanceId = localId then pickLoop localId ms best
    else
      match best with
      | none => pickLoop localId ms (some (m.instanceId, m.ownedCellCount))
      | some (id, load) =>
        if m.ownedCellCount < load then pickLoop localId ms (some (m.instanceId, m.ownedCellCount))
        else pickLoop localId ms (some (id, load))

def coordPickSplitTarget (bus : Option Bus) (localId : UInt32) : UInt32 :=
  match bus with
  | none => localId
  | some bus =>
    if bus.members.length ≤ 1 then localId
    else
      match pickLoop localId bus.members none with
      | none => localId
      | some (id, _) => id

structure TickState where
  coord : KithCoord
  bus : Bus
  heap : Heap BusSite

section

variable (s : TickState)

def coordBroadcastRebalance (contract : RebalanceContract) : Rc × TickState :=
  match kithCoordBusPublish s.bus s.heap .rebalance contract.key.zone contract.bytes with
  | (rc, bus, heap) => (rc, { s with bus := bus, heap := heap })

/-- The tail of a split and of a merge: broadcast, then store back the density
node `n` with its timer stopped; a failed broadcast returns before that. -/
def coordTickAnnounce (contract : RebalanceContract) (i : Nat) (n : DensityNode) : Rc × TickState :=
  match coordBroadcastRebalance s contract with
  | (.err code, s) => (.err code, s)
  | (.ok, s) => (.ok, { s with coord := s.coord.setDensity i n })

def coordTickSplit (i : Nat) : Rc × TickState :=
  let n := s.coord.density i
  let sh := s.coord.shardOf n.key
  match coordCellLookup sh n.key with
  | some _ => (.ok, s)
  | none =>
    let target := coordPickSplitTarget (some s.bus) s.coord.instanceId
    if target = s.coord.instanceId then (.ok, s)
    else
      let epoch := s.coord.authorityEpochCounter + 1
      let coord := { s.coord with authorityEpochCounter := epoch }
      match coordCellInsert sh n.key ⟨target, epoch⟩ with
      | (none, sh) => (.err .enomem, { s with coord := coord.setShard n.key sh })
      | (some _, sh) =>
        coordTickAnnounce { s with coord := coord.setShard n.key sh }
          ⟨n.key, s.coord.instanceId, target, epoch⟩ i { n with splitSinceMs := 0 }

def coordTickMerge (i : Nat) : Rc × TickState :=
  let n := s.coord.density i
  let sh := s.coord.shardOf n.key
  match coordCellLookup sh n.key with
  | none => (.ok, s)
  | some j =>
    let epoch := s.coord.authorityEpochCounter + 1
    let coord := { s.coord with authorityEpochCounter := epoch }
    coordTickAnnounce { s with coord := coord.setShard n.key (sh.vacate j) }
      ⟨n.key, (sh.cells j).instanceId, 0, epoch⟩ i { n with mergeSinceMs := 0 }

end

inductive Phase where
  | split | merge
  deriving DecidableEq

variable (c : KithCoord)

/-- Whether the node is visited and its timer has run for the dwell time. -/
def phaseDue (nowMs : UInt64) : Nat × Phase → Bool
  | (i, .split) =>
    let n := c.density i
    n.used && !n.deleted && decide (n.splitSinceMs ≠ 0) &&
      decide (nowMs - n.splitSinceMs ≥ c.splitMinDwellMs)
  | (i, .merge) =>
    let n := c.density i
    n.used && !n.deleted && decide (n.mergeSinceMs ≠ 0) &&
      decide (nowMs - n.mergeSinceMs ≥ c.mergeMinDwellMs)

/-- One guarded half of the loop body of the tick. -/
def coordTickPhase (nowMs : UInt64) (v : Nat × Phase) (s : TickState) : Rc × TickState :=
  if phaseDue s.coord nowMs v then
    match v.2 with
    | .split => coordTickSplit s v.1
    | .merge => coordTickMerge s v.1
  else (.ok, s)

/-- The order in which the loop of the tick meets the two halves of its body. -/
def tickPhases (buckets : Nat) : List (Nat × Phase) :=
  (List.range buckets).flatMap fun i => [(i, .split), (i, .merge)]

variable (s : TickState)

/-- The tick past its stride and membership gates: publish the local load, then the loop. -/
def TickState.loaded : TickState :=
  match coordBusMemberFind s.bus s.coord.instanceId with
  | none => s
  | some _ =>
    let owned := kithCoordOwnedCellCount s.coord s.coord.instanceId
    { s with bus := s.bus.setLoad s.coord.instanceId owned }

/-- Whether a tick gets past its gates, the tick counter already advanced. -/
def tickGate (bus : Bus) : Bool :=
  (decide (c.densityStride = 0) || decide (c.tickCounter % c.densityStride = 0)) &&
    decide (1 < bus.members.length)

def KithCoord.countTick : KithCoord := { c with tickCounter := c.tickCounter + 1 }

/-- The state the loop of a tick starts from. -/
def tickStart : TickState :=
  TickState.loaded { s with coord := s.coord.countTick }

def coordTickOn (nowMs : UInt64) : Rc × TickState :=
  if tickGate s.coord.countTick s.bus then
    sweep .ok (coordTickPhase nowMs) (tickPhases s.coord.densityBuckets) (tickStart s)
  else (.ok, { s with coord := s.coord.countTick })

def kithCoordTick (bus : Option Bus) (heap : Heap BusSite) (nowMs : UInt64) :
    Rc × KithCoord × Option Bus × Heap BusSite :=
  match bus with
  | none => (.ok, c.countTick, none, heap)
  | some bus =>
    match coordTickOn ⟨c, bus, heap⟩ nowMs with
    | (rc, s) => (rc, s.coord, some s.bus, s.heap)

/-- The phases a tick reaches, each with the state it meets. -/
def tickTrail (nowMs : UInt64) : List ((Nat × Phase) × TickState) :=
  if tickGate s.coord.countTick s.bus then
    trail .ok (coordTickPhase nowMs) (tickPhases s.coord.densityBuckets) (tickStart s)
  else []

end Tick

end Kith.Coord
