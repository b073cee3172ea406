import Kith.Base
import Kith.Lib.Rehash

/-!
# The cell store of the fabric

Sixteen probed tables keyed by zone, each of which doubles before an insert
would fill it. A publish replaces the product the store retains for the cell,
unless its authority epoch is below the retained one. The sim is an oracle for
actor counts; the locks serialise the calls and are left out.
-/

namespace Kith.Fabric

open LinearProbe Function

/-- `struct fabric_cell_node`: one retained cell product. -/
structure CellNode where
  key : CellKey
  used : Bool
  deleted : Bool
  authorityEpoch : UInt32
  publishSeq : UInt64
  actorCount : UInt32
  deriving DecidableEq

def CellNode.zero : CellNode := ⟨⟨0, 0, 0, 0, 0⟩, false, false, 0, 0, 0⟩

def cellLayout : Layout CellNode CellKey := ⟨CellNode.used, CellNode.deleted, CellNode.key⟩

structure Shard where
  cells : Nat → CellNode
  buckets : Nat
  count : UInt64
  tombstones : UInt64

structure SubNode where
  key : CellKey
  used : Bool
  deleted : Bool
  pending : Bool
  deriving DecidableEq

def subLayout : Layout SubNode CellKey := ⟨SubNode.used, SubNode.deleted, SubNode.key⟩

/-- `struct kith_fabric_subscription`; `handle` stands for its address. -/
structure Subscription where
  handle : Nat
  nodes : Nat → SubNode
  buckets : Nat
  count : Nat

structure KithFabric where
  shards : Fin 16 → Shard
  subs : List Subscription
  subCap : Nat
  totalCount : UInt64
  publishTotal : UInt64

inductive FabricSite where
  | handle | lock | snapshotLock | shard | grow
  | subscription | subNodes | subLock | subTable
  deriving DecidableEq

def fabricCellMix (key : CellKey) : Nat := (cellMix key).toNat

section Shards

variable (sh : Shard)

def fabricCellLookup (key : CellKey) : Option Nat :=
  lookup cellLayout sh.buckets sh.cells (fabricCellMix key) key

def fabricCellCreate (key : CellKey) : Option Nat × Shard :=
  match place cellLayout sh.buckets sh.cells (fabricCellMix key) with
  | .fresh i reused =>
    (some i, { sh with
      cells := update sh.cells i ⟨key, true, false, 0, 0, 0⟩
      count := sh.count + 1
      tombstones := if reused then sh.tombstones - 1 else sh.tombstones })
  | .full _ => (none, sh)

/-- `none` when the search for a free bucket of the new table does not end. A cell
node takes 40 bytes. -/
def fabricShardGrow (heap : Heap FabricSite) : Option (Rc × Shard × Heap FabricSite) :=
  let newBuckets := sh.buckets * 2
  if 2 ^ 64 ≤ newBuckets ∨ newBuckets ≤ sh.buckets then some (.err .enomem, sh, heap)
  else
    match heap.requestZeroed .grow newBuckets 40 with
    | (false, heap) => some (.err .enomem, sh, heap)
    | (true, heap) =>
      let nodes := (List.range sh.buckets).map sh.cells
      (rehash cellLayout newBuckets fabricCellMix nodes fun _ => CellNode.zero).map fun grown =>
        (.ok, ⟨grown, newBuckets, UInt64.ofNat (nodes.countP cellLayout.live), 0⟩, heap)

def fabricShardEnsurePublishCapacity (heap : Heap FabricSite) :
    Option (Rc × Shard × Heap FabricSite) :=
  let load := sh.count + sh.tombstones + 1
  let threshold := sh.buckets * 3 % 2 ^ 64 / 4
  if load.toNat ≤ threshold then some (.ok, sh, heap) else fabricShardGrow sh heap

def fabricShardInit (buckets : Nat) : Shard := ⟨fun _ => CellNode.zero, buckets, 0, 0⟩

/-- `node->deleted = true`. -/
def Shard.bury (i : Nat) : Shard :=
  { sh with cells := update sh.cells i { sh.cells i with deleted := true } }

end Shards

section Calls

def fabricShardFor (zone : UInt32) : Fin 16 := Fin.ofNat 16 zone.toNat

def KithFabric.shardOf (f : KithFabric) (key : CellKey) : Shard :=
  f.shards (fabricShardFor key.zone)

def KithFabric.setShard (f : KithFabric) (key : CellKey) (sh : Shard) : KithFabric :=
  { f with shards := update f.shards (fabricShardFor key.zone) sh }

def Subscription.notify (sub : Subscription) (key : CellKey) : Subscription :=
  match lookup subLayout sub.buckets sub.nodes (fabricCellMix key) key with
  | none => sub
  | some i => { sub with nodes := update sub.nodes i { sub.nodes i with pending := true } }

def fabricFanout (f : KithFabric) (key : CellKey) : KithFabric :=
  { f with subs := f.subs.map fun sub => sub.notify key }

/-- A result code, and what `*out_seq` receives. -/
structure Published where
  rc : Rc
  seq : Option UInt64
  deriving DecidableEq

def fabricPublishExisting (node : CellNode) (epoch : UInt32) (actors : UInt32) : CellNode :=
  { node with actorCount := actors, authorityEpoch := epoch, publishSeq := node.publishSeq + 1 }

section

variable (f : KithFabric) (key : CellKey)

/-- An insert past its capacity check, in the shard that check left. -/
def fabricPublishFill (epoch actors : UInt32) (sh : Shard) : Published × KithFabric :=
  match fabricCellCreate sh key with
  | (none, sh) => (⟨.err .enomem, none⟩, f.setShard key sh)
  | (some i, sh) =>
    let node : CellNode := { sh.cells i with
      authorityEpoch := epoch, publishSeq := 1, actorCount := actors }
    let sh : Shard := { sh with cells := update sh.cells i node }
    -- The abandoned bucket is not counted as a tombstone.
    if 2 ^ 64 ≤ f.totalCount.toNat + 1 then
      (⟨.err .eoverflow, none⟩, f.setShard key { sh.bury i with count := sh.count - 1 })
    else (⟨.ok, some 1⟩, { f.setShard key sh with totalCount := f.totalCount + 1 })

def fabricPublishInsert (heap : Heap FabricSite) (key : CellKey)
    (epoch actors : UInt32) : Option (Published × KithFabric × Heap FabricSite) :=
  (fabricShardEnsurePublishCapacity (f.shardOf key) heap).map fun (rc, sh, heap) =>
    match rc with
    | .err code => (⟨.err code, none⟩, f.setShard key sh, heap)
    | .ok =>
      match fabricPublishFill f key epoch actors sh with
      | (published, f) => (published, f, heap)

/-- The tail of a successful publish. -/
def KithFabric.announce : KithFabric :=
  { fabricFanout f key with publishTotal := f.publishTotal + 1 }

/-- `actors` is what the sim reports for the cell. -/
def kithFabricPublish (heap : Heap FabricSite) (key : CellKey) (epoch : UInt32)
    (actors : UInt32) : Option (Published × KithFabric × Heap FabricSite) :=
  let sh := f.shardOf key
  match fabricCellLookup sh key with
  | some i =>
    if epoch < (sh.cells i).authorityEpoch then some (⟨.err .eperm, none⟩, f, heap)
    else
      let node := fabricPublishExisting (sh.cells i) epoch actors
      let sh : Shard := { sh with cells := update sh.cells i node }
      some (⟨.ok, some node.publishSeq⟩, (f.setShard key sh).announce key, heap)
  | none =>
    (fabricPublishInsert f heap key epoch actors).map fun (published, f, heap) =>
      match published.rc with
      | .err _ => (published, f, heap)
      | .ok => (published, f.announce key, heap)

/-- What the removals do to a live bucket of a zone's shard: it becomes a tombstone,
and the counts that are not zero go down. -/
def KithFabric.vacate (zone : UInt32) (i : Nat) : KithFabric :=
  let sh := f.shards (fabricShardFor zone)
  let sh : Shard := { sh.bury i with
    tombstones := sh.tombstones + 1
    count := if sh.count > 0 then sh.count - 1 else sh.count }
  { f with
    shards := update f.shards (fabricShardFor zone) sh
    totalCount := if f.totalCount > 0 then f.totalCount - 1 else f.totalCount }

def kithFabricRemoveCell : Rc × KithFabric :=
  match fabricCellLookup (f.shardOf key) key with
  | none => (.ok, f)
  | some i => (.ok, f.vacate key.zone i)

end

/-- One round of the sweep over the shard of the zone. -/
def fabricRemoveBucket (zone : UInt32) (f : KithFabric) (i : Nat) : KithFabric :=
  let c := (f.shards (fabricShardFor zone)).cells i
  if c.used = false ∨ c.deleted = true ∨ c.key.zone ≠ zone then f else f.vacate zone i

def kithFabricRemoveZone (f : KithFabric) (zone : UInt32) : Rc × KithFabric :=
  (.ok, (List.range (f.shards (fabricShardFor zone)).buckets).foldl (fabricRemoveBucket zone) f)

/-- `kith_fabric_product_level_t`. -/
inductive ProductLevel where
  | full | reduced | crowd
  deriving DecidableEq

/-- `kith_fabric_cell_product_t`. -/
structure CellProduct where
  key : CellKey
  authorityEpoch : UInt32
  publishSeq : UInt64
  productLevel : ProductLevel
  actorCount : UInt32
  deriving DecidableEq

def fabricFillProduct (c : CellNode) : CellProduct :=
  ⟨c.key, c.authorityEpoch, c.publishSeq, .full, c.actorCount⟩

def kithFabricCellProduct (f : KithFabric) (key : CellKey) : Except KithError CellProduct :=
  match fabricCellLookup (f.shardOf key) key with
  | none => .error .enoent
  | some i => .ok (fabricFillProduct ((f.shardOf key).cells i))

def kithFabricProductCount (f : KithFabric) : UInt64 := f.totalCount

end Calls

section Create

def fabricNextPow2 (v : UInt32) : Option UInt32 := nextPow2Loop v 33 1

def fabricResolveBuckets (requested : UInt32) : Option UInt32 :=
  (fabricNextPow2 requested).map fun b => if b < 16 then 16 else b

/-- `kith_fabric_params_t`; `size` and `abiVersion` are checked against 80 and 1. -/
structure FabricParams where
  size : UInt32
  abiVersion : UInt32
  cellBucketCount : UInt32
  deriving DecidableEq

def fabricResolveParams (p : FabricParams) : FabricParams :=
  { p with cellBucketCount := if p.cellBucketCount = 0 then 4096 else p.cellBucketCount }

def fabricParamsReady : Option FabricParams → Except KithError FabricParams
  | none => .ok (fabricResolveParams ⟨80, 1, 0⟩)
  | some p =>
    if p.size < 80 then .error .esize
    else if p.abiVersion ≠ 1 then .error .eabiver
    else .ok (fabricResolveParams p)

def fabricOfBuckets (buckets : UInt32) : KithFabric :=
  ⟨fun _ => fabricShardInit buckets.toNat, [], 0, 0, 0⟩

/-- A mutex that cannot be initialised reports as an allocation failure. -/
def kithFabricCreate (params : Option FabricParams) (heap : Heap FabricSite) :
    Option (Except KithError KithFabric × Heap FabricSite) :=
  match fabricParamsReady params with
  | .error code => some (.error code, heap)
  | .ok p =>
    match heap.request .handle with
    | (false, heap) => some (.error .enomem, heap)
    | (true, heap) =>
      match heap.request .lock with
      | (false, heap) => some (.error .enomem, heap)
      | (true, heap) =>
        match heap.request .snapshotLock with
        | (false, heap) => some (.error .enomem, heap)
        | (true, heap) =>
          (fabricResolveBuckets p.cellBucketCount).map fun buckets =>
            match Heap.requests heap .shard 16 with
            | (false, heap) => (.error .enomem, heap)
            | (true, heap) => (.ok (fabricOfBuckets buckets), heap)

end Create

end Kith.Fabric
