import Kith.Base
import Kith.Lib.Rehash
import Kith.Lib.SwapRemove

/-!
# The artifact store of the sim

Sixteen shards keyed by zone. A shard keeps its artifacts in a dense array, finds
them by actor through one probed table and by cell through another, whose cells
list the dense positions of their members; each artifact records its slot in that
list. All tables of a shard double together before a publish would fill one. The
lock serialises the calls and is left out.
-/

namespace Kith.Sim

open LinearProbe SwapRemove Function

section Records

/-- `kith_sim_artifact_key_t`; the five components that locate the cell are `cell`. -/
structure ArtifactKey where
  cell : CellKey
  authorityEpoch : UInt32
  publishSeq : UInt64
  deriving DecidableEq

/-- `kith_sim_actor_t`, as far as a publish copies it. -/
structure Actor where
  id : UInt64
  posX : Int64
  posY : Int64
  posZ : Int64
  velX : Int64
  velY : Int64
  velZ : Int64
  inputTick : UInt32
  updateSeq : UInt32
  deriving DecidableEq

/-- `kith_sim_artifact_t`. -/
structure Artifact where
  key : ArtifactKey
  actorId : UInt64
  posX : Int64
  posY : Int64
  posZ : Int64
  velX : Int64
  velY : Int64
  velZ : Int64
  inputTick : UInt32
  updateSeq : UInt32
  deriving DecidableEq

/-- `struct sim_artifact_node`. -/
structure ArtNode where
  art : Artifact
  memberSlot : Nat
  deriving DecidableEq

def ArtNode.zero : ArtNode := ⟨⟨⟨⟨0, 0, 0, 0, 0⟩, 0, 0⟩, 0, 0, 0, 0, 0, 0, 0, 0, 0⟩, 0⟩

/-- `struct sim_cell_node`; `members` holds the `member_count` first entries. -/
structure CellNode where
  key : CellKey
  used : Bool
  deleted : Bool
  authorityEpoch : UInt32
  latestSeq : UInt64
  actorCount : UInt32
  members : List Nat
  memberCap : Nat
  deriving DecidableEq

def CellNode.zero : CellNode := ⟨⟨0, 0, 0, 0, 0⟩, false, false, 0, 0, 0, [], 0⟩

def cellLayout : Layout CellNode CellKey := ⟨CellNode.used, CellNode.deleted, CellNode.key⟩

def sizeMax : Nat := 2 ^ 64 - 1

/-- The parallel arrays `actor_keys`, `actor_used`, `actor_deleted` and `actor_dense`. -/
structure ActorSlot where
  key : UInt64
  used : Bool
  deleted : Bool
  dense : Nat
  deriving DecidableEq

def ActorSlot.zero : ActorSlot := ⟨0, false, false, 0⟩

def actorLayout : Layout ActorSlot UInt64 := ⟨ActorSlot.used, ActorSlot.deleted, ActorSlot.key⟩

/-- The hash of a shard that finds actors: the fields `actor_*`. -/
structure ActorTable where
  slots : Nat → ActorSlot
  buckets : Nat
  tombstones : Nat

/-- The hash of a shard that finds cells: `cells` and the fields `cell_*`. -/
structure CellTable where
  nodes : Nat → CellNode
  buckets : Nat
  count : Nat
  tombstones : Nat

/-- `struct sim_shard`. -/
structure Shard where
  arts : Nat → ArtNode
  artCount : Nat
  artCap : Nat
  actors : ActorTable
  cells : CellTable

structure ArtifactStore where
  shards : Fin 16 → Shard
  totalCount : Nat

inductive SimSite where
  | handle | lock | table | arts | members
  deriving DecidableEq

end Records

section Hashing

def simHashActor (k : UInt64) : Nat :=
  let k := k ^^^ (k >>> 33)
  let k := k * 0xff51afd7ed558ccd
  let k := k ^^^ (k >>> 33)
  let k := k * 0xc4ceb9fe1a85ec53
  let k := k ^^^ (k >>> 33)
  k.toNat

def simCellMix (key : CellKey) : Nat := (cellMix key).toNat

def simShardFor (zone : UInt32) : Fin 16 := ⟨zone.toNat % 16, zone_shard_lt zone⟩

end Hashing

section Cells

variable (t : CellTable) (key : CellKey)

def simCellLookup : Option Nat :=
  lookup cellLayout t.buckets t.nodes (simCellMix key) key

/-- A slot as `sim_cell_find_or_create` sets it up. -/
def CellNode.fresh : CellNode := ⟨key, true, false, 0, 0, 0, [], 0⟩

/-- A full table hands out its first tombstone as it is, still deleted. -/
def simCellFindOrCreate : Option Nat × CellTable :=
  match simCellLookup t key with
  | some i => (some i, t)
  | none =>
    match place cellLayout t.buckets t.nodes (simCellMix key) with
    | .fresh i reused =>
      (some i, { t with
        nodes := update t.nodes i (CellNode.fresh key)
        count := t.count + 1
        tombstones := if reused = true ∧ t.tombstones > 0 then t.tombstones - 1 else t.tombstones })
    | .full tomb => (tomb, t)

def CellTable.set (i : Nat) (c : CellNode) : CellTable :=
  { t with nodes := update t.nodes i c }

def simCellMembersFree (c : CellNode) : CellNode := { c with members := [], memberCap := 0 }

def simCellDrop (i : Nat) : CellTable :=
  let c := t.nodes i
  let c := { c with actorCount := if c.actorCount > 0 then c.actorCount - 1 else c.actorCount }
  if c.actorCount = 0 then
    { t.set i (simCellMembersFree { c with deleted := true }) with
      count := if t.count > 0 then t.count - 1 else t.count
      tombstones := t.tombstones + 1 }
  else t.set i c

/-- Writes of one field of the dense entry `i`. -/
def Shard.setSlot (sh : Shard) (i slot : Nat) : Shard :=
  { sh with arts := update sh.arts i { sh.arts i with memberSlot := slot } }

def Shard.fillArt (sh : Shard) (i : Nat) (art : Artifact) : Shard :=
  { sh with arts := update sh.arts i { sh.arts i with art := art } }

def Shard.setCell (sh : Shard) (i : Nat) (c : CellNode) : Shard :=
  { sh with cells := sh.cells.set i c }

def simCellMemberAppend (sh : Shard) (heap : Heap SimSite) (i idx : Nat) :
    Rc × Shard × Heap SimSite :=
  let c := sh.cells.nodes i
  let append (cap : Nat) : Shard :=
    (sh.setCell i { c with members := c.members ++ [idx], memberCap := cap }).setSlot idx
      c.members.length
  if c.memberCap ≤ c.members.length then
    match heap.request .members with
    | (false, heap) => (.err .enomem, sh, heap)
    | (true, heap) => (.ok, append (if c.memberCap ≠ 0 then c.memberCap * 2 else 4), heap)
  else (.ok, append c.memberCap, heap)

def simCellMemberUnlink (sh : Shard) (i idx : Nat) : Shard :=
  let c := sh.cells.nodes i
  let slot := (sh.arts idx).memberSlot
  match c.members[slot]?, c.members.getLast? with
  | some held, some moved =>
    if held ≠ idx then sh
    else
      let sh := sh.setCell i { c with members := swapRemove c.members slot }
      if slot ≠ c.members.length - 1 then sh.setSlot moved slot else sh
  | _, _ => sh

/-- The second loop of the rebuild. -/
def simRebuildFrom (sh : Shard) (heap : Heap SimSite) : List Nat → Rc × Shard × Heap SimSite
  | [] => (.ok, sh, heap)
  | i :: rest =>
    match simCellLookup sh.cells (sh.arts i).art.key.cell with
    | none => (.err .estate, sh, heap)
    | some c =>
      match simCellMemberAppend sh heap c i with
      | (.err code, sh, heap) => (.err code, sh, heap)
      | (.ok, sh, heap) => simRebuildFrom sh heap rest

/-- The first loop of the rebuild. -/
def CellTable.freeMembers : CellTable :=
  { t with nodes := fun i =>
      if i < t.buckets ∧ (t.nodes i).used = true ∧ (t.nodes i).deleted = false then
        simCellMembersFree (t.nodes i)
      else t.nodes i }

def simShardRebuildCellMembers (sh : Shard) (heap : Heap SimSite) : Rc × Shard × Heap SimSite :=
  simRebuildFrom { sh with cells := sh.cells.freeMembers } heap (List.range sh.artCount)

end Cells

section Actors

variable (t : ActorTable)

def simActorProbe (id : UInt64) : Option Nat :=
  lookup actorLayout t.buckets t.slots (simHashActor id) id

/-- The dense position of the new entry is `artCount`. The insert probe returns early when
it meets a live slot of the actor, which is when the lookup finds one. -/
def simActorInsert (artCount artCap : Nat) (id : UInt64) : Except KithError Nat × ActorTable :=
  if artCap ≤ artCount then (.error .enomem, t)
  else
    match simActorProbe t id with
    | some slot => (.ok (t.slots slot).dense, t)
    | none =>
      let reclaimed := if t.tombstones > 0 then t.tombstones - 1 else t.tombstones
      match place actorLayout t.buckets t.slots (simHashActor id) with
      | .fresh i reused =>
        (.ok artCount, { t with
          slots := update t.slots i ⟨id, true, false, artCount⟩
          tombstones := if reused then reclaimed else t.tombstones })
      | .full (some i) =>
        (.ok artCount, { t with
          slots := update t.slots i
            { t.slots i with deleted := false, key := id, dense := artCount }
          tombstones := reclaimed })
      | .full none => (.error .enomem, t)

def simActorDenseIndex (id : UInt64) : Nat :=
  match simActorProbe t id with
  | none => sizeMax
  | some slot => (t.slots slot).dense

def simActorMarkTombstone (slot : Nat) : ActorTable :=
  if (t.slots slot).used = false ∨ (t.slots slot).deleted = true then t
  else { t with
    slots := update t.slots slot { t.slots slot with deleted := true, dense := sizeMax }
    tombstones := t.tombstones + 1 }

def ActorTable.setDense (slot i : Nat) : ActorTable :=
  { t with slots := update t.slots slot { t.slots slot with dense := i } }

end Actors

section Growth

/-- Zeroed arrays of `count` entries, one for each entry size; all are requested before
the results are looked at. -/
def simRequestTables (heap : Heap SimSite) (count : Nat) : List Nat → Bool × Heap SimSite
  | [] => (true, heap)
  | size :: sizes =>
    match heap.requestZeroed .table count size with
    | (granted, heap) =>
      match simRequestTables heap count sizes with
      | (rest, heap) => (granted && rest, heap)

/-- `none` when the search for a free bucket of a new table does not end. The zeroed
arrays are the actor keys, their two flags, the dense positions and the cells. -/
def simShardGrow (sh : Shard) (heap : Heap SimSite) : Option (Rc × Shard × Heap SimSite) :=
  let newCap := sh.cells.buckets * 2
  if 2 ^ 64 ≤ newCap ∨ newCap ≤ sh.cells.buckets then some (.err .enomem, sh, heap)
  else
    match simRequestTables heap newCap [8, 1, 1, 8, 64] with
    | (false, heap) => some (.err .enomem, sh, heap)
    | (true, heap) =>
      match heap.request .arts with
      | (false, heap) => some (.err .enomem, sh, heap)
      | (true, heap) =>
        match rehash actorLayout newCap simHashActor
            ((List.range sh.actors.buckets).map sh.actors.slots) (fun _ => ActorSlot.zero),
          rehash cellLayout newCap simCellMix
            ((List.range sh.cells.buckets).map sh.cells.nodes) (fun _ => CellNode.zero) with
        | some slots, some nodes =>
          some (.ok, { sh with
            arts := fun i => if sh.artCap ≤ i ∧ i < newCap then ArtNode.zero else sh.arts i
            artCap := newCap
            actors := ⟨slots, newCap, 0⟩
            cells := ⟨nodes, newCap, sh.cells.count, 0⟩ }, heap)
        | _, _ => none

/-- The loop doubles the tables, so 64 rounds show whether it ends. -/
def simEnsureLoop (mayAddActor : Bool) : Nat → Shard → Heap SimSite →
    Option (Rc × Shard × Heap SimSite)
  | 0, _, _ => none
  | fuel + 1, sh, heap =>
    let actorLoad := sh.artCount + sh.actors.tombstones + 1
    let cellLoad := sh.cells.count + sh.cells.tombstones + 1
    if mayAddActor = true ∧ sh.actors.buckets * 3 % 2 ^ 64 / 4 < actorLoad ∨
        sh.cells.buckets * 3 % 2 ^ 64 / 4 < cellLoad then
      match simShardGrow sh heap with
      | none => none
      | some (.err code, sh, heap) => some (.err code, sh, heap)
      | some (.ok, sh, heap) => simEnsureLoop mayAddActor fuel sh heap
    else some (.ok, sh, heap)

def simShardEnsurePublishCapacity (sh : Shard) (heap : Heap SimSite) (mayAddActor : Bool) :
    Option (Rc × Shard × Heap SimSite) :=
  simEnsureLoop mayAddActor 64 sh heap

end Growth

variable (s : ArtifactStore)

section Publish

def simFillKey (src : ArtifactKey) (seq : UInt64) : ArtifactKey :=
  ⟨src.cell, src.authorityEpoch, seq⟩

def simFillArtifact (key : ArtifactKey) (seq : UInt64) (actor : Actor) : Artifact :=
  ⟨simFillKey key seq, actor.id, actor.posX, actor.posY, actor.posZ, actor.velX, actor.velY,
    actor.velZ, actor.inputTick, actor.updateSeq⟩

/-- A result code, and what `*out_seq` receives. -/
structure SimPublished where
  rc : Rc
  seq : Option UInt64
  deriving DecidableEq

/-- The cell after a publish into it, which is a new member or one it has. -/
def CellNode.advance (c : CellNode) (epoch : UInt32) (joins : Bool) : CellNode :=
  { c with
    latestSeq := c.latestSeq + 1
    actorCount := if joins then c.actorCount + 1 else c.actorCount
    authorityEpoch := epoch }

/-- The dense entry `idx` moves to another cell: unlinked first, so that a refused link
appends it to its old cell again. -/
def simPublishMove (sh : Shard) (heap : Heap SimSite) (idx : Nat) (key : ArtifactKey)
    (actor : Actor) : SimPublished × Shard × Heap SimSite :=
  let oldCell := simCellLookup sh.cells (sh.arts idx).art.key.cell
  let sh := match oldCell with
    | none => sh
    | some old => simCellMemberUnlink sh old idx
  match simCellFindOrCreate sh.cells key.cell with
  -- The source hands the missing cell to the append before it tests it; no table that the
  -- capacity check let through is full.
  | (none, cells) => (⟨.err .enomem, none⟩, { sh with cells := cells }, heap)
  | (some cell, cells) =>
    match simCellMemberAppend { sh with cells := cells } heap cell idx with
    | (.err code, sh, heap) =>
      match oldCell with
      | none => (⟨.err code, none⟩, sh, heap)
      | some old =>
        match simCellMemberAppend sh heap old idx with
        | (_, sh, heap) => (⟨.err code, none⟩, sh, heap)
    | (.ok, sh, heap) =>
      let c := (sh.cells.nodes cell).advance key.authorityEpoch true
      let sh := (sh.setCell cell c).fillArt idx (simFillArtifact key c.latestSeq actor)
      let sh := match oldCell with
        | none => sh
        | some old => { sh with cells := simCellDrop sh.cells old }
      (⟨.ok, some (sh.cells.nodes cell).latestSeq⟩, sh, heap)

def simPublishUpdate (sh : Shard) (heap : Heap SimSite) (idx : Nat) (key : ArtifactKey)
    (actor : Actor) : SimPublished × Shard × Heap SimSite :=
  if (sh.arts idx).art.key.cell = key.cell then
    match simCellLookup sh.cells key.cell with
    | none => (⟨.err .estate, none⟩, sh, heap)
    | some cell =>
      let c := (sh.cells.nodes cell).advance key.authorityEpoch false
      (⟨.ok, some c.latestSeq⟩,
        (sh.setCell cell c).fillArt idx (simFillArtifact key c.latestSeq actor), heap)
  else simPublishMove sh heap idx key actor

/-- Also returns the total count of the store. -/
def simPublishInsert (total : Nat) (sh : Shard) (heap : Heap SimSite) (key : ArtifactKey)
    (actor : Actor) : SimPublished × Nat × Shard × Heap SimSite :=
  match simActorInsert sh.actors sh.artCount sh.artCap actor.id with
  | (.error code, actors) => (⟨.err code, none⟩, total, { sh with actors := actors }, heap)
  | (.ok idx, actors) =>
    match simCellFindOrCreate sh.cells key.cell with
    | (none, cells) =>
      (⟨.err .enomem, none⟩, total, { sh with actors := actors, cells := cells }, heap)
    | (some cell, cells) =>
      match simCellMemberAppend { sh with actors := actors, cells := cells } heap cell idx with
      | (.err code, sh, heap) =>
        let actors := match simActorProbe sh.actors actor.id with
          | none => sh.actors
          | some slot => simActorMarkTombstone sh.actors slot
        (⟨.err code, none⟩, total, { sh with actors := actors }, heap)
      | (.ok, sh, heap) =>
        let c := (sh.cells.nodes cell).advance key.authorityEpoch true
        let sh := (sh.setCell cell c).fillArt idx (simFillArtifact key c.latestSeq actor)
        let sh := { sh with artCount := sh.artCount + 1 }
        if 2 ^ 64 ≤ total + 1 then (⟨.err .eoverflow, none⟩, total, sh, heap)
        else (⟨.ok, some c.latestSeq⟩, total + 1, sh, heap)

def ArtifactStore.setShard (j : Fin 16) (sh : Shard) : ArtifactStore :=
  { s with shards := update s.shards j sh }

def simStorePublish (heap : Heap SimSite) (key : ArtifactKey) (actor : Actor) :
    Option (SimPublished × ArtifactStore × Heap SimSite) :=
  let j := simShardFor key.cell.zone
  let sh := s.shards j
  let existing := simActorDenseIndex sh.actors actor.id
  (simShardEnsurePublishCapacity sh heap (existing = sizeMax)).map fun (rc, sh, heap) =>
    match rc with
    | .err code => (⟨.err code, none⟩, s.setShard j sh, heap)
    | .ok =>
      if existing ≠ sizeMax then
        match simPublishUpdate sh heap existing key actor with
        | (published, sh, heap) => (published, s.setShard j sh, heap)
      else
        match simPublishInsert s.totalCount sh heap key actor with
        | (published, total, sh, heap) =>
          (published, { s.setShard j sh with totalCount := total }, heap)

end Publish

section Remove

/-- The last dense entry is moved to `idx`; its hash slot and its member entry are pointed
at the new position. -/
def simDenseMove (sh : Shard) (idx last : Nat) : Shard :=
  let node := sh.arts last
  let sh := { sh with arts := update sh.arts idx node }
  let sh := match simActorProbe sh.actors node.art.actorId with
    | none => sh
    | some moved => { sh with actors := sh.actors.setDense moved idx }
  match simCellLookup sh.cells node.art.key.cell with
  | none => sh
  | some mc =>
    let c := sh.cells.nodes mc
    if c.members[node.memberSlot]? = some last then
      sh.setCell mc { c with members := c.members.set node.memberSlot idx }
    else sh

/-- The removal of the actor at a live hash slot of the shard. -/
def simRemoveSlot (sh : Shard) (slot : Nat) : Shard :=
  let idx := (sh.actors.slots slot).dense
  let sh := match simCellLookup sh.cells (sh.arts idx).art.key.cell with
    | none => sh
    | some c =>
      let sh := simCellMemberUnlink sh c idx
      { sh with cells := simCellDrop sh.cells c }
  let last := sh.artCount - 1
  let sh := if idx ≠ last then simDenseMove sh idx last else sh
  { sh with artCount := sh.artCount - 1, actors := simActorMarkTombstone sh.actors slot }

/-- Only the first shard that holds the actor is looked at. -/
def simStoreRemoveActor (id : UInt64) : Rc × ArtifactStore :=
  match (List.finRange 16).find? fun j => (simActorProbe (s.shards j).actors id).isSome with
  | none => (.ok, s)
  | some j =>
    match simActorProbe (s.shards j).actors id with
    | none => (.ok, s)
    | some slot =>
      (.ok, { s.setShard j (simRemoveSlot (s.shards j) slot) with
        totalCount := if s.totalCount > 0 then s.totalCount - 1 else s.totalCount })

/-- What the zone sweep has reached: the shard, how many artifacts are kept, and the
total count of the store. -/
structure ZoneSweep where
  shard : Shard
  kept : Nat
  total : Nat

def simSweepEntry (zone : UInt32) (sw : ZoneSweep) (i : Nat) : ZoneSweep :=
  let sh := sw.shard
  let node := sh.arts i
  if node.art.key.cell.zone = zone then
    let cells := match simCellLookup sh.cells node.art.key.cell with
      | none => sh.cells
      | some c => simCellDrop sh.cells c
    let actors := match simActorProbe sh.actors node.art.actorId with
      | none => sh.actors
      | some slot => simActorMarkTombstone sh.actors slot
    ⟨{ sh with cells := cells, actors := actors }, sw.kept,
      if sw.total > 0 then sw.total - 1 else sw.total⟩
  else if sw.kept ≠ i then
    let actors := match simActorProbe sh.actors node.art.actorId with
      | none => sh.actors
      | some slot => sh.actors.setDense slot sw.kept
    ⟨{ sh with arts := update sh.arts sw.kept node, actors := actors }, sw.kept + 1, sw.total⟩
  else ⟨sh, sw.kept + 1, sw.total⟩

def simStoreRemoveZone (heap : Heap SimSite) (zone : UInt32) : Rc × ArtifactStore × Heap SimSite :=
  let j := simShardFor zone
  let sh := s.shards j
  let sw := (List.range sh.artCount).foldl (simSweepEntry zone) ⟨sh, 0, s.totalCount⟩
  match simShardRebuildCellMembers { sw.shard with artCount := sw.kept } heap with
  | (rc, sh, heap) => (rc, { s.setShard j sh with totalCount := sw.total }, heap)

end Remove

section Reads

/-- The result code, what is copied out and what `*out_count` receives; `out` is the
size of the output buffer, `none` for NULL. -/
structure CellSnapshot where
  rc : Rc
  out : List Artifact
  count : Nat
  deriving DecidableEq

def simStoreSnapshotCell (key : CellKey) (out : Option Nat) : CellSnapshot :=
  let sh := s.shards (simShardFor key.zone)
  let members := match simCellLookup sh.cells key with
    | none => []
    | some c => (sh.cells.nodes c).members
  match out with
  | none => ⟨.ok, [], members.length⟩
  | some max =>
    ⟨if max < members.length then .err .erange else .ok,
      (members.take max).map fun i => (sh.arts i).art, members.length⟩

/-- `kith_sim_cell_product_t`. -/
structure CellProduct where
  cell : CellKey
  actorCount : UInt32
  latestPublishSeq : UInt64
  authorityEpoch : UInt32
  deriving DecidableEq

def simFillCellProduct (c : CellNode) : CellProduct :=
  ⟨c.key, c.actorCount, c.latestSeq, c.authorityEpoch⟩

def simStoreCellProduct (key : CellKey) : Except KithError CellProduct :=
  let sh := s.shards (simShardFor key.zone)
  match simCellLookup sh.cells key with
  | none => .error .enoent
  | some c => .ok (simFillCellProduct (sh.cells.nodes c))

def simStoreCount : Nat := s.totalCount

end Reads

section Create

def simNextPow2 (v : UInt32) : Option UInt32 := nextPow2Loop v 33 1

def simShardInit (buckets : Nat) : Shard where
  arts := fun _ => ArtNode.zero
  artCount := 0
  artCap := buckets
  actors := ⟨fun _ => ActorSlot.zero, buckets, 0⟩
  cells := ⟨fun _ => CellNode.zero, buckets, 0, 0⟩

/-- `n` shards, each with the dense array, the four actor arrays and the cells. -/
def simShardsInit (heap : Heap SimSite) (buckets : Nat) : Nat → Bool × Heap SimSite
  | 0 => (true, heap)
  | n + 1 =>
    match simRequestTables heap buckets [104, 8, 1, 8, 1, 64] with
    | (false, heap) => (false, heap)
    | (true, heap) => simShardsInit heap buckets n

def simStoreCreate (heap : Heap SimSite) (bucketCount : UInt32) :
    Option (Except KithError ArtifactStore × Heap SimSite) :=
  (simNextPow2 bucketCount).map fun rounded =>
    let buckets : UInt32 := if rounded < 16 then 16 else rounded
    match heap.request .handle with
    | (false, heap) => (.error .enomem, heap)
    | (true, heap) =>
      match heap.request .lock with
      | (false, heap) => (.error .enomem, heap)
      | (true, heap) =>
        match simShardsInit heap buckets.toNat 16 with
        | (false, heap) => (.error .enomem, heap)
        | (true, heap) => (.ok ⟨fun _ => simShardInit buckets.toNat, 0⟩, heap)

end Create

end Kith.Sim
