import Kith.Base
import Kith.Lib.Counted

/-!
# The cell ownership table of the coord

One shard of the override table: an open-addressed array that is allocated once
and never rehashed. `coordCellCreate` is the source's insert, including the exit
it takes when the probe meets no never-used bucket: it then returns the first
tombstone without marking it live.
-/

namespace Kith.Coord

open LinearProbe Function

/-- `kith_coord_authority_t`. -/
structure Authority where
  instanceId : UInt32
  authorityEpoch : UInt32
  deriving DecidableEq

structure CellNode where
  key : CellKey
  used : Bool
  deleted : Bool
  instanceId : UInt32
  authorityEpoch : UInt32
  deriving DecidableEq

def CellNode.zero : CellNode := ⟨⟨0, 0, 0, 0, 0⟩, false, false, 0, 0⟩

def CellNode.authority (c : CellNode) : Authority := ⟨c.instanceId, c.authorityEpoch⟩

def cellLayout : Layout CellNode CellKey := ⟨CellNode.used, CellNode.deleted, CellNode.key⟩

structure Shard where
  cells : Nat → CellNode
  buckets : Nat
  count : Nat

def coordCellMix (key : CellKey) : Nat := (cellMix key).toNat

def coordCellLookup (sh : Shard) (key : CellKey) : Option Nat :=
  lookup cellLayout sh.buckets sh.cells (coordCellMix key) key

/-- The node pointer is a bucket index. A probe that runs out of buckets returns
the tombstone it passed as it stands. -/
def coordCellCreate (sh : Shard) (key : CellKey) : Option Nat × Shard :=
  match place cellLayout sh.buckets sh.cells (coordCellMix key) with
  | .fresh i _ =>
    (some i, { sh with
      cells := update sh.cells i ⟨key, true, false, 0, 0⟩
      count := sh.count + 1 })
  | .full tomb => (tomb, sh)

def CellNode.assign (c : CellNode) (a : Authority) : CellNode :=
  { c with instanceId := a.instanceId, authorityEpoch := a.authorityEpoch }

/-- `node->instance_id = ...; node->authority_epoch = ...`. -/
def Shard.assign (sh : Shard) (i : Nat) (a : Authority) : Shard :=
  { sh with cells := update sh.cells i ((sh.cells i).assign a) }

/-- `node->deleted = true` and the guarded decrement of the live count. -/
def Shard.vacate (sh : Shard) (i : Nat) : Shard :=
  { sh with
    cells := update sh.cells i { sh.cells i with deleted := true }
    count := sh.count - 1 }

def coordShardInit (buckets : Nat) : Shard := ⟨fun _ => CellNode.zero, buckets, 0⟩

variable (sh : Shard) (key : CellKey)

/-- Create and assign, as the callers do on an absent key. -/
def coordCellInsert (a : Authority) : Option Nat × Shard :=
  match coordCellCreate sh key with
  | (none, sh) => (none, sh)
  | (some i, sh) => (some i, sh.assign i a)

/-- The find-or-create write that `kith_coord_set_authority` and
`kith_coord_on_rebalance` share. -/
def coordCellStore (a : Authority) : Rc × Shard :=
  match coordCellLookup sh key with
  | some i => (.ok, sh.assign i a)
  | none =>
    match coordCellInsert sh key a with
    | (none, sh) => (.err .enomem, sh)
    | (some _, sh) => (.ok, sh)

/-- The find-and-vacate that the clears and merges share. -/
def coordCellClear : Shard :=
  match coordCellLookup sh key with
  | some i => sh.vacate i
  | none => sh

/-- The override the table holds for a key: what `coord_cell_lookup` finds. -/
def Shard.override : Option Authority :=
  (coordCellLookup sh key).map fun i => (sh.cells i).authority

def Shard.HasRoom : Prop := ∃ i < sh.buckets, (sh.cells i).used = false

def Shard.HasTomb : Prop := ∃ i < sh.buckets, (sh.cells i).deleted = true

/-- A write of the key lands in a live bucket. -/
def Shard.Stores (key : CellKey) : Prop :=
  (sh.override key).isSome ∨ sh.HasRoom

instance (sh : Shard) : Decidable sh.HasRoom :=
  inferInstanceAs (Decidable (∃ i < sh.buckets, (sh.cells i).used = false))

instance (sh : Shard) : Decidable sh.HasTomb :=
  inferInstanceAs (Decidable (∃ i < sh.buckets, (sh.cells i).deleted = true))

instance (sh : Shard) (key : CellKey) : Decidable (sh.Stores key) :=
  inferInstanceAs (Decidable ((sh.override key).isSome ∨ sh.HasRoom))

structure Shard.Valid (sh : Shard) : Prop where
  pow2 : ∃ b, sh.buckets = 2 ^ b
  chained : Chained cellLayout sh.buckets sh.cells coordCellMix
  counted : sh.count = liveCount cellLayout sh.buckets sh.cells

variable {sh : Shard} {i j : Nat} {a : Authority} {key : CellKey}

def Shard.node (sh : Shard) : CellKey → Option CellNode :=
  entry cellLayout sh.buckets sh.cells coordCellMix

theorem Shard.override_eq (sh : Shard) : sh.override = Option.map CellNode.authority ∘ sh.node := by
  funext key
  exact (Option.map_map CellNode.authority sh.cells (coordCellLookup sh key)).symm

theorem Shard.override_eq_none : sh.override key = none ↔ sh.node key = none := by
  rw [Shard.override_eq]
  exact Option.map_eq_none_iff

theorem override_update (sh sh' : Shard) {c : Option CellNode}
    (written : sh'.node = update sh.node key c) :
    sh'.override = update sh.override key (c.map CellNode.authority) := by
  rw [Shard.override_eq, Shard.override_eq, written, comp_update]

theorem Shard.Valid.of_table {tombs : Nat}
    (table : Counted cellLayout coordCellMix sh.buckets sh.cells sh.count tombs) : sh.Valid :=
  ⟨table.pow2, table.chained, table.live⟩

theorem coordShardInit_override (b : Nat) (key : CellKey) :
    (coordShardInit (2 ^ b)).override key = none :=
  Shard.override_eq_none.mpr (congrFun (entry_empty (fun _ _ => rfl) rfl) key)

section Buckets

variable (valid : sh.Valid)
include valid

theorem Shard.Valid.table : Counted cellLayout coordCellMix sh.buckets sh.cells sh.count
    (tombCount cellLayout sh.buckets sh.cells) :=
  ⟨valid.pow2, valid.chained, valid.counted, rfl⟩

theorem Shard.Valid.lookup_iff (key : CellKey) (i : Nat) :
    coordCellLookup sh key = some i ↔ Holds cellLayout sh.buckets sh.cells key i :=
  valid.table.lookup_iff

theorem assign_live (a : Authority) (holds : Holds cellLayout sh.buckets sh.cells key i) :
    (sh.assign i a).Valid ∧ (sh.assign i a).override = update sh.override key (some a) := by
  obtain ⟨after, _, written⟩ := valid.table.modify (c := (sh.cells i).assign a) holds holds.2.1
    holds.2.2
  exact ⟨.of_table after, override_update sh (sh.assign i a) written⟩

/-- Assigning a tombstone changes no override: the write is lost. -/
theorem assign_tomb (a : Authority)
    (tomb : i < sh.buckets ∧ (sh.cells i).used = true ∧ (sh.cells i).deleted = true) :
    (sh.assign i a).Valid ∧ (sh.assign i a).override = sh.override := by
  obtain ⟨inside, used, deleted⟩ := tomb
  obtain ⟨b, hb⟩ := valid.pow2
  have dead : ¬ cellLayout.live (sh.cells i) = true := by simp [Layout.live, cellLayout, deleted]
  have after := valid.chained.bury i (c := (sh.cells i).assign a) used deleted
  have count := liveCount_update cellLayout sh.cells inside ((sh.cells i).assign a)
  refine ⟨⟨valid.pow2, after, valid.counted.trans (Nat.add_right_cancel count).symm⟩, ?_⟩
  have same : (sh.assign i a).node = sh.node := by
    funext key
    exact entry_other hb valid.chained after (fun live => dead live.1) fun live => dead live.2.1
  rw [Shard.override_eq, Shard.override_eq, same]

theorem vacate_spec (holds : Holds cellLayout sh.buckets sh.cells key i) :
    (sh.vacate i).Valid ∧ (sh.vacate i).override = update sh.override key none := by
  obtain ⟨after, _, erased⟩ := valid.table.bury (c := { sh.cells i with deleted := true }) holds
    ((live_iff _).mp holds.2.1).1 rfl
  exact ⟨.of_table after, override_update sh (sh.vacate i) erased⟩

def Shard.filled (sh : Shard) (key : CellKey) (i : Nat) : Shard :=
  { sh with cells := update sh.cells i ⟨key, true, false, 0, 0⟩, count := sh.count + 1 }

theorem coordCellInsert_room (a : Authority) (absent : sh.override key = none) (room : sh.HasRoom) :
    (coordCellInsert sh key a).1.isSome ∧ (coordCellInsert sh key a).2.Valid ∧
      (coordCellInsert sh key a).2.override = update sh.override key (some a) := by
  obtain ⟨b, hb⟩ := valid.pow2
  obtain ⟨j, inside, unused⟩ := room
  cases placed : place cellLayout sh.buckets sh.cells (coordCellMix key) with
  | full tomb =>
    have used : (sh.cells j).used = true := (place_full_iff hb).mp ⟨tomb, placed⟩ j inside
    rw [used] at unused
    cases unused
  | fresh i reused =>
    obtain ⟨after, holds, written⟩ := valid.table.store (c := ⟨key, true, false, 0, 0⟩)
      (Shard.override_eq_none.mp absent) placed rfl rfl
    have filled : (sh.filled key i).Valid := .of_table after
    obtain ⟨valid', assigned⟩ := assign_live filled a holds
    rw [override_update sh (sh.filled key i) written, update_idem] at assigned
    simp only [coordCellInsert, coordCellCreate, placed]
    exact ⟨rfl, valid', assigned⟩

/-- An insert into a shard without room changes no override, whatever it reports. -/
theorem coordCellInsert_full (key : CellKey) (a : Authority) (full : ¬ sh.HasRoom) :
    ((coordCellInsert sh key a).1.isSome ↔ sh.HasTomb) ∧ (coordCellInsert sh key a).2.Valid ∧
      (coordCellInsert sh key a).2.override = sh.override := by
  obtain ⟨b, hb⟩ := valid.pow2
  have used : ∀ i < sh.buckets, cellLayout.used (sh.cells i) = true := by
    simpa [Shard.HasRoom, cellLayout] using full
  obtain ⟨tomb, placed⟩ := (place_full_iff (h := coordCellMix key) hb).mpr used
  obtain ⟨missing, found⟩ := place_full_tomb hb placed
  have some_iff : tomb.isSome ↔ sh.HasTomb := by
    rw [← not_iff_not, Option.not_isSome_iff_eq_none, missing]
    simp [Shard.HasTomb, cellLayout]
  cases tomb with
  | none => simpa [coordCellInsert, coordCellCreate, placed, valid] using some_iff
  | some i =>
    simp only [coordCellInsert, coordCellCreate, placed]
    exact ⟨some_iff, assign_tomb valid a (found i rfl)⟩

end Buckets

variable (valid : sh.Valid)
include valid

theorem coordCellInsert_spec (key : CellKey) (a : Authority) (absent : sh.override key = none) :
    ((coordCellInsert sh key a).1.isSome ↔ sh.HasRoom ∨ sh.HasTomb) ∧
    (coordCellInsert sh key a).2.Valid ∧
    (coordCellInsert sh key a).2.override =
      if sh.HasRoom then update sh.override key (some a) else sh.override := by
  by_cases room : sh.HasRoom
  · obtain ⟨hsome, hvalid, hover⟩ := coordCellInsert_room valid a absent room
    exact ⟨by simp [hsome, room], hvalid, by simp [hover, room]⟩
  · obtain ⟨hsome, hvalid, hover⟩ := coordCellInsert_full valid key a room
    exact ⟨by simp [hsome, room], hvalid, by simp [hover, room]⟩

/-- What a find-or-create write does: validity, the overrides and the result. -/
structure StoreSpec (sh : Shard) (key : CellKey) (a : Authority) (r : Rc × Shard) : Prop where
  valid : r.2.Valid
  override : r.2.override =
    if sh.Stores key then update sh.override key (some a) else sh.override
  rc_ok : r.1 = .ok ↔ sh.Stores key ∨ sh.HasTomb

theorem coordCellStore_spec (key : CellKey) (a : Authority) :
    StoreSpec sh key a (coordCellStore sh key a) := by
  cases found : coordCellLookup sh key with
  | some i =>
    have holds := (valid.lookup_iff key i).mp found
    have stores : sh.Stores key := .inl (by simp [Shard.override, found])
    simp only [coordCellStore, found]
    obtain ⟨hvalid, hover⟩ := assign_live valid a holds
    exact ⟨hvalid, by simp [hover, stores], by simp [stores]⟩
  | none =>
    have absent : sh.override key = none := by simp [Shard.override, found]
    have stores : sh.Stores key ↔ sh.HasRoom := by simp [Shard.Stores, absent]
    obtain ⟨hsome, hvalid, hover⟩ := coordCellInsert_spec valid key a absent
    simp only [coordCellStore, found]
    cases hi : coordCellInsert sh key a with
    | mk node sh' =>
      rw [hi] at hsome hvalid hover
      cases node with
      | none | some j => exact ⟨hvalid, by simp [hover, stores], by simpa [stores] using hsome⟩

theorem coordCellClear_spec (key : CellKey) : (coordCellClear sh key).Valid ∧
      (coordCellClear sh key).override = update sh.override key none := by
  cases found : coordCellLookup sh key with
  | some i =>
    simp only [coordCellClear, found]
    exact vacate_spec valid ((valid.lookup_iff key i).mp found)
  | none =>
    simp only [coordCellClear, found]
    refine ⟨valid, ?_⟩
    rw [eq_comm, update_eq_self_iff]
    simp [Shard.override, found]

omit valid in
/-- The live keys of a shard; as many as its count says. -/
def Shard.keys (sh : Shard) : Finset CellKey := liveKeys cellLayout sh.buckets sh.cells

theorem Shard.Valid.mem_keys (key : CellKey) : key ∈ sh.keys ↔ (sh.override key).isSome := by
  rw [Shard.override_eq, comp_apply, Option.isSome_map]
  exact valid.table.mem_liveKeys_iff

end Kith.Coord
