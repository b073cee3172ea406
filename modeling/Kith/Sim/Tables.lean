import Kith.Sim.Store
import Kith.Lib.Counted

/-!
# The two hashes of a sim shard

Each hash is a probed table with exact counts of its live slots and its
tombstones. The lemmas say what each operation of the source does to the map that
the table denotes; the growth rehashes both and changes neither map.
-/

namespace Kith.Sim

open LinearProbe Function List Option

section Cells

def CellTable.cell (t : CellTable) (key : CellKey) : Option CellNode :=
  entry cellLayout t.buckets t.nodes simCellMix key

def CellTable.Holds (t : CellTable) (key : CellKey) (i : Nat) : Prop :=
  LinearProbe.Holds cellLayout t.buckets t.nodes key i

def CellTable.Valid (t : CellTable) : Prop :=
  Counted cellLayout simCellMix t.buckets t.nodes t.count t.tombstones

variable {t : CellTable} {key : CellKey} {i : Nat} {c : CellNode}

theorem cell_of_lookup (found : simCellLookup t key = some i) : t.cell key = some (t.nodes i) := by
  change (simCellLookup t key).map t.nodes = _
  rw [found, map_some]

theorem simCellLookup_eq_none : simCellLookup t key = none ↔ t.cell key = none := by
  change _ ↔ (simCellLookup t key).map t.nodes = none
  rw [map_eq_none_iff]

variable (valid : t.Valid)
include valid

theorem CellTable.Valid.lookup_iff : simCellLookup t key = some i ↔ t.Holds key i :=
  Counted.lookup_iff valid

theorem CellTable.Valid.cell_of_holds (holds : t.Holds key i) : t.cell key = some (t.nodes i) :=
  cell_of_lookup (valid.lookup_iff.mpr holds)

theorem CellTable.Valid.exists_holds (found : t.cell key = some c) :
    ∃ i, simCellLookup t key = some i ∧ t.Holds key i ∧ t.nodes i = c := by
  obtain ⟨i, looked, here⟩ := map_eq_some_iff.mp found
  exact ⟨i, looked, valid.lookup_iff.mp looked, here⟩

theorem CellTable.Valid.set (holds : t.Holds key i)
    (hlive : cellLayout.live c = true) (hkey : c.key = key) :
    (t.set i c).Valid ∧ (t.set i c).cell = update t.cell key (some c) ∧
      ∀ k j, t.Holds k j → (t.set i c).Holds k j := by
  obtain ⟨after, _, written⟩ := Counted.modify valid holds hlive hkey
  refine ⟨after, written, ?_⟩
  intro k j other
  apply holds_update.mpr
  by_cases same : j = i
  · subst same
    exact .inl ⟨rfl, holds.1, hlive, hkey.trans (holds.2.2.symm.trans other.2.2)⟩
  · exact .inr ⟨same, other⟩

omit valid in
theorem toNat_decrement (x : UInt32) : (if x > 0 then x - 1 else x).toNat = x.toNat - 1 := by
  split
  · rename_i positive
    have least : (1 : UInt32) ≤ x := by
      exact UInt32.lt_iff_toNat_lt.mp positive
    rw [UInt32.toNat_sub_of_le _ _ least]
    rfl
  · rename_i zero
    have below : ¬ 0 < x.toNat := fun positive => zero (UInt32.lt_iff_toNat_lt.mpr positive)
    omega

theorem simCellDrop_spec (holds : t.Holds key i) : (simCellDrop t i).Valid ∧
      (simCellDrop t i).cell = update t.cell key
        (if (t.nodes i).actorCount.toNat ≤ 1 then none
          else some { t.nodes i with actorCount := (t.nodes i).actorCount - 1 }) ∧
      (simCellDrop t i).buckets = t.buckets ∧
      ∀ k j, k ≠ key → t.Holds k j → (simCellDrop t i).Holds k j := by
  have live := (live_iff _).mp holds.2.1
  have count := toNat_decrement (t.nodes i).actorCount
  rw [simCellDrop]
  by_cases last : (t.nodes i).actorCount.toNat ≤ 1
  · have zero : (if (t.nodes i).actorCount > 0 then (t.nodes i).actorCount - 1
        else (t.nodes i).actorCount) = 0 := by
      apply UInt32.toNat_inj.mp
      change _ = 0
      omega
    obtain ⟨after, positive, written⟩ := Counted.bury
      (c := simCellMembersFree { t.nodes i with actorCount := 0, deleted := true }) valid holds
      live.1 rfl
    rw [zero, if_pos rfl, if_pos positive, if_pos last]
    refine ⟨after, written, rfl, ?_⟩
    intro k j other there
    apply holds_update.mpr
    refine .inr ⟨?_, there⟩
    rintro rfl
    exact other (there.2.2.symm.trans holds.2.2)
  · have lower : (if (t.nodes i).actorCount > 0 then (t.nodes i).actorCount - 1
        else (t.nodes i).actorCount) = (t.nodes i).actorCount - 1 := by
      rw [if_pos]
      apply UInt32.lt_iff_toNat_lt.mpr
      change 0 < _
      omega
    have nonzero : (t.nodes i).actorCount - 1 ≠ 0 := by
      intro zero
      rw [lower, zero] at count
      change 0 = _ at count
      omega
    obtain ⟨after, written, kept⟩ := valid.set
      (c := { t.nodes i with actorCount := (t.nodes i).actorCount - 1 }) holds holds.2.1 holds.2.2
    rw [lower, if_neg nonzero, if_neg last]
    exact ⟨after, written, rfl, fun k j _ there => kept k j there⟩

/-- What finding a cell or making one leaves: an old cell as it was, or a fresh one. -/
structure FindOrCreateSpec (t : CellTable) (key : CellKey) (i : Nat) (t' : CellTable) : Prop where
  valid : t'.Valid
  buckets : t'.buckets = t.buckets
  holds : t'.Holds key i
  node : t'.nodes i = (t.cell key).getD (CellNode.fresh key)
  cell : t'.cell = update t.cell key (some ((t.cell key).getD (CellNode.fresh key)))
  kept : ∀ k j, t.Holds k j → t'.Holds k j ∧ t'.nodes j = t.nodes j
  count : t'.count ≤ t.count + 1 ∧ t'.tombstones ≤ t.tombstones

theorem simCellFindOrCreate_spec (room : t.count + t.tombstones < t.buckets) (key : CellKey) :
    ∃ i t', simCellFindOrCreate t key = (some i, t') ∧ FindOrCreateSpec t key i t' := by
  cases found : simCellLookup t key with
  | some i =>
    have holds := valid.lookup_iff.mp found
    have here := cell_of_lookup found
    refine ⟨i, t, by rw [simCellFindOrCreate, found], ?_⟩
    constructor
    · exact valid
    · rfl
    · exact holds
    · rw [here, getD_some]
    · rw [here, getD_some, ← here, update_eq_self]
    · exact fun k j there => ⟨there, rfl⟩
    · omega
  | none =>
    have absent := simCellLookup_eq_none.mp found
    obtain ⟨i, reused, placed⟩ := Counted.place_fresh valid room (simCellMix key)
    obtain ⟨after, holds, written⟩ :=
      Counted.store (c := CellNode.fresh key) valid absent placed rfl rfl
    have tombs : (if reused = true ∧ t.tombstones > 0 then t.tombstones - 1 else t.tombstones) =
        if reused then t.tombstones - 1 else t.tombstones := by
      cases reused with
      | false => simp
      | true =>
        have positive := Counted.tombs_pos valid placed
        simp [positive]
    refine ⟨i, _, by rw [simCellFindOrCreate, found]; dsimp only; rw [placed], ?_⟩
    rw [tombs]
    constructor
    · exact after
    · rfl
    · exact holds
    · rw [absent, getD_none]
      exact update_self ..
    · rw [absent, getD_none]
      exact written
    · intro k j there
      have apart : j ≠ i := by
        rintro rfl
        have dead := (place_fresh placed).1.1
        rw [show cellLayout.live (t.nodes j) = true from there.2.1] at dead
        cases dead
      exact ⟨holds_update.mpr (.inr ⟨apart, there⟩), update_of_ne apart ..⟩
    · refine ⟨le_rfl, ?_⟩
      dsimp only
      split <;> omega

end Cells

section Actors

variable (t : ActorTable)

def ActorTable.slot (id : UInt64) : Option ActorSlot :=
  entry actorLayout t.buckets t.slots simHashActor id

/-- The dense position the hash has for an actor. -/
def ActorTable.dense (id : UInt64) : Option Nat := (t.slot id).map ActorSlot.dense

def ActorTable.Holds (id : UInt64) (i : Nat) : Prop :=
  LinearProbe.Holds actorLayout t.buckets t.slots id i

def ActorTable.Valid (live : Nat) : Prop :=
  Counted actorLayout simHashActor t.buckets t.slots live t.tombstones

variable {t : ActorTable} {live : Nat} {id : UInt64} {i : Nat}

theorem ActorTable.Valid.probe_iff (valid : t.Valid live) :
    simActorProbe t id = some i ↔ t.Holds id i :=
  Counted.lookup_iff valid

theorem simActorProbe_eq_none : simActorProbe t id = none ↔ t.dense id = none := by
  change _ ↔ ((simActorProbe t id).map t.slots).map ActorSlot.dense = none
  rw [map_eq_none_iff, map_eq_none_iff]

theorem dense_of_probe (found : simActorProbe t id = some i) :
    t.dense id = some (t.slots i).dense := by
  change ((simActorProbe t id).map t.slots).map ActorSlot.dense = _
  rw [found, map_some, map_some]

theorem exists_probe {p : Nat} (found : t.dense id = some p) :
    ∃ i, simActorProbe t id = some i ∧ (t.slots i).dense = p := by
  obtain ⟨slot, here, rfl⟩ := map_eq_some_iff.mp found
  obtain ⟨i, probed, rfl⟩ := map_eq_some_iff.mp here
  exact ⟨i, probed, rfl⟩

theorem dense_update (t t' : ActorTable) {o : Option ActorSlot}
    (written : entry actorLayout t'.buckets t'.slots simHashActor =
      update (entry actorLayout t.buckets t.slots simHashActor) id o) :
    t'.dense = update t.dense id (o.map ActorSlot.dense) := by
  funext k
  rw [ActorTable.dense, ActorTable.slot, written, update_apply, update_apply]
  split
  · rfl
  · rfl

variable (valid : t.Valid live)
include valid

theorem simActorInsert_spec {artCount artCap : Nat} (absent : t.dense id = none)
    (space : artCount < artCap) (room : live + t.tombstones < t.buckets) :
    ∃ t', simActorInsert t artCount artCap id = (.ok artCount, t') ∧ t'.Valid (live + 1) ∧
      t'.buckets = t.buckets ∧ t'.dense = update t.dense id (some artCount) ∧
      t'.tombstones ≤ t.tombstones := by
  have missing := simActorProbe_eq_none.mpr absent
  have blank : t.slot id = none := map_eq_none_iff.mp absent
  obtain ⟨i, reused, placed⟩ := Counted.place_fresh valid room (simHashActor id)
  obtain ⟨after, _, written⟩ :=
    Counted.store (c := ⟨id, true, false, artCount⟩) valid blank placed rfl rfl
  have tombs :
      (if t.tombstones > 0 then t.tombstones - 1 else t.tombstones) = t.tombstones - 1 := by
    split <;> omega
  rw [simActorInsert, if_neg (by omega), missing]
  rw [placed, tombs]
  refine ⟨_, rfl, after, rfl, ?_, ?_⟩
  · rw [dense_update t _ written, map_some]
  · dsimp only
    split <;> omega

theorem simActorMarkTombstone_spec (holds : t.Holds id i) :
    (simActorMarkTombstone t i).Valid (live - 1) ∧ 0 < live ∧
      (simActorMarkTombstone t i).buckets = t.buckets ∧
      (simActorMarkTombstone t i).dense = update t.dense id none := by
  have alive := (live_iff _).mp holds.2.1
  have busy : ¬ ((t.slots i).used = false ∨ (t.slots i).deleted = true) := by
    rintro (unused | gone)
    · exact absurd (alive.1.symm.trans unused) (by decide)
    · exact absurd (gone.symm.trans alive.2) (by decide)
  obtain ⟨after, positive, written⟩ := Counted.bury
    (c := { t.slots i with deleted := true, dense := sizeMax }) valid holds alive.1 rfl
  rw [simActorMarkTombstone, if_neg busy]
  refine ⟨after, positive, rfl, ?_⟩
  rw [dense_update t _ written, map_none]

theorem setDense_spec (holds : t.Holds id i) (p : Nat) :
    (t.setDense i p).Valid live ∧ (t.setDense i p).buckets = t.buckets ∧
      (t.setDense i p).dense = update t.dense id (some p) ∧
      ∀ k j, t.Holds k j → (t.setDense i p).Holds k j := by
  obtain ⟨after, _, written⟩ := Counted.modify
    (c := { t.slots i with dense := p }) valid holds holds.2.1 holds.2.2
  refine ⟨after, rfl, ?_, ?_⟩
  · rw [ActorTable.setDense, dense_update t _ written, map_some]
  intro k j there
  apply holds_update.mpr
  by_cases same : j = i
  · subst same
    exact .inl ⟨rfl, there⟩
  · exact .inr ⟨same, there⟩

end Actors

section Growth

/-- The tables of a shard, which all have the same size; `live` actors are hashed. -/
structure Shard.Tables (sh : Shard) (live : Nat) : Prop where
  bounded : ∃ b, sh.cells.buckets = 2 ^ b ∧ 4 ≤ b ∧ b ≤ 57
  actorBuckets : sh.actors.buckets = sh.cells.buckets
  artCap : sh.artCap = sh.cells.buckets
  actors : sh.actors.Valid live
  cells : sh.cells.Valid

/-- The shard `sh'` has the contents of `sh`, in tables of any size. -/
structure Shard.Regrown (sh sh' : Shard) : Prop where
  tables : sh'.Tables sh.artCount
  artCount : sh'.artCount = sh.artCount
  arts : ∀ i < sh.artCount, sh'.arts i = sh.arts i
  dense : sh'.actors.dense = sh.actors.dense
  cell : sh'.cells.cell = sh.cells.cell
  count : sh'.cells.count = sh.cells.count

/-- Some request of the script is refused. -/
def Refuses (heap : Heap SimSite) : Prop := ∃ site n, heap.grant site n = false

variable {sh : Shard} {live : Nat} {heap : Heap SimSite}

theorem Shard.Tables.buckets_bounds (tables : sh.Tables live) :
    16 ≤ sh.cells.buckets ∧ sh.cells.buckets ≤ 2 ^ 57 := by
  obtain ⟨b, hb, low, high⟩ := tables.bounded
  have above : 2 ^ 4 ≤ 2 ^ b := Nat.pow_le_pow_right (by omega) low
  have below : 2 ^ b ≤ 2 ^ 57 := Nat.pow_le_pow_right (by omega) high
  omega

theorem Shard.Tables.loads (tables : sh.Tables live) :
    live + sh.actors.tombstones ≤ sh.cells.buckets ∧
      sh.cells.count + sh.cells.tombstones ≤ sh.cells.buckets := by
  rw [← tables.actorBuckets]
  refine ⟨Counted.total_le tables.actors, ?_⟩
  rw [tables.actorBuckets]
  exact Counted.total_le tables.cells

theorem Shard.Tables.same_size {sh' : Shard} {live' : Nat} (tables : sh.Tables live)
    (buckets : sh'.cells.buckets = sh.cells.buckets) (artCap : sh'.artCap = sh.artCap)
    (actorBuckets : sh'.actors.buckets = sh.actors.buckets) (actors : sh'.actors.Valid live')
    (cells : sh'.cells.Valid) : sh'.Tables live' := by
  refine ⟨?_, ?_, ?_, actors, cells⟩
  · rw [buckets]
    exact tables.bounded
  · rw [actorBuckets, buckets, tables.actorBuckets]
  · rw [artCap, buckets, tables.artCap]

variable (tables : sh.Tables sh.artCount)
include tables

theorem Shard.Regrown.refl : sh.Regrown sh :=
  ⟨tables, rfl, fun _ _ => rfl, rfl, rfl, rfl⟩

omit tables in
theorem simRequestTables_spec (heap : Heap SimSite) (count : Nat) (sizes : List Nat) :
    let r := simRequestTables heap count sizes
    r.2.grant = heap.grant ∧ (r.1 = true → ∀ size ∈ sizes, count * size < 2 ^ 64) ∧
      (r.1 = false → (∃ size ∈ sizes, 2 ^ 64 ≤ count * size) ∨ Refuses heap) := by
  induction sizes generalizing heap with
  | nil => simp [simRequestTables]
  | cons size sizes ih =>
    rw [simRequestTables, Heap.requestZeroed]
    by_cases large : 2 ^ 64 ≤ count * size
    · rw [if_pos large]
      refine ⟨(ih heap).1, by simp, fun _ => .inl ⟨size, by simp, large⟩⟩
    · rw [if_neg large, Heap.request]
      dsimp only
      obtain ⟨kept, fits, short⟩ := ih { heap with calls := heap.calls + 1 }
      refine ⟨kept, ?_, ?_⟩
      · intro granted size' listed
        rw [Bool.and_eq_true] at granted
        rcases mem_cons.mp listed with rfl | later
        · omega
        · exact fits granted.2 size' later
      · intro refused
        cases first : heap.grant .table heap.calls with
        | false => exact .inr ⟨.table, heap.calls, first⟩
        | true =>
          rw [first, Bool.true_and] at refused
          rcases short refused with ⟨size', later, big⟩ | ⟨site, n, no⟩
          · exact .inl ⟨size', mem_cons_of_mem _ later, big⟩
          · exact .inr ⟨site, n, no⟩

theorem simShardGrow_spec (heap : Heap SimSite) :
    ∃ rc sh' heap', simShardGrow sh heap = some (rc, sh', heap') ∧ heap'.grant = heap.grant ∧
      (rc = .err .enomem ∧ sh' = sh ∧ (sh.cells.buckets = 2 ^ 57 ∨ Refuses heap) ∨
        rc = .ok ∧ sh.Regrown sh' ∧ sh'.cells.buckets = sh.cells.buckets * 2 ∧
          sh'.actors.tombstones = 0 ∧ sh'.cells.tombstones = 0) := by
  obtain ⟨b, hb, low, high⟩ := tables.bounded
  obtain ⟨least, most⟩ := tables.buckets_bounds
  have possible : ¬ (2 ^ 64 ≤ sh.cells.buckets * 2 ∨ sh.cells.buckets * 2 ≤ sh.cells.buckets) := by
    omega
  have request := simRequestTables_spec heap (sh.cells.buckets * 2) [8, 1, 1, 8, 64]
  rw [simShardGrow, if_neg possible]
  cases asked : simRequestTables heap (sh.cells.buckets * 2) [8, 1, 1, 8, 64] with
  | mk granted heap₁ =>
    rw [asked] at request
    obtain ⟨kept, fits, short⟩ := request
    cases granted with
    | false =>
      refine ⟨_, _, _, rfl, kept, .inl ⟨rfl, rfl, ?_⟩⟩
      rcases short rfl with ⟨size, listed, big⟩ | refused
      · left
        have size_le : size ≤ 64 := by
          simp only [mem_cons, not_mem_nil, or_false] at listed
          omega
        have wide := Nat.mul_le_mul_left (sh.cells.buckets * 2) size_le
        omega
      · exact .inr refused
    | true =>
      have below : sh.cells.buckets * 2 * 64 < 2 ^ 64 := fits rfl 64 (by simp)
      dsimp only
      cases last : heap₁.grant .arts heap₁.calls with
      | false =>
        rw [Heap.request, last]
        refine ⟨_, _, _, rfl, kept, .inl ⟨rfl, rfl, .inr ⟨.arts, heap₁.calls, ?_⟩⟩⟩
        rw [← kept]
        exact last
      | true =>
        have double : sh.cells.buckets * 2 = 2 ^ (b + 1) := by rw [hb, Nat.pow_succ]
        obtain ⟨slots, rehashed, actors, dense⟩ := Counted.rehash tables.actors
          (fun _ => ActorSlot.zero) double (by rw [tables.actorBuckets]; omega) fun _ _ => rfl
        obtain ⟨nodes, rehashed', cells, cell⟩ := Counted.rehash tables.cells
          (fun _ => CellNode.zero) double (by omega) fun _ _ => rfl
        have small : b + 1 ≤ 57 := by
          by_contra large
          have wide : 2 ^ 58 ≤ 2 ^ (b + 1) := Nat.pow_le_pow_right (by omega) (by omega)
          omega
        have inside := tables.loads.1
        rw [Heap.request, last]
        rw [rehashed, rehashed']
        refine ⟨_, _, _, rfl, kept,
          .inr ⟨rfl, ⟨⟨?_, rfl, rfl, actors, cells⟩, rfl, ?_, ?_, cell, rfl⟩, rfl, rfl, rfl⟩⟩
        · exact ⟨b + 1, double, by omega, small⟩
        · intro i below
          have old : ¬ (sh.artCap ≤ i ∧ i < sh.cells.buckets * 2) := by
            rw [tables.artCap]
            omega
          exact if_neg old
        · funext id
          rw [ActorTable.dense, ActorTable.slot, dense]
          rfl

structure EnsureSpec (sh : Shard) (mayAddActor : Bool) (sh' : Shard) : Prop where
  same : sh.Regrown sh'
  actorRoom : mayAddActor = true →
    sh.artCount + sh'.actors.tombstones < sh'.actors.buckets ∧ sh.artCount < sh'.artCap
  cellRoom : sh'.cells.count + sh'.cells.tombstones < sh'.cells.buckets
  growth : sh' = sh ∨ sh'.cells.buckets = sh.cells.buckets * 2 ∧
    sh'.actors.tombstones = 0 ∧ sh'.cells.tombstones = 0 ∧
    (3 * sh.cells.buckets < 4 * (sh.artCount + sh.actors.tombstones + 1) ∨
      3 * sh.cells.buckets < 4 * (sh.cells.count + sh.cells.tombstones + 1))

theorem simShardEnsurePublishCapacity_spec (heap : Heap SimSite) (mayAddActor : Bool) :
    ∃ rc sh' heap', simShardEnsurePublishCapacity sh heap mayAddActor = some (rc, sh', heap') ∧
      heap'.grant = heap.grant ∧
      (rc = .err .enomem ∧ sh' = sh ∧ (sh.cells.buckets = 2 ^ 57 ∨ Refuses heap) ∨
        rc = .ok ∧ EnsureSpec sh mayAddActor sh') := by
  obtain ⟨least, most⟩ := tables.buckets_bounds
  obtain ⟨actorLoad, cellLoad⟩ := tables.loads
  have threshold : ∀ n ≤ 2 ^ 58, n * 3 % 2 ^ 64 = n * 3 := fun n hn => Nat.mod_eq_of_lt (by omega)
  rw [simShardEnsurePublishCapacity, simEnsureLoop, tables.actorBuckets, threshold _ (by omega)]
  split
  · obtain ⟨rc, sh', heap', grown, kept, outcome⟩ := simShardGrow_spec tables heap
    rw [grown]
    rcases outcome with ⟨rfl, rfl, refused⟩ | ⟨rfl, same, double, actorTombs, cellTombs⟩
    · exact ⟨_, _, _, rfl, kept, .inl ⟨rfl, rfl, refused⟩⟩
    · -- One growth suffices: the tombstones are gone and the live entries fill half at most.
      have buckets := same.tables.actorBuckets
      have count := same.count
      have room : ¬ (mayAddActor = true ∧ sh'.cells.buckets * 3 / 4 <
            sh.artCount + sh'.actors.tombstones + 1 ∨
          sh'.cells.buckets * 3 / 4 < sh'.cells.count + sh'.cells.tombstones + 1) := by
        omega
      dsimp only
      rw [simEnsureLoop, buckets, threshold _ (by omega), same.artCount, if_neg room]
      refine ⟨_, _, _, rfl, kept,
        .inr ⟨rfl, same, ?_, ?_, .inr ⟨double, actorTombs, cellTombs, ?_⟩⟩⟩
      · intro _
        rw [buckets, same.tables.artCap, double, actorTombs]
        omega
      · omega
      · omega
  · rename_i unloaded
    refine ⟨_, _, _, rfl, rfl, .inr ⟨rfl, .refl tables, ?_, ?_, .inl rfl⟩⟩
    · intro may
      rw [tables.actorBuckets, tables.artCap]
      simp only [may, true_and] at unloaded
      omega
    · omega

end Growth

end Kith.Sim
