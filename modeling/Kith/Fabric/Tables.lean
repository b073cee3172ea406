import Mathlib.Algebra.BigOperators.Fin
import Mathlib.Algebra.Order.BigOperators.Group.Finset
import Kith.Fabric.Store
import Kith.Lib.Counted

/-!
# The cell store as a map

Each shard is a counted table, and a key lives in the shard of its zone only.
The bucket counts stay below `2 ^ 58`, since the allocator refuses a larger
table, so none of the counters can wrap and the branch of a publish that finds
the total at its maximum is never taken.
-/

namespace Kith.Fabric

open LinearProbe Function List

section Shards

structure Shard.Valid (sh : Shard) : Prop where
  bounded : ∃ b ≤ 58, sh.buckets = 2 ^ b
  table : Counted cellLayout fabricCellMix sh.buckets sh.cells sh.count.toNat sh.tombstones.toNat

def Shard.product (sh : Shard) : CellKey → Option CellNode :=
  entry cellLayout sh.buckets sh.cells fabricCellMix

variable {sh : Shard} {key : CellKey} {i : Nat}

theorem fabricShardInit_product (b : Nat) : (fabricShardInit (2 ^ b)).product = fun _ => none :=
  entry_empty (fun _ _ => rfl) rfl

variable (valid : sh.Valid)
include valid

theorem Shard.Valid.buckets_le : sh.buckets ≤ 2 ^ 58 := by
  obtain ⟨b, small, hb⟩ := valid.bounded
  rw [hb]
  exact Nat.pow_le_pow_right (by omega) small

theorem Shard.Valid.count_le : sh.count.toNat + sh.tombstones.toNat ≤ 2 ^ 58 :=
  le_trans valid.table.total_le valid.buckets_le

theorem Shard.Valid.lookup_holds (found : fabricCellLookup sh key = some i) :
    Holds cellLayout sh.buckets sh.cells key i :=
  valid.table.lookup_iff.mp found

omit valid in
theorem Shard.product_of_lookup (found : fabricCellLookup sh key = some i) :
    sh.product key = some (sh.cells i) := by
  rw [Shard.product, entry, ← fabricCellLookup, found]
  rfl

omit valid in
theorem Shard.product_of_lookup_none (missing : fabricCellLookup sh key = none) :
    sh.product key = none := by
  rw [Shard.product, entry, ← fabricCellLookup, missing]
  rfl

theorem Shard.Valid.rewrite (node : CellNode)
    (holds : Holds cellLayout sh.buckets sh.cells key i) (hlive : cellLayout.live node = true)
    (hkey : node.key = key) :
    Shard.Valid { sh with cells := update sh.cells i node } ∧
      Shard.product { sh with cells := update sh.cells i node } =
        update sh.product key (some node) := by
  obtain ⟨after, _, written⟩ := valid.table.modify holds hlive hkey
  exact ⟨⟨valid.bounded, after⟩, written⟩

omit valid in
def Shard.vacated (sh : Shard) (i : Nat) : Shard :=
  { sh.bury i with
    tombstones := sh.tombstones + 1
    count := if sh.count > 0 then sh.count - 1 else sh.count }

theorem Shard.Valid.vacated (holds : Holds cellLayout sh.buckets sh.cells key i) :
    (sh.vacated i).Valid ∧ (sh.vacated i).product = update sh.product key none ∧
      (sh.vacated i).count.toNat + 1 = sh.count.toNat := by
  have bound := valid.count_le
  obtain ⟨after, some_live, erased⟩ := valid.table.bury (c := { sh.cells i with deleted := true })
    holds ((live_iff _).mp holds.2.1).1 rfl
  have positive : sh.count > 0 := UInt64.lt_iff_toNat_lt.mpr some_live
  have fewer : (sh.vacated i).count.toNat = sh.count.toNat - 1 := by
    rw [Shard.vacated]
    have least : (1 : UInt64) ≤ sh.count := UInt64.le_iff_toNat_le.mpr some_live
    rw [if_pos positive, UInt64.toNat_sub_of_le _ _ least]
    rfl
  have more : (sh.vacated i).tombstones.toNat = sh.tombstones.toNat + 1 := by
    change (sh.tombstones + 1).toNat = _
    exact Nat.mod_eq_of_lt (by change sh.tombstones.toNat + 1 < 2 ^ 64; omega)
  refine ⟨⟨valid.bounded, ?_⟩, erased, by omega⟩
  rw [fewer, more]
  exact after

/-- A growth keeps the products; it succeeds with room for an insert, or fails and
changes nothing because the allocator refused it. -/
structure GrowSpec (sh : Shard) (heap : Heap FabricSite) (r : Rc × Shard × Heap FabricSite) :
    Prop where
  valid : r.2.1.Valid
  product : r.2.1.product = sh.product
  count : r.2.1.count.toNat = sh.count.toNat
  outcome : r.1 = .ok ∧ r.2.1.count.toNat + r.2.1.tombstones.toNat < r.2.1.buckets ∨
    r.1 = .err .enomem ∧ r.2.1 = sh ∧
      (heap.grant .grow heap.calls = false ∨ 2 ^ 64 ≤ sh.buckets * 2 * 40)

theorem fabricShardGrow_spec (heap : Heap FabricSite) :
    ∃ r, fabricShardGrow sh heap = some r ∧ GrowSpec sh heap r := by
  obtain ⟨b, small, hb⟩ := valid.bounded
  have bound := valid.buckets_le
  have positive : 0 < sh.buckets := by
    rw [hb]
    exact Nat.two_pow_pos b
  rw [fabricShardGrow]
  rw [if_neg (by omega), Heap.requestZeroed]
  by_cases excess : 2 ^ 64 ≤ sh.buckets * 2 * 40
  · rw [if_pos excess]
    exact ⟨_, rfl, valid, rfl, rfl, .inr ⟨rfl, rfl, .inr excess⟩⟩
  · rw [if_neg excess, Heap.request]
    cases granted : heap.grant .grow heap.calls with
    | false => exact ⟨_, rfl, valid, rfl, rfl, .inr ⟨rfl, rfl, .inl granted⟩⟩
    | true =>
      have hn : sh.buckets * 2 = 2 ^ (b + 1) := by rw [hb, Nat.pow_succ]
      obtain ⟨cells', copied, table, same⟩ := valid.table.rehash (fun _ => CellNode.zero) hn
        (by omega) fun _ _ => rfl
      have live : (UInt64.ofNat (((range sh.buckets).map sh.cells).countP
          cellLayout.live)).toNat = sh.count.toNat := by
        rw [countP_live_range, ← valid.table.live, UInt64.ofNat_toNat]
      have low : b + 1 ≤ 58 := by
        by_contra high
        have wide : 2 ^ 59 ≤ 2 ^ (b + 1) := Nat.pow_le_pow_right (by omega) (by omega)
        omega
      dsimp only
      rw [copied, Option.map_some]
      refine ⟨_, rfl, ⟨⟨b + 1, low, hn⟩, ?_⟩, same, live, .inl ⟨rfl, ?_⟩⟩
      · rw [live]
        exact table
      · have fits := valid.table.total_le
        rw [live]
        change sh.count.toNat + 0 < sh.buckets * 2
        omega

theorem fabricShardEnsurePublishCapacity_spec (heap : Heap FabricSite) :
    ∃ r, fabricShardEnsurePublishCapacity sh heap = some r ∧ GrowSpec sh heap r := by
  have bound := valid.count_le
  have buckets := valid.buckets_le
  have threshold : sh.buckets * 3 % 2 ^ 64 = sh.buckets * 3 := Nat.mod_eq_of_lt (by omega)
  rw [fabricShardEnsurePublishCapacity, threshold]
  split
  · rename_i loaded
    have load : (sh.count + sh.tombstones + 1).toNat =
        sh.count.toNat + sh.tombstones.toNat + 1 := by
      change ((sh.count.toNat + sh.tombstones.toNat) % 2 ^ 64 + 1) % 2 ^ 64 = _
      omega
    refine ⟨_, rfl, valid, rfl, rfl, .inl ⟨rfl, ?_⟩⟩
    dsimp only
    omega
  · exact fabricShardGrow_spec valid heap

structure CreateSpec (sh : Shard) (key : CellKey) (i : Nat) (sh' : Shard) : Prop where
  valid : sh'.Valid
  holds : Holds cellLayout sh'.buckets sh'.cells key i
  blank : sh'.cells i = ⟨key, true, false, 0, 0, 0⟩
  product : sh'.product = update sh.product key (some ⟨key, true, false, 0, 0, 0⟩)
  count : sh'.count.toNat = sh.count.toNat + 1

theorem fabricCellCreate_spec (absent : sh.product key = none)
    (room : sh.count.toNat + sh.tombstones.toNat < sh.buckets) :
    ∃ i sh', fabricCellCreate sh key = (some i, sh') ∧ CreateSpec sh key i sh' := by
  have bound := valid.count_le
  obtain ⟨i, reused, placed⟩ := valid.table.place_fresh room (fabricCellMix key)
  obtain ⟨after, holds, written⟩ := valid.table.store (c := ⟨key, true, false, 0, 0, 0⟩) absent
    placed rfl rfl
  have more : (sh.count + 1).toNat = sh.count.toNat + 1 := by
    exact Nat.mod_eq_of_lt (by change sh.count.toNat + 1 < 2 ^ 64; omega)
  have fewer : (if reused then sh.tombstones - 1 else sh.tombstones).toNat =
      if reused then sh.tombstones.toNat - 1 else sh.tombstones.toNat := by
    cases reused with
    | false => rfl
    | true =>
      have least : (1 : UInt64) ≤ sh.tombstones :=
        UInt64.le_iff_toNat_le.mpr (valid.table.tombs_pos placed)
      rw [if_pos rfl, if_pos rfl, UInt64.toNat_sub_of_le _ _ least]
      rfl
  have created : fabricCellCreate sh key = (some i, { sh with
      cells := update sh.cells i ⟨key, true, false, 0, 0, 0⟩
      count := sh.count + 1
      tombstones := if reused then sh.tombstones - 1 else sh.tombstones }) := by
    rw [fabricCellCreate, placed]
  refine ⟨i, _, created, ⟨valid.bounded, ?_⟩, holds, update_self .., written, more⟩
  rw [more, fewer]
  exact after

end Shards

section Stores

structure KithFabric.Valid (f : KithFabric) : Prop where
  shard : ∀ i, (f.shards i).Valid
  homed : ∀ i key, ((f.shards i).product key).isSome → fabricShardFor key.zone = i
  total : f.totalCount.toNat = ∑ i, (f.shards i).count.toNat

def KithFabric.product (f : KithFabric) (key : CellKey) : Option CellNode :=
  (f.shardOf key).product key

variable {f : KithFabric} {key : CellKey} {sh : Shard} {o : Option CellNode}

theorem KithFabric.Valid.shardOf (valid : f.Valid) (key : CellKey) : (f.shardOf key).Valid :=
  valid.shard _

theorem KithFabric.Valid.total_le (valid : f.Valid) : f.totalCount.toNat ≤ 2 ^ 62 := by
  have each : ∀ i ∈ Finset.univ, (f.shards i).count.toNat ≤ 2 ^ 58 := fun i _ =>
    le_trans (Nat.le_add_right _ _) (valid.shard i).count_le
  have sum := Finset.sum_le_card_nsmul _ _ _ each
  rw [valid.total]
  rw [Finset.card_univ, Fintype.card_fin, smul_eq_mul] at sum
  omega

theorem KithFabric.Valid.write (valid : f.Valid) {g : KithFabric} (hsh : sh.Valid)
    (shards : g.shards = update f.shards (fabricShardFor key.zone) sh)
    (written : sh.product = update (f.shardOf key).product key o)
    (total : g.totalCount.toNat + (f.shardOf key).count.toNat =
      f.totalCount.toNat + sh.count.toNat) : g.Valid ∧ g.product = update f.product key o := by
  have product :=
    routed_update (fun k : CellKey => fabricShardFor k.zone) Shard.product f.shards written
  have moved := routed_sum (fun s : Shard => s.count.toNat) f.shards (fabricShardFor key.zone) sh
  rw [← shards] at product
  rw [← shards, ← valid.total] at moved
  refine ⟨⟨?_, ?_, ?_⟩, product⟩
  · rw [shards]
    exact routed_each valid.shard hsh _
  · rw [shards]
    exact routed_homed (fun k : CellKey => fabricShardFor k.zone) Shard.product valid.homed written
  · rw [KithFabric.shardOf] at total
    omega

end Stores

section Publishing

variable {f : KithFabric} {key : CellKey} {sh : Shard}

/-- What the store retains after a publish with these arguments that succeeds. -/
def KithFabric.superseded (f : KithFabric) (key : CellKey) (epoch actors : UInt32) : CellNode :=
  ⟨key, true, false, epoch, ((f.product key).map CellNode.publishSeq).getD 0 + 1, actors⟩

/-- A growth of the shard of a new key is refused: by the allocator's answer to this very
request, or because a table twice as large has no size. -/
def KithFabric.Refuses (f : KithFabric) (heap : Heap FabricSite) (key : CellKey) : Prop :=
  f.product key = none ∧
    (heap.grant .grow heap.calls = false ∨ 2 ^ 64 ≤ (f.shardOf key).buckets * 2 * 40)

/-- What a publish does: it is refused as stale exactly when the retained epoch
is above its own, and changes the retained products exactly when it succeeds. -/
structure PublishSpec (f : KithFabric) (heap : Heap FabricSite) (key : CellKey)
    (epoch actors : UInt32) (r : Published × KithFabric × Heap FabricSite) : Prop where
  valid : r.2.1.Valid
  stale : r.1.rc = .err .eperm ↔ ∃ node, f.product key = some node ∧ epoch < node.authorityEpoch
  refused :
    r.1.rc ≠ .ok → r.1.rc = .err .eperm ∧ r.2.1 = f ∨ r.1.rc = .err .enomem ∧ f.Refuses heap key
  product : r.2.1.product = if r.1.rc = .ok then
    update f.product key (some (f.superseded key epoch actors)) else f.product
  seq : r.1.seq =
    if r.1.rc = .ok then some (f.superseded key epoch actors).publishSeq else none

theorem fabricPublishFill_spec (valid : f.Valid) (epoch actors : UInt32)
    (absent : f.product key = none) (hsh : sh.Valid) (same : sh.product = (f.shardOf key).product)
    (count : sh.count.toNat = (f.shardOf key).count.toNat)
    (room : sh.count.toNat + sh.tombstones.toNat < sh.buckets) :
    ∃ f', fabricPublishFill f key epoch actors sh = (⟨.ok, some 1⟩, f') ∧ f'.Valid ∧
      f'.product = update f.product key (some (f.superseded key epoch actors)) := by
  have missing : sh.product key = none := by rwa [same]
  have bound := valid.total_le
  set node : CellNode := ⟨key, true, false, epoch, 1, actors⟩ with hnode
  have fresh : f.superseded key epoch actors = node := by
    simp [KithFabric.superseded, absent, hnode]
  obtain ⟨i, sh', created, spec⟩ := fabricCellCreate_spec hsh missing room
  obtain ⟨filled, written⟩ := spec.valid.rewrite node spec.holds rfl rfl
  rw [spec.product, same, update_idem] at written
  have unmarked :
      { sh'.cells i with authorityEpoch := epoch, publishSeq := 1, actorCount := actors } =
      node := by rw [spec.blank]
  have below : ¬ 2 ^ 64 ≤ f.totalCount.toNat + 1 := by omega
  rw [fabricPublishFill, created]
  dsimp only
  rw [if_neg below, unmarked, fresh]
  refine ⟨_, rfl, valid.write filled rfl written ?_⟩
  have more : (f.totalCount + 1).toNat = f.totalCount.toNat + 1 := by
    exact Nat.mod_eq_of_lt (by change f.totalCount.toNat + 1 < 2 ^ 64; omega)
  have counted := spec.count
  change (f.totalCount + 1).toNat + (f.shardOf key).count.toNat =
    f.totalCount.toNat + sh'.count.toNat
  omega

theorem fabricPublishInsert_spec (valid : f.Valid) (heap : Heap FabricSite) (epoch actors : UInt32)
    (absent : f.product key = none) :
    ∃ r, fabricPublishInsert f heap key epoch actors = some r ∧
      PublishSpec f heap key epoch actors r := by
  obtain ⟨⟨rc, sh, heap'⟩, grown, spec⟩ :=
    fabricShardEnsurePublishCapacity_spec (valid.shardOf key) heap
  rw [fabricPublishInsert, grown, Option.map_some]
  refine ⟨_, rfl, ?_⟩
  rcases spec.outcome with ⟨ok, room⟩ | ⟨refused, kept, cause⟩
  · obtain rfl : rc = .ok := ok
    obtain ⟨f', filled, valid', product⟩ := fabricPublishFill_spec valid epoch actors absent
      spec.valid spec.product spec.count room
    have fresh : f.superseded key epoch actors = ⟨key, true, false, epoch, 1, actors⟩ := by
      simp [KithFabric.superseded, absent]
    dsimp only
    rw [filled]
    exact ⟨valid', by simp [absent], by simp, by simpa using product, by simp [fresh]⟩
  · obtain rfl : rc = .err .enomem := refused
    have same : sh.product = update (f.shardOf key).product key (f.product key) :=
      spec.product.trans (update_eq_self ..).symm
    obtain ⟨valid', product⟩ := valid.write (g := f.setShard key sh) spec.valid rfl same
      (congrArg (f.totalCount.toNat + ·) spec.count.symm)
    exact ⟨valid', by simp [absent], fun _ => .inr ⟨rfl, absent, cause⟩, by simpa using product,
      by simp⟩

theorem kithFabricPublish_spec (valid : f.Valid) (heap : Heap FabricSite) (key : CellKey)
    (epoch actors : UInt32) :
    ∃ r, kithFabricPublish f heap key epoch actors = some r ∧
      PublishSpec f heap key epoch actors r := by
  rw [kithFabricPublish]
  cases found : fabricCellLookup (f.shardOf key) key with
  | some i =>
    have retained : f.product key = some ((f.shardOf key).cells i) := Shard.product_of_lookup found
    have holds := (valid.shardOf key).lookup_holds found
    dsimp only
    split
    · rename_i stale
      exact ⟨_, rfl, valid, by simpa [retained] using stale, fun _ => .inl ⟨rfl, rfl⟩, by simp,
        by simp⟩
    · rename_i fresh
      have live := (live_iff _).mp holds.2.1
      have node : f.superseded key epoch actors =
          fabricPublishExisting ((f.shardOf key).cells i) epoch actors := by
        rw [KithFabric.superseded, retained, fabricPublishExisting]
        simp only [Option.map_some, Option.getD_some, CellNode.mk.injEq, and_true]
        exact ⟨holds.2.2.symm, live.1.symm, live.2.symm⟩
      obtain ⟨hsh, written⟩ := (valid.shardOf key).rewrite (f.superseded key epoch actors) holds
        rfl rfl
      rw [← node]
      obtain ⟨valid', product⟩ := valid.write (g := f.setShard key { f.shardOf key with
        cells := update (f.shardOf key).cells i (f.superseded key epoch actors) })
        hsh rfl written rfl
      refine ⟨_, rfl, { valid' with }, by simpa [retained] using fresh, by simp,
        ?_, by simp⟩
      exact product
  | none =>
    have absent : f.product key = none := Shard.product_of_lookup_none found
    obtain ⟨⟨⟨rc, seq⟩, f', heap'⟩, inserted, spec⟩ :=
      fabricPublishInsert_spec valid heap epoch actors absent
    rw [inserted, Option.map_some]
    cases rc with
    | err code => exact ⟨_, rfl, spec⟩
    | ok =>
      exact ⟨_, rfl, { spec.valid with }, spec.stale, by simp, spec.product, spec.seq⟩

end Publishing

section Removing

variable {f : KithFabric} {key : CellKey} {i m : Nat} {f' : KithFabric}

theorem vacate_spec (valid : f.Valid)
    (holds : Holds cellLayout (f.shardOf key).buckets (f.shardOf key).cells key i) :
    (f.vacate key.zone i).Valid ∧
      (f.vacate key.zone i).product = update f.product key none := by
  obtain ⟨vacated, erased, fewer⟩ := (valid.shardOf key).vacated holds
  have some_live : 0 < f.totalCount.toNat := by
    have part := Finset.single_le_sum (fun j _ => Nat.zero_le (f.shards j).count.toNat)
      (Finset.mem_univ (fabricShardFor key.zone))
    rw [← valid.total] at part
    change (f.shardOf key).count.toNat ≤ f.totalCount.toNat at part
    omega
  refine valid.write vacated rfl erased ?_
  have positive : f.totalCount > 0 := UInt64.lt_iff_toNat_lt.mpr some_live
  have least : (1 : UInt64) ≤ f.totalCount := UInt64.le_iff_toNat_le.mpr some_live
  have lower : (f.vacate key.zone i).totalCount.toNat = f.totalCount.toNat - 1 := by
    rw [KithFabric.vacate]
    rw [if_pos positive, UInt64.toNat_sub_of_le _ _ least]
    rfl
  omega

@[simp] theorem kithFabricRemoveCell_rc (f : KithFabric) (key : CellKey) :
    (kithFabricRemoveCell f key).1 = .ok := by
  rw [kithFabricRemoveCell]
  split
  · rfl
  · rfl

@[simp] theorem kithFabricRemoveZone_rc (f : KithFabric) (zone : UInt32) :
    (kithFabricRemoveZone f zone).1 = .ok := rfl

theorem kithFabricRemoveCell_spec (valid : f.Valid) (key : CellKey) :
    (kithFabricRemoveCell f key).2.Valid ∧
    (kithFabricRemoveCell f key).2.product = update f.product key none := by
  rw [kithFabricRemoveCell]
  cases found : fabricCellLookup (f.shardOf key) key with
  | none =>
    refine ⟨valid, ?_⟩
    rw [eq_comm, update_eq_self_iff]
    exact (Shard.product_of_lookup_none found).symm
  | some i => exact vacate_spec valid ((valid.shardOf key).lookup_holds found)

variable {zone : UInt32}

def KithFabric.zoneShard (f : KithFabric) (zone : UInt32) : Shard := f.shards (fabricShardFor zone)

@[simp] theorem vacate_buckets (f : KithFabric) (zone : UInt32) (i : Nat) :
    ((f.vacate zone i).zoneShard zone).buckets = (f.zoneShard zone).buckets := by
  simp [KithFabric.vacate, KithFabric.zoneShard, Shard.bury]

/-- What the sweep has done after its first `m` buckets: they hold no cell of the zone any
more, and the products of other zones are as before. -/
structure Swept (f : KithFabric) (zone : UInt32) (m : Nat) (f' : KithFabric) : Prop where
  valid : f'.Valid
  buckets : (f'.zoneShard zone).buckets = (f.zoneShard zone).buckets
  clear : ∀ i < m, ∀ key, key.zone = zone →
    ¬ Holds cellLayout (f'.zoneShard zone).buckets (f'.zoneShard zone).cells key i
  kept : ∀ key, key.zone ≠ zone → f'.product key = f.product key

theorem Swept.skip (swept : Swept f zone m f') (none_here : ∀ key, key.zone = zone →
      ¬ Holds cellLayout (f'.zoneShard zone).buckets (f'.zoneShard zone).cells key m) :
    Swept f zone (m + 1) f' :=
  ⟨swept.valid, swept.buckets, Nat.forall_lt_succ_right.mpr ⟨swept.clear, none_here⟩, swept.kept⟩

theorem Swept.take (swept : Swept f zone m f') (inZone : key.zone = zone)
    (found : Holds cellLayout (f'.zoneShard zone).buckets (f'.zoneShard zone).cells key m) :
    Swept f zone (m + 1) (f'.vacate zone m) := by
  have holds : Holds cellLayout (f'.shardOf key).buckets (f'.shardOf key).cells key m := by
    rw [KithFabric.shardOf, inZone]
    exact found
  obtain ⟨valid, erased⟩ := vacate_spec swept.valid holds
  rw [inZone] at valid erased
  refine ⟨valid, (vacate_buckets f' zone m).trans swept.buckets,
    Nat.forall_lt_succ_right.mpr ⟨?_, ?_⟩, ?_⟩
  · intro i earlier k hk held
    have other : i ≠ m := by omega
    simp only [Holds, KithFabric.vacate, KithFabric.zoneShard, Shard.bury] at held
    simp [other] at held
    exact swept.clear i earlier k hk held
  · intro k _ held
    have alive := ((live_iff _).mp held.2.1).2
    simp [KithFabric.vacate, KithFabric.zoneShard, Shard.bury, cellLayout] at alive
  · intro k other
    rw [erased, update_of_ne, swept.kept k other]
    rintro rfl
    exact other inZone

theorem Swept.round (swept : Swept f zone m f') (inside : m < (f.zoneShard zone).buckets) :
    Swept f zone (m + 1) (fabricRemoveBucket zone f' m) := by
  change Swept f zone (m + 1) (if ((f'.zoneShard zone).cells m).used = false ∨
    ((f'.zoneShard zone).cells m).deleted = true ∨ ((f'.zoneShard zone).cells m).key.zone ≠ zone
    then f' else f'.vacate zone m)
  split
  · rename_i skipped
    apply swept.skip
    rintro key inZone ⟨_, live, rfl⟩
    obtain ⟨used, alive⟩ := (live_iff _).mp live
    rcases skipped with unused | dead | other
    · cases unused.symm.trans used
    · cases dead.symm.trans alive
    · exact other inZone
  · rename_i taken
    push Not at taken
    obtain ⟨used, alive, inZone⟩ := taken
    exact swept.take inZone ⟨swept.buckets ▸ inside,
      (live_iff _).mpr ⟨Bool.eq_true_of_not_eq_false used, Bool.eq_false_of_not_eq_true alive⟩, rfl⟩

theorem sweep_spec (valid : f.Valid) (zone : UInt32) (inside : m ≤ (f.zoneShard zone).buckets) :
    Swept f zone m ((range m).foldl (fabricRemoveBucket zone) f) := by
  induction m with
  | zero => exact ⟨valid, rfl, by simp, fun _ _ => rfl⟩
  | succ m ih =>
    rw [range_succ, foldl_append]
    exact (ih (by omega)).round (by omega)

theorem kithFabricRemoveZone_spec (valid : f.Valid) (zone : UInt32) :
    (kithFabricRemoveZone f zone).2.Valid ∧
    (kithFabricRemoveZone f zone).2.product =
      fun key => if key.zone = zone then none else f.product key := by
  have swept := sweep_spec valid zone (le_refl (f.zoneShard zone).buckets)
  refine ⟨swept.valid, funext fun key => ?_⟩
  split
  · rename_i inZone
    have table := (swept.valid.shardOf key).table
    obtain ⟨b, hb⟩ := table.pow2
    refine (entry_eq_none hb table.chained).mpr fun i holds => ?_
    rw [KithFabric.shardOf, inZone] at holds
    exact swept.clear i (swept.buckets ▸ holds.1) key inZone holds
  · rename_i other
    exact swept.kept key other

end Removing

variable {params : Option FabricParams} {heap heap' : Heap FabricSite}

theorem kithFabricCreate_inv {f : KithFabric}
    (created : kithFabricCreate params heap = some (.ok f, heap')) :
    ∃ buckets, ∃ k < 32, f = fabricOfBuckets buckets ∧ buckets.toNat = 2 ^ k := by
  rw [kithFabricCreate] at created
  cases ready : fabricParamsReady params with
  | error code => simp [ready] at created
  | ok p =>
    repeat (split at created; · simp at created)
    obtain ⟨buckets, found, created⟩ := Option.map_eq_some_iff.mp created
    simp only [Prod.mk.injEq, Except.ok.injEq] at created
    obtain ⟨k, inside, hk⟩ : ∃ k < 32, buckets.toNat = 2 ^ k := by
      obtain ⟨r, hr, rfl⟩ := Option.map_eq_some_iff.mp found
      split
      · exact ⟨4, by decide, rfl⟩
      · exact nextPow2Loop_pow hr
    exact ⟨buckets, k, inside, created.1.symm, hk⟩

theorem kithFabricCreate_valid {f : KithFabric}
    (created : kithFabricCreate params heap = some (.ok f, heap')) :
    f.Valid ∧ f.product = fun _ => none := by
  obtain ⟨buckets, k, inside, rfl, hk⟩ := kithFabricCreate_inv created
  have small : k ≤ 58 := by omega
  have shards : ∀ i, (fabricOfBuckets buckets).shards i = fabricShardInit (2 ^ k) := by
    intro i
    rw [← hk]
    rfl
  refine ⟨⟨fun i => shards i ▸ ⟨⟨k, small, rfl⟩, .empty k fun _ _ => rfl⟩, ?_, ?_⟩, ?_⟩
  · intro i key retained
    rw [shards, fabricShardInit_product] at retained
    cases retained
  · exact (Finset.sum_eq_zero fun i _ => rfl).symm
  · funext key
    rw [KithFabric.product, KithFabric.shardOf, shards, fabricShardInit_product]

section Instances

def sampleFabric : KithFabric := fabricOfBuckets 16

theorem sampleFabric_created : kithFabricCreate (some ⟨80, 1, 16⟩) ⟨fun _ _ => true, 0⟩ =
    some (.ok sampleFabric, ⟨fun _ _ => true, 19⟩) := rfl

end Instances

end Kith.Fabric
