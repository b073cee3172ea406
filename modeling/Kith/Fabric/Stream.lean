import Kith.Fabric.Tables
import Kith.Lib.Runs

/-!
# The cell stream over whole runs

A run is a sequence of publishes and removals of cells and zones, with any
pattern of refused allocations. Over a run the store is a finite map from cell
keys to products with exact counts. The sequence numbers and epochs of a key
belong to one life of its cell, from the publish that creates it to its removal.
-/

namespace Kith.Fabric

open LinearProbe Runs Function List Option

/-- The calls that change the store; `actors` is what the sim reports. -/
inductive StoreOp where
  | publish (key : CellKey) (epoch actors : UInt32)
  | removeCell (key : CellKey)
  | removeZone (zone : UInt32)
  deriving DecidableEq

structure FabricRun where
  fabric : KithFabric
  heap : Heap FabricSite

variable (s : FabricRun)

def FabricRun.step : StoreOp → Option (Published × FabricRun)
  | .publish key epoch actors =>
    (kithFabricPublish s.fabric s.heap key epoch actors).map fun (published, f, heap) =>
      (published, ⟨f, heap⟩)
  | .removeCell key =>
    let removed := kithFabricRemoveCell s.fabric key
    some (⟨removed.1, none⟩, { s with fabric := removed.2 })
  | .removeZone zone =>
    let removed := kithFabricRemoveZone s.fabric zone
    some (⟨removed.1, none⟩, { s with fabric := removed.2 })

section Maps

/-- The store as its readers see it. -/
abbrev ProductMap : Type := CellKey → Option CellProduct

def ProductMap.next (m : ProductMap) (key : CellKey) (epoch actors : UInt32) : CellProduct :=
  ⟨key, epoch, ((m key).map CellProduct.publishSeq).getD 0 + 1, .full, actors⟩

/-- The calls on the map that `s` holds. A publish is stale when the map holds a newer epoch;
it can only be refused for a key that the map does not have, by the allocator. -/
inductive MapStep : ProductMap → StoreOp → Published → ProductMap → Prop
  | published (m : ProductMap) (key : CellKey) (epoch actors : UInt32)
      (current : ∀ p, m key = some p → p.authorityEpoch ≤ epoch) :
      MapStep m (.publish key epoch actors) ⟨.ok, some (m.next key epoch actors).publishSeq⟩
        (update m key (some (m.next key epoch actors)))
  | stale (m : ProductMap) (key : CellKey) (epoch actors : UInt32) (p : CellProduct)
      (found : m key = some p) (newer : epoch < p.authorityEpoch) :
      MapStep m (.publish key epoch actors) ⟨.err .eperm, none⟩ m
  | refused (m : ProductMap) (key : CellKey) (epoch actors : UInt32) (absent : m key = none)
      (cause : s.fabric.Refuses s.heap key) :
      MapStep m (.publish key epoch actors) ⟨.err .enomem, none⟩ m
  | removedCell (m : ProductMap) (key : CellKey) :
      MapStep m (.removeCell key) ⟨.ok, none⟩ (update m key none)
  | removedZone (m : ProductMap) (zone : UInt32) :
      MapStep m (.removeZone zone) ⟨.ok, none⟩ fun key => if key.zone = zone then none else m key

/-- A call on the store and on the map that it holds. -/
def Matched (a : FabricRun × ProductMap) (op : StoreOp) (r : Published)
    (a' : FabricRun × ProductMap) : Prop :=
  a.1.step op = some (r, a'.1) ∧ MapStep a.1 a.2 op r a'.2

def KithFabric.products (f : KithFabric) : ProductMap := fun key =>
  (f.product key).map fabricFillProduct

variable {f : KithFabric} {heap : Heap FabricSite} {key : CellKey} {epoch actors : UInt32}

theorem products_update {f' : KithFabric} {o : Option CellNode}
    (written : f'.product = update f.product key o) :
    f'.products = update f.products key (o.map fabricFillProduct) := by
  funext k
  rw [KithFabric.products, written, update_apply, update_apply]
  split
  · rfl
  · rfl

theorem fill_superseded (f : KithFabric) (key : CellKey) (epoch actors : UInt32) :
    fabricFillProduct (f.superseded key epoch actors) = f.products.next key epoch actors := by
  rw [ProductMap.next, KithFabric.products, Option.map_map]
  rfl

theorem kithFabricCellProduct_eq (f : KithFabric) (key : CellKey) :
    kithFabricCellProduct f key =
      match f.products key with
      | none => .error .enoent
      | some p => .ok p := by
  rw [kithFabricCellProduct, KithFabric.products, KithFabric.product]
  cases found : fabricCellLookup (f.shardOf key) key with
  | none => rw [Shard.product_of_lookup_none found]; rfl
  | some i => rw [Shard.product_of_lookup found]; rfl

theorem PublishSpec.mapStep {r : Published × KithFabric × Heap FabricSite}
    (spec : PublishSpec f heap key epoch actors r) :
    MapStep ⟨f, heap⟩ f.products (.publish key epoch actors) r.1 r.2.1.products := by
  obtain ⟨⟨rc, seq⟩, f', heap'⟩ := r
  have product := spec.product
  have reported := spec.seq
  dsimp only at product reported ⊢
  by_cases ok : rc = .ok
  · rw [if_pos ok] at product reported
    have current : ∀ p, f.products key = some p → p.authorityEpoch ≤ epoch := by
      intro p found
      obtain ⟨node, retained, rfl⟩ := map_eq_some_iff.mp found
      by_contra newer
      have stale := spec.stale.mpr ⟨node, retained, UInt32.not_le.mp newer⟩
      rw [show rc = .err .eperm from stale] at ok
      cases ok
    have seq : (f.superseded key epoch actors).publishSeq =
        (f.products.next key epoch actors).publishSeq := by
      rw [← fill_superseded]
      rfl
    rw [products_update product, map_some, fill_superseded, reported, ok, seq]
    exact .published _ key epoch actors current
  · rw [if_neg ok] at product reported
    have kept : f'.products = f.products := by
      funext k
      rw [KithFabric.products, product]
      rfl
    rw [kept, reported]
    rcases spec.refused ok with ⟨stale, _⟩ | ⟨enomem, cause⟩
    · obtain ⟨node, retained, newer⟩ := spec.stale.mp stale
      rw [show rc = .err .eperm from stale]
      refine .stale _ key epoch actors (fabricFillProduct node) ?_ newer
      rw [KithFabric.products, retained]
      rfl
    · rw [show rc = .err .enomem from enomem]
      refine .refused _ key epoch actors ?_ cause
      rw [KithFabric.products, cause.1]
      rfl

def FabricRun.Holds (a : FabricRun × ProductMap) : Prop :=
  s.fabric.Valid ∧ a = (s, s.fabric.products)

theorem FabricRun.step_refines (a : FabricRun × ProductMap) (op : StoreOp) (holds : s.Holds a)
    (_ : True) : ∃ r s' a', s.step op = some (r, s') ∧ Matched a op r a' ∧ s'.Holds a' := by
  obtain ⟨valid, rfl⟩ := holds
  suffices matched : ∃ r s', s.step op = some (r, s') ∧ s'.fabric.Valid ∧
      MapStep s s.fabric.products op r s'.fabric.products by
    obtain ⟨r, s', stepped, valid', same⟩ := matched
    exact ⟨r, s', _, stepped, ⟨stepped, same⟩, valid', rfl⟩
  cases op with
  | publish key epoch actors =>
    obtain ⟨r, published, spec⟩ := kithFabricPublish_spec valid s.heap key epoch actors
    refine ⟨r.1, ⟨r.2.1, r.2.2⟩, ?_, spec.valid, spec.mapStep⟩
    rw [FabricRun.step, published, map_some]
  | removeCell key =>
    obtain ⟨valid', erased⟩ := kithFabricRemoveCell_spec valid key
    refine ⟨⟨.ok, none⟩, ⟨(kithFabricRemoveCell s.fabric key).2, s.heap⟩, ?_, valid', ?_⟩
    · rw [FabricRun.step, kithFabricRemoveCell_rc]
    · exact products_update erased ▸ .removedCell _ key
  | removeZone zone =>
    obtain ⟨valid', erased⟩ := kithFabricRemoveZone_spec valid zone
    refine ⟨⟨.ok, none⟩, ⟨(kithFabricRemoveZone s.fabric zone).2, s.heap⟩, ?_, valid', ?_⟩
    · rw [FabricRun.step, kithFabricRemoveZone_rc]
    · convert MapStep.removedZone s.fabric.products zone using 1
      funext key
      rw [KithFabric.products, erased]
      dsimp only
      split
      · rfl
      · rfl

theorem KithFabric.Valid.exists_keys (valid : f.Valid) :
    ∃ keys : Finset CellKey, (∀ key, key ∈ keys ↔ (f.products key).isSome) ∧
      f.totalCount.toNat = keys.card ∧
      ∀ i, (f.shards i).count.toNat =
        (keys.filter fun key => fabricShardFor key.zone = i).card := by
  let shardKeys : Fin 16 → Finset CellKey := fun i =>
    liveKeys cellLayout (f.shards i).buckets (f.shards i).cells
  have mem : ∀ i key, key ∈ shardKeys i ↔ ((f.shards i).product key).isSome := fun i key =>
    (valid.shard i).table.mem_liveKeys_iff
  have part : ∀ i, ((Finset.univ.biUnion shardKeys).filter fun key =>
      fabricShardFor key.zone = i) = shardKeys i := by
    intro i
    ext key
    simp only [Finset.mem_filter, Finset.mem_biUnion, Finset.mem_univ, true_and]
    constructor
    · rintro ⟨⟨j, found⟩, rfl⟩
      rwa [valid.homed j key ((mem j key).mp found)]
    · intro found
      exact ⟨⟨i, found⟩, valid.homed i key ((mem i key).mp found)⟩
  have count : ∀ i, (shardKeys i).card = (f.shards i).count.toNat := fun i =>
    (valid.shard i).table.card_liveKeys
  refine ⟨Finset.univ.biUnion shardKeys, ?_, ?_, ?_⟩
  · intro key
    have here : (f.products key).isSome = ((f.shardOf key).product key).isSome := by
      rw [KithFabric.products, isSome_map]
      rfl
    rw [here, KithFabric.shardOf, ← mem, Finset.mem_biUnion]
    constructor
    · rintro ⟨i, _, found⟩
      rwa [valid.homed i key ((mem i key).mp found)]
    · intro found
      exact ⟨_, Finset.mem_univ _, found⟩
  · rw [valid.total, Finset.card_eq_sum_card_fiberwise (f := fun key : CellKey =>
      fabricShardFor key.zone) (t := Finset.univ) fun _ _ => Finset.mem_univ _]
    apply Finset.sum_congr rfl
    intro i _
    rw [part, count]
  · intro i
    rw [part, count]

/-- From its creation on the store is a finite map: every call answers as the map does, unless
its allocation is refused, a lookup returns what the map holds, all counts are exact, and an
insert that has passed its capacity check finds a bucket. -/
theorem fabric_refines_map {params : Option FabricParams} {heap' : Heap FabricSite}
    (created : kithFabricCreate params heap = some (.ok f, heap')) (ops : List StoreOp) :
    ∃ replies s' m, run FabricRun.step ⟨f, heap'⟩ ops = some (replies, s') ∧
      Trace Matched (⟨f, heap'⟩, fun _ => none) ops replies (s', m) ∧
      (∀ key, kithFabricCellProduct s'.fabric key =
        match m key with
        | none => .error .enoent
        | some p => .ok p) ∧
      (∃ keys : Finset CellKey, (∀ key, key ∈ keys ↔ (m key).isSome) ∧
        (kithFabricProductCount s'.fabric).toNat = keys.card ∧
        ∀ i, (s'.fabric.shards i).count.toNat =
          (keys.filter fun key => fabricShardFor key.zone = i).card) ∧
      (∀ i, (s'.fabric.shards i).tombstones.toNat =
        tombCount cellLayout (s'.fabric.shards i).buckets (s'.fabric.shards i).cells) ∧
      ∀ key heap sh heap', m key = none →
        fabricShardEnsurePublishCapacity (s'.fabric.shardOf key) heap = some (.ok, sh, heap') →
        ∃ i sh', fabricCellCreate sh key = (some i, sh') := by
  obtain ⟨valid, empty⟩ := kithFabricCreate_valid created
  have start : FabricRun.Holds ⟨f, heap'⟩ (⟨f, heap'⟩, fun _ => none) := by
    refine ⟨valid, congrArg _ (funext fun key => ?_)⟩
    change none = (f.product key).map fabricFillProduct
    rw [empty]
    rfl
  obtain ⟨replies, s', _, ran, trace, valid', rfl⟩ := run_simulates FabricRun.step_refines start ops
    (along_of_forall (fun _ _ => trivial) _ ops)
  refine ⟨replies, s', _, ran, trace, kithFabricCellProduct_eq s'.fabric, valid'.exists_keys,
    fun i => (valid'.shard i).table.tombs, ?_⟩
  intro key heap sh heap' absent ensured
  obtain ⟨r, ensured', spec⟩ :=
    fabricShardEnsurePublishCapacity_spec (valid'.shardOf key) heap
  obtain rfl : r = (.ok, sh, heap') := Option.some.inj (ensured'.symm.trans ensured)
  have missing : sh.product key = none := by
    rw [spec.product]
    exact Option.map_eq_none_iff.mp absent
  rcases spec.outcome with ⟨_, room⟩ | ⟨failed, _⟩
  · obtain ⟨i, sh', made, _⟩ := fabricCellCreate_spec spec.valid missing room
    exact ⟨i, sh', made⟩
  · cases failed

/-- Publishes in two zones, a removed cell and a removed zone. -/
def sampleOps : List StoreOp :=
  [.publish ⟨1, 0, 0, 0, 0⟩ 5 2, .publish ⟨2, 7, 0, 0, 0⟩ 1 0, .publish ⟨1, 0, 0, 0, 0⟩ 4 9,
    .removeCell ⟨1, 0, 0, 0, 0⟩, .publish ⟨1, 3, 0, 0, 1⟩ 0 1, .removeZone 2]

theorem sampleOps_refine :
    ∃ replies s' m, run FabricRun.step ⟨sampleFabric, ⟨fun _ _ => true, 19⟩⟩ sampleOps =
        some (replies, s') ∧
      Trace Matched (⟨sampleFabric, ⟨fun _ _ => true, 19⟩⟩, fun _ => none) sampleOps replies
        (s', m) ∧
      ∃ keys : Finset CellKey, (∀ key, key ∈ keys ↔ (m key).isSome) ∧
        (kithFabricProductCount s'.fabric).toNat = keys.card := by
  obtain ⟨replies, s', m, ran, trace, _, ⟨keys, mem, total, _⟩, _⟩ :=
    fabric_refines_map sampleFabric_created sampleOps
  exact ⟨replies, s', m, ran, trace, keys, mem, total⟩

end Maps

section Lives

/-- The publishes of each key that were accepted since its last removal, oldest
first: the epoch and the sequence number of each. -/
abbrev Lives : Type := CellKey → List (UInt32 × UInt64)

def Lives.after (lives : Lives) : StoreOp → Published → Lives
  | .publish key epoch _, ⟨.ok, some seq⟩ =>
    update lives key (lives key ++ [(epoch, seq)])
  | .publish .., _ => lives
  | .removeCell key, _ => update lives key []
  | .removeZone zone, _ => fun key => if key.zone = zone then [] else lives key

def livesOf (ops : List StoreOp) (replies : List Published) : Lives :=
  (ops.zip replies).foldl (fun lives e => lives.after e.1 e.2) fun _ => []

/-- One life of a cell: the sequence numbers count up from one, no epoch is below
an earlier one, and the store retains the last of them. -/
structure Life (retained : Option CellNode) (life : List (UInt32 × UInt64)) : Prop where
  seqs : life.map Prod.snd = (List.range life.length).map fun n => UInt64.ofNat (n + 1)
  epochs : (life.map Prod.fst).Pairwise (· ≤ ·)
  last : retained.map (fun node => (node.authorityEpoch, node.publishSeq)) = life.getLast?

variable {f : KithFabric} {key : CellKey} {epoch actors : UInt32} {life : List (UInt32 × UInt64)}
    {retained : Option CellNode}

theorem Life.nil : Life none [] := ⟨rfl, .nil, rfl⟩

theorem Life.stale_iff (lives : Life retained life) :
    (∃ node, retained = some node ∧ epoch < node.authorityEpoch) ↔
      ∃ e ∈ life.map Prod.fst, epoch < e := by
  have last := lives.last
  rcases eq_nil_or_concat' life with rfl | ⟨front, entry, rfl⟩
  · simp only [getLast?_nil, map_eq_none_iff] at last
    simp [last]
  · rw [getLast?_concat] at last
    obtain ⟨node, rfl, here⟩ := map_eq_some_iff.mp last
    have epochs := lives.epochs
    rw [map_append, pairwise_append] at epochs
    obtain ⟨_, _, below⟩ := epochs
    constructor
    · rintro ⟨_, ⟨⟩, newer⟩
      refine ⟨entry.1, by simp, ?_⟩
      rw [← here]
      exact newer
    · rintro ⟨e, found, newer⟩
      refine ⟨node, rfl, ?_⟩
      have highest : e ≤ entry.1 := by
        rw [map_append, mem_append] at found
        rcases found with earlier | same
        · exact below e earlier entry.1 (by simp)
        · obtain rfl : e = entry.1 := by simpa using same
          exact UInt32.le_refl _
      rw [← here] at highest
      exact UInt32.lt_of_lt_of_le newer highest

theorem Life.seq_eq (lives : Life retained life) :
    (retained.map CellNode.publishSeq).getD 0 + 1 = UInt64.ofNat (life.length + 1) := by
  have seqs := lives.seqs
  have last := congrArg (Option.map Prod.snd) lives.last
  have seq : retained.map CellNode.publishSeq = (life.map Prod.snd).getLast? := by
    rw [getLast?_map, ← last, Option.map_map]
    rfl
  rw [seq, seqs, UInt64.ofNat_add]
  cases count : life.length with
  | zero => rfl
  | succ n => simp [range_succ]

theorem Life.extend (lives : Life (f.product key) life)
    (current : ¬ ∃ node, f.product key = some node ∧ epoch < node.authorityEpoch) :
    Life (some (f.superseded key epoch actors))
      (life ++ [(epoch, (f.superseded key epoch actors).publishSeq)]) := by
  have seq : (f.superseded key epoch actors).publishSeq = UInt64.ofNat (life.length + 1) :=
    lives.seq_eq
  refine ⟨?_, ?_, ?_⟩
  · rw [map_append, lives.seqs, length_append, length_singleton, range_succ, map_append, seq]
    rfl
  · rw [map_append, pairwise_append]
    refine ⟨lives.epochs, pairwise_singleton .., ?_⟩
    intro e earlier e' here
    obtain rfl : e' = epoch := by simpa using here
    rw [lives.stale_iff] at current
    by_contra newer
    exact current ⟨e, earlier, UInt32.not_le.mp newer⟩
  · rw [getLast?_concat]
    rfl

def FabricRun.Lived (lives : Lives) : Prop :=
  s.fabric.Valid ∧ ∀ key, Life (s.fabric.product key) (lives key)

theorem FabricRun.step_lived (lives : Lives) (op : StoreOp) (lived : s.Lived lives) (_ : True) :
    ∃ r s' lives', s.step op = some (r, s') ∧ lives' = lives.after op r ∧ s'.Lived lives' := by
  obtain ⟨valid, living⟩ := lived
  cases op with
  | publish key epoch actors =>
    obtain ⟨⟨⟨rc, seq⟩, f', heap'⟩, published, spec⟩ :=
      kithFabricPublish_spec valid s.heap key epoch actors
    refine ⟨⟨rc, seq⟩, ⟨f', heap'⟩, _, ?_, rfl, spec.valid, ?_⟩
    · rw [FabricRun.step, published, map_some]
    · intro k
      have product := spec.product
      have reported := spec.seq
      dsimp only at product reported ⊢
      by_cases ok : rc = .ok
      · subst ok
        rw [if_pos rfl] at product reported
        rw [product, reported, Lives.after, update_apply, update_apply]
        split
        · rename_i same
          subst same
          apply (living k).extend
          intro stale
          have refused : (Rc.ok) = .err .eperm := spec.stale.mpr stale
          cases refused
        · exact living k
      · rw [if_neg ok] at product
        have same : lives.after (.publish key epoch actors) ⟨rc, seq⟩ = lives := by
          cases rc with
          | ok => exact absurd rfl ok
          | err code => rfl
        rw [product, same]
        exact living k
  | removeCell key =>
    obtain ⟨valid', erased⟩ := kithFabricRemoveCell_spec valid key
    refine ⟨_, _, _, rfl, rfl, valid', ?_⟩
    intro k
    rw [erased, Lives.after, update_apply, update_apply]
    split
    · exact .nil
    · exact living k
  | removeZone zone =>
    obtain ⟨valid', erased⟩ := kithFabricRemoveZone_spec valid zone
    refine ⟨_, _, _, rfl, rfl, valid', ?_⟩
    intro k
    rw [erased, Lives.after]
    dsimp only
    split
    · exact .nil
    · exact living k

theorem step_publish_lived {s : FabricRun} {lives : Lives} (lived : s.Lived lives) (key : CellKey)
    (epoch actors : UInt32) :
    ∃ r s', s.step (.publish key epoch actors) = some (r, s') ∧
      (r.rc = .err .eperm ↔ ∃ e ∈ (lives key).map Prod.fst, epoch < e) ∧
      (r.rc = .err .eperm → r.seq = none ∧ s'.fabric = s.fabric) ∧
      (r.rc = .ok → r.seq = some (UInt64.ofNat ((lives key).length + 1))) := by
  obtain ⟨valid, living⟩ := lived
  obtain ⟨⟨published, f', heap'⟩, stepped, spec⟩ :=
    kithFabricPublish_spec valid s.heap key epoch actors
  have reported := spec.seq
  refine ⟨published, ⟨f', heap'⟩, ?_, ?_, ?_, ?_⟩
  · rw [FabricRun.step, stepped, map_some]
  · rw [← (living key).stale_iff]
    exact spec.stale
  · intro stale
    have failed : published.rc ≠ .ok := by simp [stale]
    rw [if_neg failed] at reported
    refine ⟨reported, ?_⟩
    rcases spec.refused failed with ⟨_, same⟩ | ⟨enomem, _⟩
    · exact same
    · rw [show published.rc = .err .enomem from enomem] at stale
      cases stale
  · intro ok
    rw [reported, if_pos ok, KithFabric.superseded, (living key).seq_eq]

theorem Life.seqs_increasing (lives : Life retained life) (short : life.length < 2 ^ 64) :
    (life.map Prod.snd).Pairwise (· < ·) := by
  rw [lives.seqs, pairwise_map]
  refine List.Pairwise.imp_of_mem ?_ pairwise_lt_range
  intro n m hn hm below
  have inside := mem_range.mp hm
  have size : UInt64.size = 2 ^ 64 := rfl
  rw [UInt64.lt_iff_toNat_lt, UInt64.toNat_ofNat_of_lt' (by omega),
    UInt64.toNat_ofNat_of_lt' (by omega)]
  omega

/-- Within one life of a cell its stream is monotone: the sequence numbers count up
from one, the epochs do not fall, and a publish is rejected as stale, with no effect,
exactly when an epoch above its own was accepted in that life. A removal ends the life. -/
theorem cell_stream_monotone {params : Option FabricParams} {heap heap' : Heap FabricSite}
    (created : kithFabricCreate params heap = some (.ok f, heap')) (ops : List StoreOp) :
    ∃ replies s', run FabricRun.step ⟨f, heap'⟩ ops = some (replies, s') ∧
      ∀ key,
        ((livesOf ops replies key).map Prod.snd =
          (List.range (livesOf ops replies key).length).map fun n => UInt64.ofNat (n + 1)) ∧
        ((livesOf ops replies key).length < 2 ^ 64 →
          ((livesOf ops replies key).map Prod.snd).Pairwise (· < ·)) ∧
        ((livesOf ops replies key).map Prod.fst).Pairwise (· ≤ ·) ∧
        ∀ epoch actors, ∃ r s'', s'.step (.publish key epoch actors) = some (r, s'') ∧
          (r.rc = .err .eperm ↔ ∃ e ∈ (livesOf ops replies key).map Prod.fst, epoch < e) ∧
          (r.rc = .err .eperm → r.seq = none ∧ s''.fabric = s'.fabric) ∧
          (r.rc = .ok → r.seq = some (UInt64.ofNat ((livesOf ops replies key).length + 1))) := by
  obtain ⟨valid, empty⟩ := kithFabricCreate_valid created
  have start : FabricRun.Lived ⟨f, heap'⟩ fun _ => [] := by
    refine ⟨valid, fun key => ?_⟩
    rw [empty]
    exact .nil
  obtain ⟨replies, s', lives, ran, trace, lived⟩ := run_simulates FabricRun.step_lived start ops
    (along_of_forall (fun _ _ => trivial) _ ops)
  obtain rfl : lives = livesOf ops replies := trace.end_eq fun _ _ _ _ h => h
  refine ⟨replies, s', ran, fun key => ?_⟩
  have life := lived.2 key
  exact ⟨life.seqs, life.seqs_increasing, life.epochs, step_publish_lived lived key⟩

/-- A cell that is published twice at epoch five, removed and published at epoch three. -/
def revivedOps : List StoreOp :=
  [.publish ⟨1, 0, 0, 0, 0⟩ 5 2, .publish ⟨1, 0, 0, 0, 0⟩ 5 2, .removeCell ⟨1, 0, 0, 0, 0⟩,
    .publish ⟨1, 0, 0, 0, 0⟩ 3 2]

theorem revivedOps_monotone :
    ∃ replies s', run FabricRun.step ⟨sampleFabric, ⟨fun _ _ => true, 19⟩⟩ revivedOps =
        some (replies, s') ∧
      ((livesOf revivedOps replies ⟨1, 0, 0, 0, 0⟩).map Prod.fst).Pairwise (· ≤ ·) := by
  obtain ⟨replies, s', ran, streams⟩ := cell_stream_monotone sampleFabric_created revivedOps
  exact ⟨replies, s', ran, (streams _).2.2.1⟩

/-- Across a removal neither law holds: the sequence restarts at one and an epoch
below an accepted one is accepted. -/
theorem removal_restarts_stream :
    (run FabricRun.step ⟨sampleFabric, ⟨fun _ _ => true, 19⟩⟩ revivedOps).map Prod.fst =
      some [⟨.ok, some 1⟩, ⟨.ok, some 2⟩, ⟨.ok, none⟩, ⟨.ok, some 1⟩] := by
  decide +kernel

end Lives

end Kith.Fabric
