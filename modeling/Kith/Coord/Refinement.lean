import Mathlib.Algebra.BigOperators.Fin
import Mathlib.Data.Set.Card
import Kith.Coord.Steps

/-!
# The override table against a finite map

A run of calls on one coord is compared with the map the calls report: a set or
a contract that returns success writes its entry, a clear erases one, a tick
writes the entries of the decisions it makes. The two agree as long as no insert
meets a shard whose buckets have all been used once and one of which is a
tombstone; there the insert reports success and stores nothing.
-/

namespace Kith.Coord

open LinearProbe Sweep Function List

abbrev OverrideMap := CellKey → Option Authority

/-- The calls that change a coord; a tick brings the bus as it finds it. -/
inductive CoordOp where
  | set (key : CellKey) (instanceId : UInt32)
  | clear (key : CellKey)
  | rebalance (contract : RebalanceContract)
  | report (key : CellKey) (actorCount : UInt32) (nowMs : UInt64)
  | tick (bus : Option Bus) (heap : Heap BusSite) (nowMs : UInt64)

variable (c : KithCoord)

def KithCoord.apply : CoordOp → KithCoord
  | .set key instanceId => (kithCoordSetAuthority c key instanceId).2
  | .clear key => (kithCoordClearAuthority c key).2
  | .rebalance contract => (kithCoordOnRebalance c contract).2
  | .report key actorCount nowMs => (kithCoordReportDensity c key actorCount nowMs).2
  | .tick bus heap nowMs => (kithCoordTick c bus heap nowMs).2.1

/-- A decision counts once its node is obtained, whatever becomes of the broadcast. -/
def recordPhase (nowMs : UInt64) (m : OverrideMap) (v : (Nat × Phase) × TickState) : OverrideMap :=
  match phasePlan nowMs v.1 v.2 with
  | none => m
  | some d => if d.Made v.2.coord then Function.update m d.key d.outcome else m

/-- The map after a call, from what the call reports. -/
def OverrideMap.record (m : OverrideMap) (c : KithCoord) : CoordOp → OverrideMap
  | .set key instanceId =>
    if (kithCoordSetAuthority c key instanceId).1 = .ok then
      Function.update m key (some ⟨instanceId, c.authorityEpochCounter + 1⟩)
    else m
  | .clear key => Function.update m key none
  | .rebalance contract =>
    if (kithCoordOnRebalance c contract).1 = .ok then
      Function.update m contract.key contract.outcome
    else m
  | .report _ _ _ => m
  | .tick none _ _ => m
  | .tick (some bus) heap nowMs => (tickTrail ⟨c, bus, heap⟩ nowMs).foldl (recordPhase nowMs) m

structure MapRun where
  coord : KithCoord
  map : OverrideMap

def MapRun.start : MapRun := ⟨c, fun _ => none⟩

def MapRun.step (r : MapRun) (op : CoordOp) : MapRun := ⟨r.coord.apply op, r.map.record r.coord op⟩

def MapRun.run (r : MapRun) (ops : List CoordOp) : MapRun := ops.foldl MapRun.step r

section Counting

variable {c : KithCoord}

def KithCoord.liveKeys (c : KithCoord) : Finset CellKey :=
  Finset.univ.biUnion fun i => (c.shards i).keys

theorem KithCoord.Valid.mem_liveKeys (valid : c.Valid) (key : CellKey) :
    key ∈ c.liveKeys ↔ (c.override key).isSome := by
  simp only [KithCoord.liveKeys, Finset.mem_biUnion, Finset.mem_univ, true_and,
    (valid.shard _).mem_keys]
  constructor
  · rintro ⟨i, hi⟩
    rw [KithCoord.override, KithCoord.shardOf, valid.zoned i key hi]
    exact hi
  · intro h
    exact ⟨_, h⟩

theorem KithCoord.Valid.card_liveKeys (valid : c.Valid) :
    c.liveKeys.card = ∑ i, (c.shards i).count := by
  rw [KithCoord.liveKeys, Finset.card_biUnion]
  · exact Finset.sum_congr rfl fun i _ => (valid.shard i).table.card_liveKeys
  · intro i _ j _ hij
    refine Finset.disjoint_left.mpr fun key hi hj => ?_
    rw [(valid.shard _).mem_keys] at hi hj
    exact hij ((valid.zoned i key hi).symm.trans (valid.zoned j key hj))

theorem sum_u32 {ι : Type} (f : ι → Nat) (l : List ι) (total : UInt32) :
    (l.foldl (fun total i => total + UInt32.ofNat (f i)) total).toNat =
      (total.toNat + (l.map f).sum) % 2 ^ 32 := by
  induction l generalizing total with
  | nil => simp [Nat.mod_eq_of_lt total.toNat_lt]
  | cons i l ih =>
    rw [foldl_cons, ih, map_cons, sum_cons]
    simp only [UInt32.toNat_add, UInt32.toNat_ofNat']
    omega

theorem kithCoordCellCount_toNat (valid : c.Valid) :
    (kithCoordCellCount c).toNat = c.liveKeys.card % 2 ^ 32 := by
  rw [kithCoordCellCount, sum_u32, valid.card_liveKeys, Fin.sum_univ_def]
  simp

end Counting

/-- An insert of the key neither loses its entry nor overflows the count: the key
is live, or its shard has a never-used bucket and the count fits, or its shard is
full of live entries and the insert is refused. -/
def KithCoord.SafeInsert (key : CellKey) : Prop :=
  (c.override key).isSome ∨
  (c.shardOf key).HasRoom ∧ c.liveKeys.card + 1 < 2 ^ 32 ∨
  ¬ (c.shardOf key).HasRoom ∧ ¬ (c.shardOf key).HasTomb

def Decision.Safe : Decision → Prop
  | .split key _ _ _ => c.SafeInsert key
  | .merge _ _ _ => True

/-- The inserts of a call are safe; those of a tick are its splits. -/
def KithCoord.SafeOp : CoordOp → Prop
  | .set key _ => c.SafeInsert key
  | .rebalance contract => contract.targetInstanceId = 0 ∨ c.SafeInsert contract.key
  | .tick (some bus) heap nowMs => ∀ v ∈ tickTrail ⟨c, bus, heap⟩ nowMs,
      ∀ d, phasePlan nowMs v.1 v.2 = some d → d.Safe v.2.coord
  | _ => True

def KithCoord.SafeRun : KithCoord → List CoordOp → Prop
  | _, [] => True
  | c, op :: ops => c.SafeOp op ∧ (c.apply op).SafeRun ops

/-- The table represents the map, and the count does not overflow. -/
structure Represents (c : KithCoord) (m : OverrideMap) : Prop where
  valid : c.Valid
  same : c.override = m
  small : c.liveKeys.card < 2 ^ 32

variable {c c' : KithCoord} {m : OverrideMap}

theorem Represents.update (rep : Represents c m) {key : CellKey} {o : Option Authority}
    (valid : c'.Valid) (written : c'.override = update c.override key o)
    (fits : o = none ∨ (c.override key).isSome ∨ c.liveKeys.card + 1 < 2 ^ 32) :
    Represents c' (update m key o) := by
  refine ⟨valid, by rw [written, rep.same], ?_⟩
  have grow : c'.liveKeys ⊆ insert key c.liveKeys := by
    intro k hk
    rw [valid.mem_liveKeys, written] at hk
    by_cases h : k = key
    · exact Finset.mem_insert.mpr (.inl h)
    · rw [update_of_ne h] at hk
      exact Finset.mem_insert_of_mem ((rep.valid.mem_liveKeys k).mpr hk)
  rcases fits with rfl | present | fits
  · have shrink : c'.liveKeys ⊆ c.liveKeys := by
      intro k hk
      rcases Finset.mem_insert.mp (grow hk) with rfl | old
      · rw [valid.mem_liveKeys, written, update_self] at hk
        cases hk
      · exact old
    exact lt_of_le_of_lt (Finset.card_le_card shrink) rep.small
  · rw [Finset.insert_eq_of_mem ((rep.valid.mem_liveKeys key).mpr present)] at grow
    exact lt_of_le_of_lt (Finset.card_le_card grow) rep.small
  · have card := (Finset.card_le_card grow).trans (Finset.card_insert_le key c.liveKeys)
    omega

theorem Represents.keep (rep : Represents c m) (valid : c'.Valid)
    (kept : c'.override = c.override) : Represents c' m := by
  refine ⟨valid, kept.trans rep.same, ?_⟩
  have same : c'.liveKeys = c.liveKeys := by
    ext k
    rw [valid.mem_liveKeys, rep.valid.mem_liveKeys, kept]
  rw [same]
  exact rep.small

theorem Represents.store (rep : Represents c m) {key : CellKey} {a : Authority} {rc : Rc}
    (safe : c.SafeInsert key) (valid : c'.Valid)
    (written : c'.override = if c.Stores key then Function.update c.override key (some a)
      else c.override)
    (rc_ok : rc = .ok ↔ c.Stores key ∨ (c.shardOf key).HasTomb) :
    Represents c' (if rc = .ok then Function.update m key (some a) else m) := by
  by_cases stores : c.Stores key
  · rw [if_pos stores] at written
    rw [if_pos (rc_ok.mpr (.inl stores))]
    apply rep.update valid written
    rcases safe with present | ⟨_, fits⟩ | ⟨full, _⟩
    · exact .inr (.inl present)
    · exact .inr (.inr fits)
    · exact .inr (.inl (stores.resolve_right full))
  · rw [if_neg stores] at written
    have clean : ¬ (c.shardOf key).HasTomb := by
      rcases safe with present | ⟨room, _⟩ | ⟨_, clean⟩
      · exact absurd (.inl present) stores
      · exact absurd (.inr room) stores
      · exact clean
    have refused : rc ≠ .ok := fun h => (rc_ok.mp h).elim stores clean
    rw [if_neg refused]
    exact rep.keep valid written

theorem Decision.Safe.lands_iff {d : Decision} (safe : d.Safe c)
    (plan : (c.override d.key).isSome ↔ d.outcome = none) :
    (d.Lands c ↔ d.Made c) ∧ (d.Lands c → d.outcome = none ∨ c.liveKeys.card + 1 < 2 ^ 32) := by
  cases d with
  | merge key source epoch => exact ⟨Iff.rfl, fun _ => .inl rfl⟩
  | split key source target epoch =>
    rcases safe with present | ⟨room, fits⟩ | ⟨full, clean⟩
    · cases plan.mp present
    · exact ⟨⟨fun _ => .inl room, fun _ => room⟩, fun _ => .inr fits⟩
    · exact ⟨⟨fun h => absurd h full, fun h => (h.elim full clean).elim⟩, fun h => absurd h full⟩

theorem Represents.phase {nowMs : UInt64} {v : Nat × Phase} {s : TickState}
    (rep : Represents s.coord m) (safe : ∀ d, phasePlan nowMs v s = some d → d.Safe s.coord) :
    Represents (coordTickPhase nowMs v s).2.coord (recordPhase nowMs m (v, s)) := by
  cases planned : phasePlan nowMs v s with
  | none =>
    simp only [recordPhase, planned, coordTickPhase_of_plan_none planned]
    exact rep
  | some d =>
    have spec := coordTickPhase_of_plan_some rep.valid planned
    obtain ⟨lands_iff, fits⟩ := (safe d planned).lands_iff (phasePlan_some planned).2.2
    simp only [recordPhase, planned, ← lands_iff]
    by_cases lands : d.Lands s.coord
    · rw [if_pos lands]
      refine rep.update spec.valid (by rw [spec.override, if_pos lands]) ?_
      exact (fits lands).imp_right .inr
    · rw [if_neg lands]
      exact rep.keep spec.valid (by rw [spec.override, if_neg lands])

theorem Represents.tick {s : TickState} {nowMs : UInt64} (rep : Represents s.coord m)
    (safe : ∀ v ∈ tickTrail s nowMs, ∀ d, phasePlan nowMs v.1 v.2 = some d → d.Safe v.2.coord) :
    Represents (coordTickOn s nowMs).2.coord
      ((tickTrail s nowMs).foldl (recordPhase nowMs) m) := by
  have counted : Represents s.coord.countTick m :=
    rep.keep (countTick_valid rep.valid) (countTick_override s.coord)
  refine tick_relate (R := fun t m => Represents t.coord m) counted ?_ ?_
  · rwa [tickStart_coord]
  · intro v hv m rep
    exact rep.phase (safe v hv)

theorem MapRun.step_represents {r : MapRun} (rep : Represents r.coord r.map) {op : CoordOp}
    (safe : r.coord.SafeOp op) : Represents (r.step op).coord (r.step op).map := by
  cases op with
  | set key instanceId =>
    obtain ⟨valid, written, rc_ok⟩ := kithCoordSetAuthority_spec rep.valid key instanceId
    exact rep.store safe valid written rc_ok
  | clear key =>
    obtain ⟨valid, written⟩ := kithCoordClearAuthority_spec rep.valid key
    exact rep.update valid written (.inl rfl)
  | rebalance contract =>
    obtain ⟨valid, written, rc_ok⟩ := kithCoordOnRebalance_spec rep.valid contract
    simp only [MapRun.step, OverrideMap.record, KithCoord.apply]
    by_cases zero : contract.targetInstanceId = 0
    · have lands : contract.Lands r.coord := .inl zero
      rw [if_pos (rc_ok.mpr (.inl lands))]
      rw [if_pos lands] at written
      exact rep.update valid written (.inl (if_pos zero))
    · have lands : contract.Lands r.coord ↔ r.coord.Stores contract.key := by
        simp [RebalanceContract.Lands, zero]
      simp only [RebalanceContract.outcome, zero, if_false, lands] at written rc_ok ⊢
      exact rep.store (safe.resolve_left zero) valid written rc_ok
  | report key actorCount nowMs =>
    have same := (kithCoordReportDensity_shards r.coord key actorCount nowMs).1
    exact rep.keep (valid_congr rep.valid same) (override_congr same)
  | tick bus heap nowMs =>
    cases bus with
    | none => exact rep.keep (countTick_valid rep.valid) (countTick_override r.coord)
    | some bus => exact rep.tick safe

theorem MapRun.run_represents {r : MapRun} (rep : Represents r.coord r.map) {ops : List CoordOp}
    (safe : r.coord.SafeRun ops) : Represents (r.run ops).coord (r.run ops).map := by
  induction ops generalizing r with
  | nil => exact rep
  | cons op ops ih => exact ih (MapRun.step_represents rep safe.1) safe.2

/-- Every state a run reaches from creation: the authority of a key is the entry
the calls reported for it, else the fallback at epoch 0, and the cell count is
the number of entries. -/
theorem coord_refines_map {params : Option CoordParams} {heap heap' : Heap CoordSite}
    (created : kithCoordCreate params heap = some (.ok c, heap')) (ops : List CoordOp)
    (safe : c.SafeRun ops) :
    (∀ bus key, kithCoordAuthority ((MapRun.start c).run ops).coord bus key =
      (((MapRun.start c).run ops).map key).getD
        ⟨coordHashFallback ((MapRun.start c).run ops).coord bus key, 0⟩) ∧
    (kithCoordCellCount ((MapRun.start c).run ops).coord).toNat =
      {key | (((MapRun.start c).run ops).map key).isSome}.ncard := by
  obtain ⟨valid, empty⟩ := kithCoordCreate_valid created
  have start : Represents (MapRun.start c).coord (MapRun.start c).map := by
    refine ⟨valid, empty, ?_⟩
    have none_live : c.liveKeys = ∅ := by
      ext k
      simp [valid.mem_liveKeys, empty]
    simp [MapRun.start, none_live]
  have rep := MapRun.run_represents start safe
  refine ⟨fun bus key => by rw [kithCoordAuthority_eq, rep.same], ?_⟩
  have keys : {key | (((MapRun.start c).run ops).map key).isSome} =
      ((MapRun.start c).run ops).coord.liveKeys := by
    ext key
    rw [Finset.mem_coe, rep.valid.mem_liveKeys, rep.same]
    rfl
  rw [keys, Set.ncard_coe_finset, kithCoordCellCount_toNat rep.valid, Nat.mod_eq_of_lt rep.small]

section Instances

def sampleParams : CoordParams := ⟨120, 1, 1, 16, 1, 2, 1, 10, 10⟩

def sampleCoord : KithCoord := coordOfParams sampleParams 16 4096

def sampleCell (i : Nat) : CellKey := ⟨0, Int32.ofNat i, 0, 0, 0⟩

theorem sampleCoord_created : kithCoordCreate (some sampleParams) ⟨fun _ _ => true, 0⟩ =
    some (.ok sampleCoord, ⟨fun _ _ => true, 18⟩) := rfl

def sampleOps : List CoordOp :=
  [.set (sampleCell 0) 5, .clear (sampleCell 0), .set (sampleCell 1) 6]

theorem coord_refines_map_sample :
    kithCoordCellCount ((MapRun.start sampleCoord).run sampleOps).coord = 1 ∧
    (kithCoordCellCount ((MapRun.start sampleCoord).run sampleOps).coord).toNat =
      {key | (((MapRun.start sampleCoord).run sampleOps).map key).isSome}.ncard := by
  refine ⟨by decide +kernel, (coord_refines_map sampleCoord_created sampleOps ?_).2⟩
  have room : ∀ c : KithCoord, ∀ key, (c.shardOf key).HasRoom ∧ c.liveKeys.card + 1 < 2 ^ 32 →
      c.SafeInsert key := fun _ _ h => .inr (.inl h)
  exact ⟨room _ _ (by decide +kernel), trivial, room _ _ (by decide +kernel), trivial⟩

/-- Sixteen sets fill a shard of sixteen buckets, one clear leaves a tombstone, and
the next set of a new key reports success: the map then has sixteen entries, the
table fifteen, and the key still answers with the fallback. -/
theorem full_shard_loses_set :
    let ops : List CoordOp := (List.range 16).map (fun i => .set (sampleCell i) 5) ++
      [.clear (sampleCell 0), .set (sampleCell 16) 9]
    let r := (MapRun.start sampleCoord).run ops
    kithCoordCreate (some sampleParams) ⟨fun _ _ => true, 0⟩ =
      some (.ok sampleCoord, ⟨fun _ _ => true, 18⟩) ∧
    r.map (sampleCell 16) = some ⟨9, 18⟩ ∧
    kithCoordAuthority r.coord none (sampleCell 16) = ⟨1, 0⟩ ∧
    kithCoordCellCount r.coord = 15 :=
  ⟨sampleCoord_created, by decide +kernel⟩

end Instances

end Kith.Coord
