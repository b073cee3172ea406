import Kith.Sim.Rebuild

/-!
# Removing a zone

One pass over the dense array drops the artifacts of the zone and moves the
others down, with their hash slots; the member lists are stale until they are
rebuilt. During the pass the counts of the cells are those of the artifacts that
are kept or not looked at yet.
-/

namespace Kith.Sim

open LinearProbe BackPointers Function List

section Kept

variable {sh : Shard} {zone : UInt32} {i : Nat}

/-- The artifacts among the first `i` that the sweep keeps, in their order. -/
def Shard.kept (sh : Shard) (zone : UInt32) (i : Nat) : List ArtNode :=
  ((List.range i).map sh.arts).filter fun x => x.art.key.cell.zone ≠ zone

def Shard.remaining (sh : Shard) (zone : UInt32) (i : Nat) : List ArtNode :=
  sh.kept zone i ++ (List.range' i (sh.artCount - i)).map sh.arts

def countIn (key : CellKey) (nodes : List ArtNode) : Nat :=
  nodes.countP fun x => x.art.key.cell = key

theorem countIn_map (sh : Shard) (n : Nat) (key : CellKey) :
    countIn key ((range n).map sh.arts) = ((range n).map sh.cellAt).count key := by
  rw [countIn, count, countP_map, countP_map]
  rfl

theorem kept_stay (stays : (sh.cellAt i).zone ≠ zone) :
    sh.kept zone (i + 1) = sh.kept zone i ++ [sh.arts i] := by
  rw [Shard.kept, range_succ, map_append, filter_append]
  congr 1
  exact filter_cons_of_pos (decide_eq_true stays)

theorem kept_leave (leaves : (sh.cellAt i).zone = zone) :
    sh.kept zone (i + 1) = sh.kept zone i := by
  rw [Shard.kept, range_succ, map_append, filter_append]
  have dropped : ([i].map sh.arts).filter (fun x => x.art.key.cell.zone ≠ zone) = [] :=
    filter_cons_of_neg fun stays => of_decide_eq_true stays leaves
  rw [dropped, append_nil]
  rfl

theorem length_kept_le (sh : Shard) (zone : UInt32) (i : Nat) : (sh.kept zone i).length ≤ i := by
  have bound := length_filter_le (fun x : ArtNode => decide (x.art.key.cell.zone ≠ zone))
    ((range i).map sh.arts)
  rw [length_map, length_range] at bound
  exact bound

variable (inside : i < sh.artCount)
include inside

theorem remaining_split : sh.remaining zone i =
    sh.kept zone i ++ sh.arts i :: (range' (i + 1) (sh.artCount - (i + 1))).map sh.arts := by
  rw [Shard.remaining, show sh.artCount - i = sh.artCount - (i + 1) + 1 by omega, range'_succ,
    map_cons]

theorem remaining_stay (stays : (sh.cellAt i).zone ≠ zone) :
    sh.remaining zone (i + 1) = sh.remaining zone i := by
  rw [remaining_split inside, Shard.remaining, kept_stay stays, append_assoc, singleton_append]

theorem remaining_leave (leaves : (sh.cellAt i).zone = zone) :
    (sh.remaining zone i).Perm (sh.arts i :: sh.remaining zone (i + 1)) := by
  rw [remaining_split inside, Shard.remaining, kept_leave leaves]
  exact perm_middle

theorem countIn_leave (leaves : (sh.cellAt i).zone = zone) (key : CellKey) :
    countIn key (sh.remaining zone i) =
      countIn key (sh.remaining zone (i + 1)) + if sh.cellAt i = key then 1 else 0 := by
  rw [countIn, (remaining_leave inside leaves).countP_eq, countP_cons]
  simp only [decide_eq_true_eq]
  rfl

end Kept

section Sweep

variable {sh : Shard} {zone : UInt32} {total i : Nat} {sw : ZoneSweep}

/-- The actors counted in the cell, none where there is no cell. -/
def CellTable.tally (t : CellTable) (key : CellKey) : Nat :=
  (t.cell key).elim 0 fun c => c.actorCount.toNat

/-- What the sweep has reached after `i` artifacts. -/
structure Sweeping (sh : Shard) (zone : UInt32) (total i : Nat) (sw : ZoneSweep) : Prop where
  nodes : (range sw.kept).map sw.shard.arts = sh.kept zone i
  total : sw.total + i = total + sw.kept
  rest : ∀ j, i ≤ j → sw.shard.arts j = sh.arts j
  actors : sw.shard.actors.Valid (sw.kept + (sh.artCount - i))
  dense : Indexed sw.shard.actors.dense (fun j => j < sw.kept ∨ i ≤ j ∧ j < sh.artCount)
    sw.shard.actorAt
  cells : sw.shard.cells.Valid
  counted : ∀ key, sw.shard.cells.tally key = countIn key (sh.remaining zone i)
  frame : sw.shard.artCap = sh.artCap ∧ sw.shard.cells.buckets = sh.cells.buckets ∧
    sw.shard.actors.buckets = sh.actors.buckets

section

variable (sweeping : Sweeping sh zone total i sw)
include sweeping

theorem Sweeping.size : sw.kept = (sh.kept zone i).length := by
  rw [← sweeping.nodes, length_map, length_range]

theorem Sweeping.present {x : ArtNode}
    (member : x ∈ sh.remaining zone i) : ∃ c, sw.shard.cells.cell x.art.key.cell = some c := by
  have counted := sweeping.counted x.art.key.cell
  rw [CellTable.tally] at counted
  cases found : sw.shard.cells.cell x.art.key.cell with
  | some c => exact ⟨c, rfl⟩
  | none =>
    rw [found] at counted
    exact absurd (decide_eq_true rfl) (countP_eq_zero.mp counted.symm x member)

omit sweeping in
theorem Sweeping.start (valid : sh.Valid) (zone : UInt32) (total : Nat) :
    Sweeping sh zone total 0 ⟨sh, 0, total⟩ := by
  have all : sh.remaining zone 0 = (range sh.artCount).map sh.arts := by
    rw [Shard.remaining, range_eq_range']
    rfl
  constructor
  · rfl
  · rfl
  · exact fun _ _ => rfl
  · rw [Nat.zero_add, Nat.sub_zero]
    exact valid.tables.actors
  · refine valid.actors.congr (fun _ => rfl) ?_ fun _ _ => rfl
    intro j
    change j < 0 ∨ 0 ≤ j ∧ j < sh.artCount ↔ j < sh.artCount
    omega
  · exact valid.tables.cells
  · intro key
    have length := valid.members.length_members key
    rw [all, countIn_map, ← length, CellTable.tally]
    cases found : sh.cells.cell key with
    | none =>
      rw [CellTable.members, found]
      rfl
    | some c =>
      rw [members_of_cell found]
      exact (valid.counted key c found).actorCount
  · exact ⟨rfl, rfl, rfl⟩

omit sweeping in
theorem simCellDrop_tally {t : CellTable} {key : CellKey} {b : Nat} (valid : t.Valid)
    (holds : t.Holds key b) (positive : 0 < t.tally key) (k : CellKey) :
    t.tally k = (simCellDrop t b).tally k + if key = k then 1 else 0 := by
  obtain ⟨_, written, _, _⟩ := simCellDrop_spec valid holds
  have before : t.tally key = (t.nodes b).actorCount.toNat := by
    rw [CellTable.tally, valid.cell_of_holds holds]
    rfl
  rw [before] at positive
  rw [CellTable.tally.eq_1 (simCellDrop t b), written, update_apply]
  by_cases same : k = key
  · rw [if_pos same, if_pos same.symm, same, before]
    split
    · change _ = 0 + 1
      omega
    · have least : (1 : UInt32) ≤ (t.nodes b).actorCount := UInt32.le_iff_toNat_le.mpr positive
      change _ = ((t.nodes b).actorCount - 1).toNat + 1
      rw [UInt32.toNat_sub_of_le _ _ least]
      exact (Nat.sub_add_cancel positive).symm
  · rw [if_neg same, if_neg (Ne.symm same)]
    rfl

theorem Sweeping.leave (inside : i < sh.artCount)
    (enough : sh.artCount ≤ total) (leaves : (sh.cellAt i).zone = zone) :
    Sweeping sh zone total (i + 1) (simSweepEntry zone sw i) := by
  have node := sweeping.rest i le_rfl
  have member : sh.arts i ∈ sh.remaining zone i :=
    (remaining_leave inside leaves).mem_iff.mpr (mem_cons_self ..)
  have positive : 0 < sw.shard.cells.tally (sh.arts i).art.key.cell := by
    rw [sweeping.counted]
    exact countP_pos_iff.mpr ⟨_, member, decide_eq_true rfl⟩
  obtain ⟨c, found⟩ := sweeping.present member
  obtain ⟨b, looked, holds, rfl⟩ := sweeping.cells.exists_holds found
  obtain ⟨dropped, _, buckets, _⟩ := simCellDrop_spec sweeping.cells holds
  have dense := sweeping.dense.at_place (i := i) (.inr ⟨le_rfl, inside⟩)
  obtain ⟨slot, probed, _⟩ := exists_probe dense
  obtain ⟨buried, _, actorBuckets, erased⟩ :=
    simActorMarkTombstone_spec sweeping.actors (sweeping.actors.probe_iff.mp probed)
  have steps := sweeping.total
  have size := sweeping.size
  have bound := length_kept_le sh zone i
  have unfolded : simSweepEntry zone sw i =
      ⟨{ sw.shard with
          cells := simCellDrop sw.shard.cells b
          actors := simActorMarkTombstone sw.shard.actors slot }, sw.kept, sw.total - 1⟩ := by
    rw [Shard.actorAt, node] at probed
    rw [simSweepEntry, node]
    rw [if_pos (show (sh.arts i).art.key.cell.zone = zone from leaves), looked, probed,
      if_pos (by omega)]
  rw [unfolded]
  obtain ⟨artCap, sameBuckets, sameActors⟩ := sweeping.frame
  constructor
  · rw [kept_leave leaves]
    exact sweeping.nodes
  · dsimp only
    omega
  · intro j later
    exact sweeping.rest j (by omega)
  · rw [show sw.kept + (sh.artCount - (i + 1)) = sw.kept + (sh.artCount - i) - 1 by omega]
    exact buried
  · rw [erased]
    refine (sweeping.dense.erase dense).congr (fun _ => rfl) ?_ fun _ _ => rfl
    intro j
    dsimp only
    omega
  · exact dropped
  · intro key
    have less := simCellDrop_tally sweeping.cells holds positive key
    rw [sweeping.counted, countIn_leave inside leaves] at less
    exact (Nat.add_right_cancel less).symm
  · exact ⟨artCap, buckets.trans sameBuckets, actorBuckets.trans sameActors⟩

omit sweeping in
/-- An artifact that is kept is written to the end of those kept, also where it is
there already. -/
theorem simSweepEntry_stay {slot : Nat} (stays : (sw.shard.cellAt i).zone ≠ zone)
    (probed : simActorProbe sw.shard.actors (sw.shard.actorAt i) = some slot)
    (here : (sw.shard.actors.slots slot).dense = i) :
    simSweepEntry zone sw i =
      ⟨{ sw.shard with
          arts := update sw.shard.arts sw.kept (sw.shard.arts i)
          actors := sw.shard.actors.setDense slot sw.kept }, sw.kept + 1, sw.total⟩ := by
  rw [simSweepEntry]
  rw [if_neg (show ¬ (sw.shard.arts i).art.key.cell.zone = zone from stays),
    show (sw.shard.arts i).art.actorId = sw.shard.actorAt i from rfl, probed]
  split
  · rfl
  · rename_i level
    have level : sw.kept = i := by simpa using level
    have same : sw.shard.actors.setDense slot i = sw.shard.actors := by
      rw [ActorTable.setDense, ← here]
      rw [update_eq_self]
    rw [level, same, update_eq_self]

theorem Sweeping.stay (inside : i < sh.artCount) (stays : (sh.cellAt i).zone ≠ zone) :
    Sweeping sh zone total (i + 1) (simSweepEntry zone sw i) := by
  have node := sweeping.rest i le_rfl
  have size := sweeping.size
  have bound := length_kept_le sh zone i
  have dense := sweeping.dense.at_place (i := i) (.inr ⟨le_rfl, inside⟩)
  obtain ⟨slot, probed, here⟩ := exists_probe dense
  obtain ⟨actors, actorBuckets, rewritten, _⟩ :=
    setDense_spec sweeping.actors (sweeping.actors.probe_iff.mp probed) sw.kept
  have steps := sweeping.total
  obtain ⟨artCap, sameBuckets, sameActors⟩ := sweeping.frame
  have branch : (sw.shard.cellAt i).zone ≠ zone := by
    rw [Shard.cellAt, node]
    exact stays
  rw [simSweepEntry_stay branch probed here]
  constructor
  · dsimp only
    rw [kept_stay stays, range_succ, map_append, map_singleton, update_self, node, ← sweeping.nodes]
    congr 1
    exact map_congr_left fun j below => update_of_ne (mem_range.mp below).ne ..
  · dsimp only
    omega
  · intro j later
    have other : j ≠ sw.kept := by omega
    dsimp only
    rw [update_of_ne other]
    exact sweeping.rest j (by omega)
  · rw [show sw.kept + 1 + (sh.artCount - (i + 1)) = sw.kept + (sh.artCount - i) by omega]
    exact actors
  · rw [rewritten]
    refine (sweeping.dense.replace dense ?_).congr (fun _ => rfl) ?_ ?_
    · intro member
      omega
    · intro j
      dsimp only
      omega
    · intro j _
      rw [Shard.actorAt]
      dsimp only
      rw [update_apply, update_apply]
      split
      · rfl
      · rfl
  · exact sweeping.cells
  · rw [remaining_stay inside stays]
    exact sweeping.counted
  · exact ⟨artCap, sameBuckets, actorBuckets.trans sameActors⟩

end

theorem foldl_sweeping (valid : sh.Valid) (enough : sh.artCount ≤ total) (zone : UInt32) {i : Nat}
    (within : i ≤ sh.artCount) :
    Sweeping sh zone total i ((range i).foldl (simSweepEntry zone) ⟨sh, 0, total⟩) := by
  induction i with
  | zero => exact .start valid zone total
  | succ i ih =>
    have sweeping := ih (by omega)
    rw [range_succ, foldl_append, foldl_cons, foldl_nil]
    by_cases leaves : (sh.cellAt i).zone = zone
    · exact sweeping.leave within enough leaves
    · exact sweeping.stay within leaves

end Sweep

section Removal

variable {sh sh' : Shard} {zone : UInt32} {total : Nat} {sw : ZoneSweep}

structure ZoneRemoved (sh : Shard) (zone : UInt32) (sh' : Shard) : Prop where
  valid : sh'.Valid
  artCount : sh'.artCount = (sh.kept zone sh.artCount).length
  latest : ∀ id, sh'.latest id = (sh.latest id).filter fun a => a.key.cell.zone ≠ zone

theorem remaining_all : sh.remaining zone sh.artCount = sh.kept zone sh.artCount := by
  rw [Shard.remaining, Nat.sub_self]
  exact append_nil _

/-- The sweep takes no artifact out of a cell of another zone. -/
theorem countIn_kept {key : CellKey} (other : key.zone ≠ zone) (n : Nat) :
    countIn key (sh.kept zone n) = ((range n).map sh.cellAt).count key := by
  rw [← countIn_map, countIn, Shard.kept, countP_filter, countIn]
  apply countP_congr
  intro x _
  simp only [Bool.and_eq_true, decide_eq_true_eq]
  constructor
  · exact fun both => both.1
  · intro here
    exact ⟨here, here ▸ other⟩

section Swept

variable (sweeping : Sweeping sh zone total sh.artCount sw)

include sweeping

theorem Sweeping.stored {j : Nat} (below : j < sw.kept) :
    sw.shard.arts j ∈ sh.kept zone sh.artCount := by
  rw [← sweeping.nodes]
  exact mem_map.mpr ⟨j, mem_range.mpr below, rfl⟩

theorem Sweeping.rebuilt_valid (valid : sh.Valid)
    (rebuilt : Rebuilding { sw.shard with artCount := sw.kept } sw.kept sh') : sh'.Valid := by
  obtain ⟨artCount, artCap, actors⟩ := rebuilt.frame
  obtain ⟨sameCap, sameBuckets, sameActors⟩ := sweeping.frame
  have live := sweeping.actors
  rw [Nat.sub_self, Nat.add_zero] at live
  constructor
  · rw [artCount]
    refine valid.tables.same_size (rebuilt.buckets.trans sameBuckets) (artCap.trans sameCap) ?_ ?_
      rebuilt.cells
    · rw [actors]
      exact sameActors
    · rw [actors]
      exact live
  · rw [artCount, actors]
    refine sweeping.dense.congr (fun _ => rfl) ?_ fun j _ =>
      congrArg Artifact.actorId (rebuilt.art j)
    intro j
    dsimp only
    omega
  · rw [artCount]
    exact rebuilt.linked
  · intro key c found
    have before := rebuilt.cell key
    rw [found, Option.map_some, eq_comm, Option.map_eq_some_iff] at before
    obtain ⟨c₀, there, same⟩ := before
    have count : c.actorCount = c₀.actorCount := (congrArg CellNode.actorCount same).symm
    refine ⟨?_, rebuilt.capacity key c found⟩
    have counted := sweeping.counted key
    rw [CellTable.tally, there, remaining_all, ← sweeping.nodes, countIn_map] at counted
    rw [count, show c₀.actorCount.toNat = _ from counted,
      ← members_of_cell found, rebuilt.linked.length_members, rebuilt.cellAt]
    rfl

theorem Sweeping.removed (valid : sh.Valid)
    (rebuilt : Rebuilding { sw.shard with artCount := sw.kept } sw.kept sh') :
    ZoneRemoved sh zone sh' := by
  have artCount : sh'.artCount = sw.kept := rebuilt.frame.1
  have valid' := sweeping.rebuilt_valid valid rebuilt
  refine ⟨valid', artCount.trans sweeping.size, ?_⟩
  intro id
  ext a
  rw [valid'.latest_iff, Option.filter_eq_some_iff, valid.latest_iff, artCount]
  constructor
  · rintro ⟨j, below, rfl, own⟩
    have member := sweeping.stored below
    rw [Shard.kept, mem_filter, mem_map] at member
    obtain ⟨⟨i, inside, same⟩, other⟩ := member
    rw [rebuilt.art] at own ⊢
    exact ⟨⟨i, mem_range.mp inside, congrArg ArtNode.art same, own⟩, other⟩
  · rintro ⟨⟨i, inside, rfl, own⟩, other⟩
    have member : sh.arts i ∈ sh.kept zone sh.artCount :=
      mem_filter.mpr ⟨mem_map.mpr ⟨i, mem_range.mpr inside, rfl⟩, other⟩
    rw [← sweeping.nodes, mem_map] at member
    obtain ⟨j, below, same⟩ := member
    refine ⟨j, mem_range.mp below, ?_, own⟩
    rw [rebuilt.art, ← same]

theorem Sweeping.shortened (valid : sh.Valid) {k : Nat} (below : k < sw.kept)
    (stopped : Rebuilding { sw.shard with artCount := sw.kept } k sh') :
    ∃ key, (sh'.cells.members key).length < (sh.cells.members key).length := by
  have other : (sw.shard.cellAt k).zone ≠ zone := by
    have member := sweeping.stored below
    rw [Shard.kept, mem_filter] at member
    exact of_decide_eq_true member.2
  have cellAt : sh'.cellAt = sw.shard.cellAt := stopped.cellAt
  refine ⟨sw.shard.cellAt k, ?_⟩
  rw [valid.members.length_members, ← countIn_kept other, ← sweeping.nodes, countIn_map,
    stopped.linked.length_members, cellAt]
  obtain ⟨d, split⟩ := Nat.exists_eq_add_of_lt below
  rw [split, Nat.add_assoc, range_add, map_append, count_append]
  have more : 0 < (((range (d + 1)).map (k + ·)).map sw.shard.cellAt).count
      (sw.shard.cellAt k) := by
    rw [count_pos_iff, mem_map]
    exact ⟨k, mem_map.mpr ⟨0, by simp, rfl⟩, rfl⟩
  omega

end Swept

theorem simShardRebuildCellMembers_swept (valid : sh.Valid) (enough : sh.artCount ≤ total)
    (zone : UInt32) (heap : Heap SimSite)
    (swept : sw = (range sh.artCount).foldl (simSweepEntry zone) ⟨sh, 0, total⟩) :
    sw.total + sh.artCount = total + (sh.kept zone sh.artCount).length ∧
    ∃ rc sh' heap', simShardRebuildCellMembers { sw.shard with artCount := sw.kept } heap =
        (rc, sh', heap') ∧
      heap'.grant = heap.grant ∧
      (rc = .ok ∧ ZoneRemoved sh zone sh' ∨
        rc = .err .enomem ∧ Refuses heap ∧
          ∃ key, (sh'.cells.members key).length < (sh.cells.members key).length) := by
  have sweeping := foldl_sweeping valid enough zone le_rfl
  rw [← swept] at sweeping
  refine ⟨sweeping.size ▸ sweeping.total, ?_⟩
  have present : ∀ j < 0 + sw.kept, ∃ c,
      sw.shard.cells.cell (Shard.cellAt { sw.shard with artCount := sw.kept } j) = some c := by
    intro j below
    apply sweeping.present
    rw [remaining_all]
    exact sweeping.stored (by omega)
  have start : Rebuilding { sw.shard with artCount := sw.kept } 0 _ := .start sweeping.cells
  obtain ⟨rc, sh', heap', run, granted, outcome⟩ := simRebuildFrom_spec start present heap
  rw [simShardRebuildCellMembers, range_eq_range', run]
  refine ⟨rc, sh', heap', rfl, granted, ?_⟩
  rw [Nat.zero_add] at outcome
  rcases outcome with ⟨rfl, rebuilt⟩ | ⟨rfl, refused, k, below, stopped⟩
  · exact .inl ⟨rfl, sweeping.removed valid rebuilt⟩
  · exact .inr ⟨rfl, refused, sweeping.shortened valid below stopped⟩

end Removal

end Kith.Sim
