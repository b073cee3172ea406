import Kith.Sim.Links

/-!
# Removing an actor

The artifact is unlinked from its cell, the cell is dropped, and the last dense
entry takes the free position: its hash slot and its member entry follow it.
-/

namespace Kith.Sim

open LinearProbe BackPointers SwapRemove Function

section Unlisted

variable {sh : Shard} {idx i : Nat}

/-- The artifact `idx` is in no cell any more. -/
structure Unlisted (sh : Shard) (idx : Nat) (sh₂ : Shard) : Prop where
  cells : sh₂.cells.Valid
  buckets : sh₂.cells.buckets = sh.cells.buckets
  linked : sh₂.Linked fun j => j < sh.artCount ∧ j ≠ idx
  counted : ∀ key c, sh₂.cells.cell key = some c → c.Counted
  art : ∀ j, (sh₂.arts j).art = (sh.arts j).art
  frame : sh₂.artCount = sh.artCount ∧ sh₂.artCap = sh.artCap ∧ sh₂.actors = sh.actors

theorem simCellMemberUnlink_unlisted (valid : sh.Valid) (inside : idx < sh.artCount)
    (holds : sh.cells.Holds (sh.cellAt idx) i) :
    Unlisted sh idx { simCellMemberUnlink sh i idx with
      cells := simCellDrop (simCellMemberUnlink sh i idx).cells i } := by
  have counted := valid.counted _ _ (valid.tables.cells.cell_of_holds holds)
  have unlinked := simCellMemberUnlink_spec valid.tables.cells holds valid.members inside rfl
  obtain ⟨artCount, artCap, actors, _⟩ := unlinked.frame
  obtain ⟨cells, members, ⟨o, erased, small⟩, buckets, _⟩ :=
    simCellDrop_unlinked unlinked.cells (unlinked.kept _ _ holds) unlinked.node counted
  constructor
  · exact cells
  · exact buckets.trans unlinked.buckets
  · exact unlinked.linked.relist members (fun _ => Iff.rfl) fun _ _ => rfl
  · rw [unlinked.cell, update_idem] at erased
    exact counted_update valid.counted erased small
  · exact unlinked.art
  · exact ⟨artCount, artCap, actors⟩

end Unlisted

section DenseMove

variable {sh : Shard} {idx : Nat}

/-- The dense entry `last` is moved to the free position `idx`. -/
structure Moved (sh : Shard) (idx last : Nat) (sh' : Shard) : Prop where
  arts : sh'.arts = update sh.arts idx (sh.arts last)
  actors : sh'.actors.Valid sh.artCount
  actorBuckets : sh'.actors.buckets = sh.actors.buckets
  kept : ∀ id slot, sh.actors.Holds id slot → sh'.actors.Holds id slot
  dense : sh'.actors.dense = update sh.actors.dense (sh.actorAt last) (some idx)
  cells : sh'.cells.Valid
  buckets : sh'.cells.buckets = sh.cells.buckets
  linked : sh'.Linked fun j => j < sh.artCount - 1
  counted : ∀ key c, sh'.cells.cell key = some c → c.Counted
  frame : sh'.artCount = sh.artCount ∧ sh'.artCap = sh.artCap

theorem simDenseMove_spec (sh : Shard) (idx last : Nat) (ending : last + 1 = sh.artCount)
    (inside : idx < sh.artCount)
    (apart : idx ≠ last) (actors : sh.actors.Valid sh.artCount) (cells : sh.cells.Valid)
    (dense : sh.actors.dense (sh.actorAt last) = some last)
    (linked : sh.Linked fun j => j < sh.artCount ∧ j ≠ idx)
    (counted : ∀ key c, sh.cells.cell key = some c → c.Counted) :
    Moved sh idx last (simDenseMove sh idx last) := by
  obtain ⟨slot, probed, _⟩ := exists_probe dense
  have moves : last < sh.artCount ∧ last ≠ idx := ⟨by omega, apart.symm⟩
  obtain ⟨c, found⟩ := linked.exists_cell moves
  obtain ⟨mc, looked, holds, rfl⟩ := cells.exists_holds found
  have placed := placed_member cells holds linked moves rfl
  have slots := setDense_spec actors (actors.probe_iff.mp probed) idx
  obtain ⟨after, written, _⟩ := cells.set (c := { sh.cells.nodes mc with
    members := (sh.cells.nodes mc).members.set (sh.arts last).memberSlot idx })
    holds holds.2.1 holds.2.2
  have unfolded : simDenseMove sh idx last =
      { sh with
        arts := update sh.arts idx (sh.arts last)
        actors := sh.actors.setDense slot idx
        cells := sh.cells.set mc { sh.cells.nodes mc with
          members := (sh.cells.nodes mc).members.set (sh.arts last).memberSlot idx } } := by
    rw [simDenseMove, show (sh.arts last).art.actorId = sh.actorAt last from rfl, probed]
    rw [show (sh.arts last).art.key.cell = sh.cellAt last from rfl, looked]
    dsimp only
    rw [if_pos placed]
    rfl
  rw [unfolded]
  constructor
  · rfl
  · exact slots.1
  · exact slots.2.1
  · exact slots.2.2.2
  · exact slots.2.2.1
  · exact after
  · rfl
  · have list := members_of_cell (cells.cell_of_holds holds)
    rw [← list] at placed
    have members : (sh.cells.set mc { sh.cells.nodes mc with
        members := (sh.cells.nodes mc).members.set (sh.arts last).memberSlot idx }).members =
        update sh.cells.members (sh.cellAt last)
          ((sh.cells.members (sh.cellAt last)).set (sh.arts last).memberSlot idx) := by
      rw [members_update written, list]
      rfl
    refine Indexed.congr (linked.renumber placed fun both => both.2 rfl)
      (fun p => congrFun (congrArg listed members) p) ?_ ?_
    · intro j
      omega
    · intro j _
      rw [Shard.placeAt, Shard.cellAt]
      dsimp only
      rw [update_apply, update_apply]
      split
      · rfl
      · rfl
  · apply counted_update counted written
    rintro _ ⟨⟩
    have count := counted _ _ (cells.cell_of_holds holds)
    constructor
    · rw [List.length_set]
      exact count.actorCount
    · rw [List.length_set]
      exact count.capacity
  · exact ⟨rfl, rfl⟩

end DenseMove

section Removal

variable {sh : Shard} {id : UInt64} {slot : Nat}

structure Removed (sh : Shard) (id : UInt64) (sh' : Shard) : Prop where
  valid : sh'.Valid
  artCount : sh'.artCount + 1 = sh.artCount
  latest : sh'.latest = update sh.latest id none

theorem simActorMarkTombstone_valid {sh₃ : Shard} (tables : sh.Tables sh.artCount)
    (artCount : sh₃.artCount = sh.artCount) (artCap : sh₃.artCap = sh.artCap)
    (actors : sh₃.actors.Valid sh.artCount) (actorBuckets : sh₃.actors.buckets = sh.actors.buckets)
    (holds : sh₃.actors.Holds id slot) (cells : sh₃.cells.Valid)
    (buckets : sh₃.cells.buckets = sh.cells.buckets)
    (dense : Indexed (update sh₃.actors.dense id none) (· < sh.artCount - 1) sh₃.actorAt)
    (linked : sh₃.Linked (· < sh.artCount - 1))
    (counted : ∀ key c, sh₃.cells.cell key = some c → c.Counted) :
    Shard.Valid { sh₃ with
      artCount := sh₃.artCount - 1
      actors := simActorMarkTombstone sh₃.actors slot } := by
  obtain ⟨buried, _, sameBuckets, erased⟩ := simActorMarkTombstone_spec actors holds
  rw [artCount]
  constructor
  · exact tables.same_size buckets artCap (sameBuckets.trans actorBuckets) buried cells
  · rw [← erased] at dense
    exact dense
  · exact linked
  · exact counted

section Compaction

variable {sh₂ : Shard} {idx last : Nat} (valid : sh.Valid) (holds : sh.actors.Holds id slot)
  (dense : sh.actors.dense id = some idx) (unlisted : Unlisted sh idx sh₂)
  (ending : last + 1 = sh.artCount)

include valid holds dense unlisted ending

theorem Unlisted.removed_last (final : idx = last) :
    Removed sh id { sh₂ with
      artCount := sh₂.artCount - 1
      actors := simActorMarkTombstone sh₂.actors slot } := by
  obtain ⟨artCount, artCap, actors⟩ := unlisted.frame
  have actors₂ : sh₂.actors.Valid sh.artCount := by
    rw [actors]
    exact valid.tables.actors
  rw [← actors] at holds
  obtain ⟨_, _, _, buried⟩ := simActorMarkTombstone_spec actors₂ holds
  constructor
  · apply simActorMarkTombstone_valid valid.tables artCount artCap actors₂
      (congrArg ActorTable.buckets actors) holds unlisted.cells unlisted.buckets
    · rw [actors]
      refine (valid.actors.erase dense).congr (fun _ => rfl) ?_ fun j _ =>
        congrArg Artifact.actorId (unlisted.art j)
      intro j
      omega
    · refine unlisted.linked.congr (fun _ => rfl) ?_ fun _ _ => rfl
      intro j
      omega
    · exact unlisted.counted
  · dsimp only
    omega
  · funext id'
    rw [Shard.latest]
    rw [buried, actors, update_apply, update_apply]
    split
    · rfl
    · rw [Shard.latest]
      simp only [unlisted.art]

theorem Unlisted.removed_moved {sh₃ : Shard} (apart : idx ≠ last) (moved : Moved sh₂ idx last sh₃) :
    Removed sh id { sh₃ with
      artCount := sh₃.artCount - 1
      actors := simActorMarkTombstone sh₃.actors slot } := by
  obtain ⟨artCount, artCap, actors⟩ := unlisted.frame
  obtain ⟨artCount₃, artCap₃⟩ := moved.frame
  have inside := (valid.dense_iff.mp dense).1
  have actors₃ := moved.actors
  have linked₃ := moved.linked
  rw [artCount] at actors₃ linked₃ artCount₃
  have lastDense : sh.actors.dense (sh.actorAt last) = some last :=
    valid.actors.at_place (show last < sh.artCount by omega)
  have sameActor : sh₂.actorAt last = sh.actorAt last := congrArg Artifact.actorId (unlisted.art _)
  have other : sh.actorAt last ≠ id := by
    intro same
    rw [same, dense] at lastDense
    exact apart (Option.some.inj lastDense)
  have dense₃ : sh₃.actors.dense = update sh.actors.dense (sh.actorAt last) (some idx) := by
    rw [moved.dense, actors, sameActor]
  have holds₃ := moved.kept id slot (by rw [actors]; exact holds)
  obtain ⟨_, _, _, buried⟩ := simActorMarkTombstone_spec actors₃ holds₃
  constructor
  · apply simActorMarkTombstone_valid valid.tables artCount₃ (artCap₃.trans artCap) actors₃
      (moved.actorBuckets.trans (congrArg ActorTable.buckets actors)) holds₃ moved.cells
      (moved.buckets.trans unlisted.buckets)
    · have here : update sh.actors.dense id none (sh.actorAt last) = some last := by
        rw [update_of_ne other, lastDense]
      rw [dense₃, update_comm other]
      refine ((valid.actors.erase dense).replace here fun both => absurd rfl both.2).congr
        (fun _ => rfl) ?_ ?_
      · intro j
        omega
      · intro j _
        rw [Shard.actorAt, moved.arts, update_apply, update_apply]
        split
        · exact sameActor
        · exact congrArg Artifact.actorId (unlisted.art j)
    · exact linked₃
    · exact moved.counted
  · dsimp only
    omega
  · funext id'
    rw [Shard.latest]
    rw [buried, dense₃, moved.arts]
    by_cases gone : id' = id
    · rw [gone, update_self, update_self, Option.map_none]
    rw [update_of_ne gone, update_of_ne gone, Shard.latest, update_apply]
    split
    · rename_i same
      rw [same, lastDense, Option.map_some, Option.map_some, update_self, unlisted.art]
    · cases held : sh.actors.dense id' with
      | none => rfl
      | some j =>
        have elsewhere : j ≠ idx := by
          rintro rfl
          exact gone ((valid.dense_iff.mp held).2.symm.trans (valid.dense_iff.mp dense).2)
        rw [Option.map_some, Option.map_some, update_of_ne elsewhere, unlisted.art]

omit holds in
theorem Unlisted.moved (apart : idx ≠ last) : Moved sh₂ idx last (simDenseMove sh₂ idx last) := by
  obtain ⟨artCount, artCap, actors⟩ := unlisted.frame
  have inside := (valid.dense_iff.mp dense).1
  apply simDenseMove_spec sh₂ idx last (by omega) (by omega) apart
  · rw [artCount, actors]
    exact valid.tables.actors
  · exact unlisted.cells
  · rw [actors, show sh₂.actorAt last = sh.actorAt last from
      congrArg Artifact.actorId (unlisted.art _)]
    exact valid.actors.at_place (show last < sh.artCount by omega)
  · rw [artCount]
    exact unlisted.linked
  · exact unlisted.counted

end Compaction

theorem simRemoveSlot_spec (valid : sh.Valid) (probed : simActorProbe sh.actors id = some slot) :
    Removed sh id (simRemoveSlot sh slot) := by
  have dense := dense_of_probe probed
  have holds := valid.tables.actors.probe_iff.mp probed
  have inside := (valid.dense_iff.mp dense).1
  generalize at_slot : (sh.actors.slots slot).dense = idx at dense inside
  obtain ⟨c, found⟩ := valid.exists_cell inside
  obtain ⟨i, looked, cellHolds, rfl⟩ := valid.tables.cells.exists_holds found
  have unlisted := simCellMemberUnlink_unlisted valid inside cellHolds
  obtain ⟨last, ending⟩ : ∃ last, last + 1 = sh.artCount := ⟨sh.artCount - 1, by omega⟩
  have at_end : (simCellMemberUnlink sh i idx).artCount - 1 = last := by
    have artCount : (simCellMemberUnlink sh i idx).artCount = sh.artCount := unlisted.frame.1
    omega
  rw [simRemoveSlot, at_slot, show (sh.arts idx).art.key.cell = sh.cellAt idx from rfl, looked]
  rw [at_end]
  by_cases apart : idx ≠ last
  · rw [if_pos apart]
    exact unlisted.removed_moved valid holds dense ending apart
      (unlisted.moved valid dense ending apart)
  · rw [if_neg apart]
    exact unlisted.removed_last valid holds dense ending (by simpa using apart)

end Removal

end Kith.Sim
