import Kith.Sim.Publish

/-!
# Moving an artifact between cells

A move unlinks the artifact from its old cell, finds or makes the target cell,
links there and drops the old cell. When the link is refused the old cell takes
the artifact back, at the end of its list.
-/

namespace Kith.Sim

open LinearProbe BackPointers SwapRemove Function

section Moves

variable {sh sh₂ : Shard} {idx old i : Nat} {key : CellKey} {k : CellKey} {c : CellNode}
    {sh₃ : Shard}

/-- The artifact `idx` is out of the list of its cell, which is in bucket `old`, and the
target cell is in bucket `i`. -/
structure Detached (sh : Shard) (idx old : Nat) (key : CellKey) (i : Nat) (sh₂ : Shard) : Prop where
  cells : sh₂.cells.Valid
  buckets : sh₂.cells.buckets = sh.cells.buckets
  source : sh₂.cells.Holds (sh.cellAt idx) old
  target : sh₂.cells.Holds key i
  left : sh₂.cells.nodes old = (sh.cells.nodes old).unlink (sh.arts idx).memberSlot
  node : sh₂.cells.nodes i = sh.cells.target key
  cell : sh₂.cells.cell =
    update (update sh.cells.cell (sh.cellAt idx) (some (sh₂.cells.nodes old))) key
      (some (sh₂.cells.nodes i))
  linked : sh₂.Linked fun j => j < sh.artCount ∧ j ≠ idx
  art : ∀ j, (sh₂.arts j).art = (sh.arts j).art
  frame : sh₂.artCount = sh.artCount ∧ sh₂.artCap = sh.artCap ∧ sh₂.actors = sh.actors

theorem simCellMemberUnlink_detached (valid : sh.Valid) (inside : idx < sh.artCount)
    (holds : sh.cells.Holds (sh.cellAt idx) old) (elsewhere : sh.cellAt idx ≠ key)
    (cellRoom : sh.cells.count + sh.cells.tombstones < sh.cells.buckets) :
    ∃ i cells, simCellFindOrCreate (simCellMemberUnlink sh old idx).cells key = (some i, cells) ∧
      Detached sh idx old key i { simCellMemberUnlink sh old idx with cells := cells } := by
  have unlinked := simCellMemberUnlink_spec valid.tables.cells holds valid.members inside rfl
  obtain ⟨artCount, artCap, actors, count, tombs⟩ := unlinked.frame
  rw [← count, ← tombs, ← unlinked.buckets] at cellRoom
  obtain ⟨i, cells, created, spec⟩ := simCellFindOrCreate_spec unlinked.cells cellRoom key
  have kept := spec.kept _ _ (unlinked.kept _ _ holds)
  have target : (simCellMemberUnlink sh old idx).cells.cell key = sh.cells.cell key := by
    rw [unlinked.cell, update_of_ne elsewhere.symm]
  have node := spec.node
  have cell := spec.cell
  rw [target] at node
  refine ⟨i, cells, created, ?_⟩
  constructor
  · exact spec.valid
  · exact spec.buckets.trans unlinked.buckets
  · exact kept.1
  · exact spec.holds
  · exact kept.2.trans unlinked.node
  · exact node
  · rw [cell, target, unlinked.cell, kept.2, node]
  · exact unlinked.linked.congr
      (fun p => congrFun (congrArg listed (members_findOrCreate spec)) p) (fun _ => Iff.rfl)
      fun _ _ => rfl
  · exact unlinked.art
  · exact ⟨artCount, artCap, actors⟩

variable (valid : sh.Valid) (inside : idx < sh.artCount)
  (holds : sh.cells.Holds (sh.cellAt idx) old)
  (elsewhere : sh.cellAt idx ≠ key) (detached : Detached sh idx old key i sh₂)

include valid inside holds elsewhere detached

omit inside in
theorem Detached.members : sh₂.cells.members = update sh.cells.members (sh.cellAt idx)
    (swapRemove (sh.cells.members (sh.cellAt idx)) (sh.arts idx).memberSlot) := by
  have list := members_of_cell (valid.tables.cells.cell_of_holds holds)
  funext k
  rw [CellTable.members, detached.cell, update_apply, update_apply,
    update_apply]
  by_cases here : k = key
  · subst here
    rw [if_pos rfl, if_neg elsewhere.symm, detached.node, ← target_members]
    rfl
  · rw [if_neg here]
    split
    · rw [detached.left, list]
      rfl
    · rfl

omit inside holds elsewhere in
theorem Detached.counted (found : sh₂.cells.cell k = some c) (other : k ≠ sh.cellAt idx) :
    c.Counted := by
  rw [detached.cell, update_apply, update_of_ne other] at found
  split at found
  · cases found
    rw [detached.node]
    exact valid.target_counted key
  · exact valid.counted k c found

omit valid inside holds elsewhere in
theorem Detached.relinked {b : Nat} (spec : AppendSpec sh₂ k b idx sh₃)
    (there : sh₂.cells.Holds k b) (place : Nat → CellKey × Nat)
    (own : place idx = (k, (sh₂.cells.nodes b).members.length))
    (others : ∀ j, j ≠ idx → place j = sh₂.placeAt j) (within : idx < sh.artCount) :
    Indexed (listed sh₃.cells.members) (· < sh.artCount) place := by
  rw [← members_of_cell (detached.cells.cell_of_holds there)] at own
  refine (spec.linked detached.cells there detached.linked (fun both => both.2 rfl) place own
    fun j both => others j both.2).congr (fun _ => rfl) ?_ fun _ _ => rfl
  intro j
  omega

omit inside elsewhere in
theorem Detached.recounted {cap : Nat} (present : 0 < (sh.cells.nodes old).members.length)
    (fits : (sh₂.cells.nodes old).members.length < cap) :
    ((sh₂.cells.nodes old).push idx cap).Counted := by
  have counted := valid.counted _ _ (valid.tables.cells.cell_of_holds holds)
  have length : (sh₂.cells.nodes old).members.length = (sh.cells.nodes old).members.length - 1 := by
    rw [detached.left]
    exact length_swapRemove ..
  have count : (sh₂.cells.nodes old).actorCount = (sh.cells.nodes old).actorCount := by
    rw [detached.left]
    rfl
  have size : ((sh₂.cells.nodes old).push idx cap).members.length =
      (sh₂.cells.nodes old).members.length + 1 := List.length_append
  constructor
  · change (sh₂.cells.nodes old).actorCount.toNat = _
    rw [size, count, counted.actorCount]
    omega
  · rw [size]
    exact fits

theorem Detached.bounced_of_append {sh' : Shard}
    (spec : AppendSpec sh₂ (sh.cellAt idx) old idx sh') :
    Bounced sh key (update sh.cells.members (sh.cellAt idx)
      (swapRemove (sh.cells.members (sh.cellAt idx)) (sh.arts idx).memberSlot ++ [idx])) sh' := by
  have found := valid.tables.cells.cell_of_holds holds
  have placed := placed_member valid.tables.cells holds valid.members inside rfl
  have within := (List.getElem?_eq_some_iff.mp placed).1
  obtain ⟨artCount, artCap, actors, _⟩ := spec.frame
  obtain ⟨artCount₂, artCap₂, actors₂⟩ := detached.frame
  obtain ⟨cap, fits, node⟩ := spec.node
  have art : ∀ j, (sh'.arts j).art = (sh.arts j).art := by
    intro j
    rw [← detached.art, spec.arts, update_apply]
    split
    · rename_i same
      rw [same]
    · rfl
  constructor
  · constructor
    · rw [artCount, artCount₂]
      refine valid.tables.same_size (spec.buckets.trans detached.buckets)
        (artCap.trans artCap₂) ?_ ?_ spec.cells
      · rw [actors, actors₂]
      · rw [actors, actors₂]
        exact valid.tables.actors
    · rw [artCount, artCount₂, actors, actors₂]
      exact valid.actors.congr (fun _ => rfl) (fun _ => Iff.rfl) fun j _ =>
        congrArg Artifact.actorId (art j)
    · rw [artCount, artCount₂]
      refine detached.relinked spec detached.source _ ?_ ?_ inside
      · rw [Shard.placeAt, Shard.cellAt, art, spec.arts, update_self]
        rfl
      · intro j other
        rw [Shard.placeAt, Shard.cellAt, spec.arts, update_of_ne other]
        rfl
    · intro k c there
      rw [spec.cell, update_apply] at there
      split at there
      · cases there
        rw [node]
        exact detached.recounted valid holds (by omega) fits
      · rename_i other
        exact detached.counted valid there other
  · rw [artCount, artCount₂]
  · rw [actors, actors₂]
  · exact fun j _ => art j
  · intro k
    rw [spec.cell, detached.cell, update_apply, update_apply, update_apply]
    by_cases same : k = sh.cellAt idx
    · subst same
      rw [if_pos rfl, if_neg elsewhere, found, node, detached.left]
      rfl
    · rw [if_neg same, if_neg same, detached.node]
      split
      · rfl
      · rfl
  · rw [spec.members detached.cells detached.source,
      detached.members valid holds elsewhere, update_self, update_idem]

theorem Detached.bounced (heap : Heap SimSite) :
    ∃ sh' heap', simCellMemberAppend sh₂ heap old idx = (.ok, sh', heap') ∧
      heap'.grant = heap.grant ∧
      Bounced sh key (update sh.cells.members (sh.cellAt idx)
        (swapRemove (sh.cells.members (sh.cellAt idx)) (sh.arts idx).memberSlot ++ [idx])) sh' := by
  have placed := placed_member valid.tables.cells holds valid.members inside rfl
  have within := (List.getElem?_eq_some_iff.mp placed).1
  have bound := (valid.counted _ _ (valid.tables.cells.cell_of_holds holds)).capacity
  have space : (sh₂.cells.nodes old).members.length < (sh₂.cells.nodes old).memberCap := by
    rw [detached.left]
    change (swapRemove _ _).length < (sh.cells.nodes old).memberCap
    rw [length_swapRemove]
    omega
  obtain ⟨rc, sh', heap', appended, granted, outcome⟩ :=
    simCellMemberAppend_spec sh₂ detached.cells detached.source space.le heap idx
  rcases outcome with ⟨_, _, stuck⟩ | ⟨rfl, _, spec⟩
  · exact absurd stuck.1 (by omega)
  · exact ⟨sh', heap', appended, granted,
      detached.bounced_of_append valid inside holds elsewhere spec⟩

omit elsewhere detached in
theorem Detached.stored {key : ArtifactKey} {actor : Actor} {cells : CellTable}
    (elsewhere : sh.cellAt idx ≠ key.cell) (detached : Detached sh idx old key.cell i sh₂)
    (dense : sh.actors.dense actor.id = some idx)
    (small : (sh.cells.members key.cell).length + 1 < 2 ^ 32)
    (spec : AppendSpec sh₂ key.cell i idx sh₃)
    (advanced : c = (sh₃.cells.nodes i).advance key.authorityEpoch true)
    (dropped : cells = simCellDrop (sh₃.cells.set i c) old) :
    c.latestSeq = sh.cells.nextSeq key.cell ∧ cells.nodes i = c ∧
      Stored sh key actor { sh₃.fillArt idx (sh.published key actor) with cells := cells } := by
  obtain ⟨cap, fits, node⟩ := spec.node
  obtain ⟨artCount, artCap, actors, _⟩ := spec.frame
  obtain ⟨artCount₂, artCap₂, actors₂⟩ := detached.frame
  have target := spec.kept _ _ detached.target
  obtain ⟨after, written, kept⟩ := spec.cells.set (c := c) target
    (by rw [advanced]; exact target.2.1) (by rw [advanced]; exact target.2.2)
  have apart : old ≠ i := by
    rintro rfl
    exact elsewhere (detached.source.2.2.symm.trans detached.target.2.2)
  have left :
      (sh₃.cells.set i c).nodes old = (sh.cells.nodes old).unlink (sh.arts idx).memberSlot := by
    rw [← detached.left, ← spec.others old apart]
    exact update_of_ne apart ..
  have counted := valid.counted _ _ (valid.tables.cells.cell_of_holds holds)
  obtain ⟨valid', members, ⟨o, erased, small_old⟩, buckets, kept'⟩ := simCellDrop_unlinked after
    (kept _ _ (spec.kept _ _ detached.source)) left counted
  rw [← dropped] at valid' members erased buckets kept'
  have lists : cells.members = sh₃.cells.members := by
    rw [members]
    apply members_rewrite written
    rw [advanced]
    exact (members_of_cell (spec.cells.cell_of_holds target)).symm
  refine ⟨?_, ?_, .rewrite valid dense ?_ ?_ ?_ ?_ ?_ ?_ ?_⟩
  · rw [advanced, node, detached.node]
    rfl
  · have found := valid'.cell_of_holds (kept' _ _ elsewhere.symm (kept _ _ target))
    rw [erased, update_of_ne elsewhere.symm, written, update_self] at found
    exact (Option.some.inj found).symm
  · refine valid.tables.same_size (buckets.trans (spec.buckets.trans detached.buckets))
      (artCap.trans artCap₂) ?_ ?_ valid'
    · exact congrArg ActorTable.buckets (actors.trans actors₂)
    · exact (actors.trans actors₂) ▸ valid.tables.actors
  · exact artCount.trans artCount₂
  · exact congrArg ActorTable.dense (actors.trans actors₂)
  · rw [fillArt_self]
  · intro j other
    rw [fillArt_of_ne other, spec.arts, update_of_ne other]
    exact detached.art j
  · rw [Shard.Linked]
    rw [lists]
    refine detached.relinked spec detached.target _ ?_ ?_ inside
    · rw [Shard.placeAt, Shard.cellAt]
      rw [fillArt_self, spec.arts, update_self]
      rfl
    · intro j other
      rw [Shard.placeAt, Shard.cellAt]
      rw [fillArt_of_ne other, spec.arts, update_of_ne other]
      rfl
  · intro k c' found
    rw [erased, update_apply] at found
    split at found
    · exact small_old c' found
    · rename_i other
      rw [written, update_apply] at found
      split at found
      · cases found
        rw [advanced, node, detached.node]
        rw [detached.node] at fits
        exact joined_counted (valid.target_counted _) fits (by rwa [target_members]) _
      · rename_i fresh
        rw [spec.cell, update_of_ne fresh] at found
        exact detached.counted valid found other

end Moves

section Moving

variable {sh : Shard} {idx : Nat} {key : ArtifactKey} {actor : Actor}

theorem simPublishMove_spec (valid : sh.Valid) (dense : sh.actors.dense actor.id = some idx)
    (elsewhere : sh.cellAt idx ≠ key.cell)
    (cellRoom : sh.cells.count + sh.cells.tombstones < sh.cells.buckets)
    (small : (sh.cells.members key.cell).length + 1 < 2 ^ 32) (heap : Heap SimSite) :
    ∃ published sh' heap', simPublishMove sh heap idx key actor = (published, sh', heap') ∧
      heap'.grant = heap.grant ∧
      (published = ⟨.err .enomem, none⟩ ∧ (sh.cells.target key.cell).Stuck heap ∧
          Bounced sh key.cell (update sh.cells.members (sh.cellAt idx)
            (swapRemove (sh.cells.members (sh.cellAt idx)) (sh.arts idx).memberSlot ++ [idx])) sh' ∨
        published = ⟨.ok, some (sh.cells.nextSeq key.cell)⟩ ∧
          ¬ (sh.cells.target key.cell).Stuck heap ∧ Stored sh key actor sh') := by
  have inside := (valid.dense_iff.mp dense).1
  obtain ⟨c, found⟩ := valid.exists_cell inside
  obtain ⟨old, looked, holds, rfl⟩ := valid.tables.cells.exists_holds found
  obtain ⟨i, cells, created, detached⟩ :=
    simCellMemberUnlink_detached valid inside holds elsewhere cellRoom
  have counted := valid.target_counted key.cell
  obtain ⟨rc, sh₃, heap', appended, granted, outcome⟩ := simCellMemberAppend_spec _ detached.cells
    detached.target (detached.node ▸ counted.capacity) heap idx
  rw [detached.node] at outcome
  rw [simPublishMove, show (sh.arts idx).art.key.cell = sh.cellAt idx from rfl, looked]
  rw [created]
  dsimp only
  rw [appended]
  rcases outcome with ⟨rfl, rfl, stuck⟩ | ⟨rfl, free, spec⟩
  · obtain ⟨sh', heap'', back, granted', bounced⟩ :=
      detached.bounced valid inside holds elsewhere heap'
    dsimp only
    rw [back]
    exact ⟨_, _, _, rfl, granted'.trans granted, .inl ⟨rfl, stuck, bounced⟩⟩
  · obtain ⟨seq, same, stored⟩ :=
      Detached.stored valid inside holds elsewhere detached dense small spec rfl rfl
    rw [Shard.published, ← seq] at stored
    refine ⟨_, _, _, rfl, granted, .inr ⟨?_, free, stored⟩⟩
    rw [← seq]
    exact congrArg (fun c : CellNode => (⟨.ok, some c.latestSeq⟩ : SimPublished)) same

end Moving

end Kith.Sim
