import Kith.Sim.Links

/-!
# Publishing an artifact

A publish stores the actor's state under the next sequence number of its cell: in
place, as a new artifact, or as one that moves between cells. A publish whose link
into the target cell is refused leaves every artifact stored and linked. This
module has the outcomes, the update in place and the insert.
-/

namespace Kith.Sim

open LinearProbe BackPointers SwapRemove Function List Option

section Outcomes

/-- The node that a publish into the cell finds or sets up. -/
def CellTable.target (t : CellTable) (key : CellKey) : CellNode :=
  (t.cell key).getD (CellNode.fresh key)

/-- The sequence number that the next publish into the cell gets. -/
def CellTable.nextSeq (t : CellTable) (key : CellKey) : UInt64 := (t.target key).latestSeq + 1

def Shard.published (sh : Shard) (key : ArtifactKey) (actor : Actor) : Artifact :=
  simFillArtifact key (sh.cells.nextSeq key.cell) actor

/-- The actor is in the cell already, or the count of the cell can take one more. -/
def Shard.Fits (sh : Shard) (key : CellKey) (id : UInt64) : Prop :=
  (sh.latest id).map (fun a => a.key.cell) = some key ∨ (sh.cells.members key).length + 1 < 2 ^ 32

structure Stored (sh : Shard) (key : ArtifactKey) (actor : Actor) (sh' : Shard) : Prop where
  valid : sh'.Valid
  artCount : sh'.artCount = sh.artCount + if (sh.latest actor.id).isSome then 0 else 1
  latest : sh'.latest = update sh.latest actor.id (some (sh.published key actor))

/-- The link into the target cell was refused: the target exists, the member lists are
`lists`, and nothing else that can be read has changed. -/
structure Bounced (sh : Shard) (key : CellKey) (lists : CellKey → List Nat) (sh' : Shard) :
    Prop where
  valid : sh'.Valid
  artCount : sh'.artCount = sh.artCount
  dense : sh'.actors.dense = sh.actors.dense
  art : ∀ i < sh.artCount, (sh'.arts i).art = (sh.arts i).art
  product : ∀ k, (sh'.cells.cell k).map simFillCellProduct =
    if k = key then some (simFillCellProduct (sh.cells.target key))
    else (sh.cells.cell k).map simFillCellProduct
  members : sh'.cells.members = lists

variable {sh sh' : Shard} {key : CellKey} {id : UInt64} {idx : Nat} {a : Artifact}

theorem target_members (t : CellTable) (key : CellKey) :
    (t.target key).members = t.members key := by
  rw [CellTable.target, CellTable.members]
  cases t.cell key with
  | none | some c => rfl

theorem Shard.Valid.target_counted (valid : sh.Valid) (key : CellKey) :
    (sh.cells.target key).Counted := by
  rw [CellTable.target]
  cases found : sh.cells.cell key with
  | none => exact ⟨rfl, le_rfl⟩
  | some c => exact valid.counted key c found

theorem fillArt_self (sh : Shard) (i : Nat) (a : Artifact) :
    (sh.fillArt i a).arts i = { sh.arts i with art := a } :=
  update_self ..

theorem fillArt_of_ne {i j : Nat} (other : j ≠ i) (a : Artifact) :
    (sh.fillArt i a).arts j = sh.arts j :=
  update_of_ne other ..

theorem latest_write (idx : Nat) (dense : sh'.actors.dense = update sh.actors.dense id (some idx))
    (own : (sh'.arts idx).art = a) (others : ∀ j, j ≠ idx → (sh'.arts j).art = (sh.arts j).art)
    (apart : ∀ id', id' ≠ id → sh.actors.dense id' ≠ some idx) :
    sh'.latest = update sh.latest id (some a) := by
  funext id'
  rw [Shard.latest, dense, update_apply, update_apply]
  split
  · rw [map_some, own]
  · rename_i other
    rw [Shard.latest]
    cases found : sh.actors.dense id' with
    | none => rfl
    | some j =>
      have elsewhere : j ≠ idx := by
        rintro rfl
        exact apart id' other found
      rw [map_some, map_some, others j elsewhere]

theorem Stored.rewrite {key : ArtifactKey} {actor : Actor} (valid : sh.Valid)
    (dense : sh.actors.dense actor.id = some idx) (tables : sh'.Tables sh.artCount)
    (artCount : sh'.artCount = sh.artCount) (actors : sh'.actors.dense = sh.actors.dense)
    (own : (sh'.arts idx).art = sh.published key actor)
    (others : ∀ j, j ≠ idx → (sh'.arts j).art = (sh.arts j).art)
    (linked : sh'.Linked (· < sh.artCount))
    (counted : ∀ k c, sh'.cells.cell k = some c → c.Counted) : Stored sh key actor sh' := by
  have owner := (valid.dense_iff.mp dense).2
  constructor
  · constructor
    · rw [artCount]
      exact tables
    · rw [artCount, actors]
      refine valid.actors.congr (fun _ => rfl) (fun _ => Iff.rfl) ?_
      intro j _
      by_cases same : j = idx
      · rw [same, Shard.actorAt, own]
        exact owner.symm
      · exact congrArg Artifact.actorId (others j same)
    · rw [artCount]
      exact linked
    · exact counted
  · rw [Shard.latest, isSome_map, dense]
    exact artCount
  · apply latest_write idx _ own others
    · intro id other there
      exact other ((valid.dense_iff.mp there).2.symm.trans owner)
    · rw [actors, ← dense]
      exact (update_eq_self ..).symm

theorem joined_counted {c : CellNode} {cap : Nat} (counted : c.Counted)
    (fits : c.members.length < cap) (small : c.members.length + 1 < 2 ^ 32) (epoch : UInt32) :
    ((c.push idx cap).advance epoch true).Counted := by
  have count := counted.actorCount
  constructor
  · change (c.actorCount + 1).toNat = (c.members ++ [idx]).length
    have one : (1 : UInt32).toNat = 1 := rfl
    rw [UInt32.toNat_add, one, length_append, length_singleton]
    omega
  · change (c.members ++ [idx]).length ≤ cap
    rw [length_append, length_singleton]
    omega

end Outcomes

section InPlace

variable {sh : Shard} {idx : Nat} {key : ArtifactKey} {actor : Actor}

theorem simPublishUpdate_same (valid : sh.Valid) (dense : sh.actors.dense actor.id = some idx)
    (here : sh.cellAt idx = key.cell) (heap : Heap SimSite) :
    ∃ sh', simPublishUpdate sh heap idx key actor =
        (⟨.ok, some (sh.cells.nextSeq key.cell)⟩, sh', heap) ∧ Stored sh key actor sh' := by
  obtain ⟨inside, own⟩ := valid.dense_iff.mp dense
  obtain ⟨c, found⟩ := valid.exists_cell inside
  rw [here] at found
  obtain ⟨i, looked, holds, rfl⟩ := valid.tables.cells.exists_holds found
  obtain ⟨after, written, _⟩ := valid.tables.cells.set
    (c := (sh.cells.nodes i).advance key.authorityEpoch false) holds holds.2.1 holds.2.2
  have counted := valid.counted _ _ found
  have seq : sh.cells.nextSeq key.cell = (sh.cells.nodes i).latestSeq + 1 := by
    rw [CellTable.nextSeq, CellTable.target, found, getD_some]
  have unfolded : simPublishUpdate sh heap idx key actor =
      (⟨.ok, some (sh.cells.nextSeq key.cell)⟩,
        (sh.setCell i ((sh.cells.nodes i).advance key.authorityEpoch false)).fillArt idx
          (sh.published key actor), heap) := by
    rw [Shard.published, seq, simPublishUpdate]
    rw [if_pos (show (sh.arts idx).art.key.cell = key.cell from here), looked]
    rfl
  refine ⟨_, unfolded, .rewrite valid dense ?_ rfl rfl ?_ ?_ ?_ ?_⟩
  · exact valid.tables.same_size rfl rfl rfl valid.tables.actors after
  · rw [fillArt_self]
  · intro j other
    rw [fillArt_of_ne other]
    rfl
  · refine valid.members.relist (members_rewrite written (members_of_cell found).symm)
      (fun _ => Iff.rfl) ?_
    intro j _
    rw [Shard.placeAt, Shard.cellAt]
    by_cases same : j = idx
    · rw [same, fillArt_self, Shard.placeAt, here]
      rfl
    · rw [fillArt_of_ne same]
      rfl
  · apply counted_update valid.counted written
    rintro _ ⟨⟩
    exact ⟨counted.actorCount, counted.capacity⟩

end InPlace

section Inserts

variable {sh sh' : Shard} {key : ArtifactKey} {actor : Actor} {actors : ActorTable}
    {cells : CellTable} {i : Nat}

/-- What an insert that is not refused does to the structures of the shard. -/
structure Inserted (sh : Shard) (key : ArtifactKey) (actor : Actor) (sh' : Shard) : Prop where
  tables : sh'.Tables (sh.artCount + 1)
  artCount : sh'.artCount = sh.artCount + 1
  dense : sh'.actors.dense = update sh.actors.dense actor.id (some sh.artCount)
  arts : sh'.arts = update sh.arts sh.artCount
    ⟨sh.published key actor, (sh.cells.members key.cell).length⟩
  cell : ∃ cap, (sh.cells.members key.cell).length < cap ∧
    sh'.cells.cell = update sh.cells.cell key.cell
      (some (((sh.cells.target key.cell).push sh.artCount cap).advance key.authorityEpoch true))
  buckets : sh'.cells.buckets = sh.cells.buckets
  loads : sh'.actors.tombstones ≤ sh.actors.tombstones ∧
    sh'.cells.tombstones ≤ sh.cells.tombstones ∧ sh'.cells.count ≤ sh.cells.count + 1

theorem Inserted.members (spec : Inserted sh key actor sh') :
    sh'.cells.members = update sh.cells.members key.cell
      (sh.cells.members key.cell ++ [sh.artCount]) := by
  obtain ⟨cap, _, written⟩ := spec.cell
  rw [members_update written, map_some, getD_some, ← target_members]
  rfl

theorem Inserted.stored (spec : Inserted sh key actor sh') (valid : sh.Valid)
    (absent : sh.actors.dense actor.id = none)
    (small : (sh.cells.members key.cell).length + 1 < 2 ^ 32) : Stored sh key actor sh' := by
  have elements : ∀ j, j < sh.artCount + 1 ↔ j = sh.artCount ∨ j < sh.artCount := by
    intro j
    omega
  constructor
  · constructor
    · rw [spec.artCount]
      exact spec.tables
    · rw [spec.artCount, spec.dense]
      refine (valid.actors.insert absent (Nat.lt_irrefl _)).congr (fun _ => rfl) elements ?_
      intro j _
      rw [Shard.actorAt, spec.arts, update_apply, update_apply]
      split
      · rfl
      · rfl
    · rw [Shard.Linked, spec.artCount, spec.members]
      refine (valid.members.push key.cell (Nat.lt_irrefl _)).congr (fun _ => rfl) elements ?_
      intro j _
      rw [Shard.placeAt, Shard.cellAt, spec.arts, update_apply, update_apply]
      split
      · rfl
      · rfl
    · obtain ⟨cap, fits, written⟩ := spec.cell
      apply counted_update valid.counted written
      rintro _ ⟨⟩
      rw [← target_members] at fits small
      exact joined_counted (valid.target_counted _) fits small _
  · rw [Shard.latest, isSome_map, absent]
    exact spec.artCount
  · apply latest_write _ spec.dense
    · rw [spec.arts, update_self]
    · intro j other
      rw [spec.arts, update_of_ne other]
    · intro id _ there
      exact absurd (valid.dense_iff.mp there).1 (Nat.lt_irrefl _)

theorem bounced_of_restored {key : CellKey} (valid : sh.Valid)
    (spec : FindOrCreateSpec sh.cells key i cells) (restored : actors.Valid sh.artCount)
    (buckets : actors.buckets = sh.actors.buckets) (same : actors.dense = sh.actors.dense) :
    Bounced sh key sh.cells.members { sh with actors := actors, cells := cells } := by
  constructor
  · constructor
    · exact valid.tables.same_size spec.buckets rfl buckets restored spec.valid
    · exact valid.actors.congr (fun id => congrFun same id) (fun _ => Iff.rfl) fun _ _ => rfl
    · exact valid.members.relist (members_findOrCreate spec) (fun _ => Iff.rfl) fun _ _ => rfl
    · apply counted_update valid.counted spec.cell
      rintro _ ⟨⟩
      exact valid.target_counted key
  · rfl
  · exact same
  · exact fun _ _ => rfl
  · intro k
    rw [spec.cell, update_apply]
    split
    · rfl
    · rfl
  · exact members_findOrCreate spec

theorem inserted_of_append {c : CellNode} (valid : sh.Valid)
    (actorsValid : actors.Valid (sh.artCount + 1))
    (actorBuckets : actors.buckets = sh.actors.buckets)
    (dense : actors.dense = update sh.actors.dense actor.id (some sh.artCount))
    (tombstones : actors.tombstones ≤ sh.actors.tombstones)
    (spec : FindOrCreateSpec sh.cells key.cell i cells)
    (linked : AppendSpec { sh with actors := actors, cells := cells } key.cell i sh.artCount sh')
    (advanced : c = (sh'.cells.nodes i).advance key.authorityEpoch true) :
    c.latestSeq = sh.cells.nextSeq key.cell ∧
      Inserted sh key actor { (sh'.setCell i c).fillArt sh.artCount (sh.published key actor) with
        artCount := sh'.artCount + 1 } := by
  obtain ⟨cap, fits, pushed⟩ := linked.node
  obtain ⟨artCount, artCap, sameActors, count, tombs⟩ := linked.frame
  have node : cells.nodes i = sh.cells.target key.cell := spec.node
  rw [node] at fits pushed
  have holds := linked.kept _ _ spec.holds
  obtain ⟨after, written, _⟩ := linked.cells.set (c := c) holds (by rw [advanced]; exact holds.2.1)
    (by rw [advanced]; exact holds.2.2)
  have buckets : sh'.cells.buckets = sh.cells.buckets := linked.buckets.trans spec.buckets
  refine ⟨?_, ?_⟩
  · rw [advanced, pushed]
    rfl
  constructor
  · refine valid.tables.same_size buckets artCap ?_ ?_ after
    · exact (congrArg ActorTable.buckets sameActors).trans actorBuckets
    · exact sameActors ▸ actorsValid
  · exact congrArg (· + 1) artCount
  · change sh'.actors.dense = _
    rw [sameActors, dense]
  · change update sh'.arts sh.artCount { sh'.arts sh.artCount with art := _ } = _
    rw [linked.arts, update_self, update_idem]
    rw [node, target_members]
  · rw [target_members] at fits
    refine ⟨cap, fits, ?_⟩
    change (sh'.cells.set i _).cell = _
    rw [written, linked.cell, spec.cell, update_idem, update_idem, advanced, pushed]
  · exact buckets
  · change sh'.actors.tombstones ≤ _ ∧ sh'.cells.tombstones ≤ _ ∧ sh'.cells.count ≤ _
    rw [sameActors, count, tombs]
    exact ⟨tombstones, spec.count.2, spec.count.1⟩

theorem simPublishInsert_spec (key : ArtifactKey) (valid : sh.Valid)
    (absent : sh.actors.dense actor.id = none)
    (actorRoom : sh.artCount + sh.actors.tombstones < sh.actors.buckets)
    (space : sh.artCount < sh.artCap)
    (cellRoom : sh.cells.count + sh.cells.tombstones < sh.cells.buckets) (heap : Heap SimSite)
    {total : Nat} (bound : total + 1 < 2 ^ 64) :
    ∃ published total' sh' heap',
      simPublishInsert total sh heap key actor = (published, total', sh', heap') ∧
      heap'.grant = heap.grant ∧
      (published = ⟨.err .enomem, none⟩ ∧ total' = total ∧
          (sh.cells.target key.cell).Stuck heap ∧ Bounced sh key.cell sh.cells.members sh' ∨
        published = ⟨.ok, some (sh.cells.nextSeq key.cell)⟩ ∧ total' = total + 1 ∧
          ¬ (sh.cells.target key.cell).Stuck heap ∧ Inserted sh key actor sh') := by
  obtain ⟨actors, inserted, actorsValid, actorBuckets, dense, actorTombs⟩ :=
    simActorInsert_spec valid.tables.actors absent space actorRoom
  obtain ⟨i, cells, created, spec⟩ :=
    simCellFindOrCreate_spec valid.tables.cells cellRoom key.cell
  have node : cells.nodes i = sh.cells.target key.cell := spec.node
  have capacity := (valid.target_counted key.cell).capacity
  rw [← node] at capacity
  obtain ⟨rc, sh₁, heap', appended, granted, outcome⟩ := simCellMemberAppend_spec
    { sh with actors := actors, cells := cells } spec.valid spec.holds capacity heap sh.artCount
  rw [node] at outcome
  rw [simPublishInsert, inserted]
  rw [created]
  dsimp only
  rw [appended]
  rcases outcome with ⟨rfl, rfl, stuck⟩ | ⟨rfl, free, linked⟩
  · -- The hash entry is taken back.
    have hashed : actors.dense actor.id = some sh.artCount := by
      rw [dense, update_self]
    obtain ⟨slot, probed, _⟩ := exists_probe hashed
    have holds := actorsValid.probe_iff.mp probed
    obtain ⟨restored, _, buckets, erased⟩ := simActorMarkTombstone_spec actorsValid holds
    have same : (simActorMarkTombstone actors slot).dense = sh.actors.dense := by
      rw [erased, dense, update_idem, ← absent, update_eq_self]
    dsimp only
    rw [probed]
    exact ⟨_, _, _, _, rfl, granted, .inl ⟨rfl, rfl, stuck,
      bounced_of_restored valid spec restored (buckets.trans actorBuckets) same⟩⟩
  · obtain ⟨seq, insertion⟩ :=
      inserted_of_append valid actorsValid actorBuckets dense actorTombs spec linked rfl
    dsimp only
    rw [if_neg (by omega), seq]
    exact ⟨_, _, _, _, rfl, granted, .inr ⟨rfl, rfl, free, insertion⟩⟩

end Inserts

end Kith.Sim
