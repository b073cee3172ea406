import Kith.Sim.Move
import Kith.Sim.Remove
import Kith.Sim.Zone
import Mathlib.Algebra.BigOperators.Fin
import Mathlib.Algebra.Order.BigOperators.Group.Finset

/-!
# The calls of the artifact store

A valid store has valid shards and counts their artifacts. Each call changes one
shard; what it can do there is one of a few outcomes.
-/

namespace Kith.Sim

open LinearProbe BackPointers SwapRemove Function List Option

section Stores

abbrev ArtifactStore.shardOf (s : ArtifactStore) (key : CellKey) : Shard :=
  s.shards (simShardFor key.zone)

/-- Valid shards, each with the artifacts of its own zones, and an exact count. -/
structure ArtifactStore.Valid (s : ArtifactStore) : Prop where
  shard : ∀ j, (s.shards j).Valid
  home : ∀ j id a, (s.shards j).latest id = some a → simShardFor a.key.cell.zone = j
  total : s.totalCount = ∑ j, (s.shards j).artCount

variable {s : ArtifactStore} {j : Fin 16} {sh : Shard}

theorem Shard.Valid.artCount_le (valid : sh.Valid) : sh.artCount ≤ 2 ^ 57 := by
  have loads := valid.tables.loads.1
  have bounds := valid.tables.buckets_bounds.2
  omega

theorem ArtifactStore.Valid.artCount_le (valid : s.Valid) (j : Fin 16) :
    (s.shards j).artCount ≤ s.totalCount := by
  rw [valid.total]
  exact Finset.single_le_sum (f := fun j => (s.shards j).artCount) (fun _ _ => Nat.zero_le _)
    (Finset.mem_univ j)

theorem ArtifactStore.Valid.total_lt (valid : s.Valid) : s.totalCount + 1 < 2 ^ 64 := by
  have bound : ∑ j, (s.shards j).artCount ≤ Finset.univ.card • 2 ^ 57 :=
    Finset.sum_le_card_nsmul Finset.univ _ _ fun j _ => (valid.shard j).artCount_le
  rw [valid.total]
  simp only [Finset.card_univ, Fintype.card_fin, smul_eq_mul] at bound
  omega

theorem ArtifactStore.Valid.setShard (valid : s.Valid) (valid' : sh.Valid)
    (home : ∀ id a, sh.latest id = some a → simShardFor a.key.cell.zone = j) {total : Nat}
    (count : total + (s.shards j).artCount = s.totalCount + sh.artCount) :
    ArtifactStore.Valid { s.setShard j sh with totalCount := total } := by
  have moved := routed_sum Shard.artCount s.shards j sh
  rw [← valid.total] at moved
  refine ⟨routed_each valid.shard valid' j, ?_, ?_⟩
  · intro k id a found
    change (update s.shards j sh k).latest id = some a at found
    rw [update_apply] at found
    split at found
    · rename_i same
      exact (home id a found).trans same.symm
    · exact valid.home k id a found
  · simp only [ArtifactStore.setShard]
    omega

theorem setShard_shards (s : ArtifactStore) (j k : Fin 16) (sh : Shard) :
    (s.setShard j sh).shards k = if k = j then sh else s.shards k :=
  update_apply ..

theorem setShard_self (s : ArtifactStore) (j : Fin 16) : s.setShard j (s.shards j) = s := by
  rw [ArtifactStore.setShard, update_eq_self]

end Stores

section DenseIndex

variable {sh : Shard} {id : UInt64}

theorem simActorDenseIndex_of_some {idx : Nat} (valid : sh.Valid)
    (found : sh.actors.dense id = some idx) :
    simActorDenseIndex sh.actors id = idx ∧ idx ≠ sizeMax := by
  obtain ⟨slot, probed, here⟩ := exists_probe found
  have inside := (valid.dense_iff.mp found).1
  have bound := valid.artCount_le
  rw [simActorDenseIndex, probed, sizeMax]
  exact ⟨here, by omega⟩

end DenseIndex

section Publish

variable {s : ArtifactStore} {sh sh₁ sh' : Shard} {key : ArtifactKey} {actor : Actor}
    {lists : CellKey → List Nat} {id : UInt64} {heap₁ : Heap SimSite} {total : Nat}
  {heap : Heap SimSite}

theorem Shard.Regrown.target (same : sh.Regrown sh₁) (key : CellKey) :
    sh₁.cells.target key = sh.cells.target key := by
  rw [CellTable.target, same.cell]
  rfl

theorem Stored.of_regrown (valid : sh.Valid) (same : sh.Regrown sh₁)
    (stored : Stored sh₁ key actor sh') : Stored sh key actor sh' := by
  have artCount := stored.artCount
  have latest := stored.latest
  rw [same.latest valid] at artCount latest
  refine ⟨stored.valid, ?_, ?_⟩
  · rw [artCount, same.artCount]
  · rw [latest, Shard.published, Shard.published, CellTable.nextSeq, CellTable.nextSeq, same.target]

theorem Bounced.of_regrown {key : CellKey} (same : sh.Regrown sh₁)
    (bounced : Bounced sh₁ key lists sh') : Bounced sh key lists sh' := by
  refine ⟨bounced.valid, ?_, ?_, ?_, ?_, bounced.members⟩
  · rw [bounced.artCount, same.artCount]
  · rw [bounced.dense, same.dense]
  · intro i inside
    rw [bounced.art i (by rw [same.artCount]; exact inside), same.arts i inside]
  · intro k
    rw [bounced.product, same.target, same.cell]

/-- The member lists after a refused link: the artifact of an actor that was to move is
at the end of the list it was in. -/
def Shard.relinked (sh : Shard) (id : UInt64) : CellKey → List Nat :=
  match sh.actors.dense id with
  | none => sh.cells.members
  | some idx => update sh.cells.members (sh.cellAt idx)
      (swapRemove (sh.cells.members (sh.cellAt idx)) (sh.arts idx).memberSlot ++ [idx])

/-- The publish gets as far as linking the artifact into the target cell, whose list is
full and not granted a longer one. -/
def ArtifactStore.LinkRefused (s : ArtifactStore) (heap : Heap SimSite) (key : CellKey)
    (id : UInt64) : Prop :=
  ∃ sh₁ heap₁, simShardEnsurePublishCapacity (s.shards (simShardFor key.zone)) heap
      (simActorDenseIndex (s.shards (simShardFor key.zone)).actors id = sizeMax) =
        some (.ok, sh₁, heap₁) ∧
    ((s.shards (simShardFor key.zone)).latest id).map (fun a => a.key.cell) ≠ some key ∧
    ((s.shards (simShardFor key.zone)).cells.target key).Stuck heap₁

structure Refused (s : ArtifactStore) (heap : Heap SimSite) (key : CellKey) (id : UInt64)
    (published : SimPublished) (s' : ArtifactStore) : Prop where
  reply : published = ⟨.err .enomem, none⟩
  state : s' = s
  link : ¬ s.LinkRefused heap key id
  cause : (s.shards (simShardFor key.zone)).cells.buckets = 2 ^ 57 ∨ Refuses heap

structure Unlinked (s : ArtifactStore) (heap : Heap SimSite) (key : CellKey) (id : UInt64)
    (published : SimPublished) (s' : ArtifactStore) : Prop where
  reply : published = ⟨.err .enomem, none⟩
  link : s.LinkRefused heap key id
  cause : Refuses heap
  state : ∃ sh', s' = s.setShard (simShardFor key.zone) sh' ∧
    Bounced (s.shards (simShardFor key.zone)) key
      ((s.shards (simShardFor key.zone)).relinked id) sh'

/-- A publish returns; it is refused, left unlinked or done. -/
def Publishes (s : ArtifactStore) (heap : Heap SimSite) (key : ArtifactKey) (actor : Actor)
    (done : SimPublished → ArtifactStore → Prop) : Prop :=
  ∃ published s' heap', simStorePublish s heap key actor = some (published, s', heap') ∧
    heap'.grant = heap.grant ∧ (Refused s heap key.cell actor.id published s' ∨
      Unlinked s heap key.cell actor.id published s' ∨ done published s')

theorem Publishes.mono {P Q : SimPublished → ArtifactStore → Prop}
    (publishes : Publishes s heap key actor P) (weaker : ∀ r s', P r s' → Q r s') :
    Publishes s heap key actor Q := by
  obtain ⟨published, s', heap', stepped, granted, outcome⟩ := publishes
  exact ⟨published, s', heap', stepped, granted, outcome.imp_right (·.imp_right (weaker _ _))⟩

theorem Shard.Regrown.relinked (valid : sh.Valid) (same : sh.Regrown sh₁) (id : UInt64) :
    sh₁.relinked id = sh.relinked id := by
  rw [Shard.relinked, Shard.relinked, same.dense]
  cases found : sh.actors.dense id with
  | none => exact members_congr same.cell
  | some idx =>
    have entry := same.arts idx (valid.dense_iff.mp found).1
    dsimp only
    rw [members_congr same.cell, Shard.cellAt, entry]
    rfl

theorem linkRefused_iff {key : CellKey} {mayAddActor : Bool} {rc : Rc}
    (may : decide (simActorDenseIndex (s.shardOf key).actors id = sizeMax) =
      mayAddActor)
    (ensured : simShardEnsurePublishCapacity (s.shardOf key) heap mayAddActor =
      some (rc, sh₁, heap₁)) :
    s.LinkRefused heap key id ↔ rc = .ok ∧
      ((s.shardOf key).latest id).map (fun a => a.key.cell) ≠ some key ∧
      ((s.shardOf key).cells.target key).Stuck heap₁ := by
  rw [ArtifactStore.LinkRefused, may, ensured]
  constructor
  · rintro ⟨_, _, ⟨⟩, apart, stuck⟩
    exact ⟨rfl, apart, stuck⟩
  · rintro ⟨rfl, apart, stuck⟩
    exact ⟨sh₁, heap₁, rfl, apart, stuck⟩

theorem Unlinked.of_bounced {key : CellKey} {c : CellNode} (valid : s.Valid)
    (same : (s.shardOf key).Regrown sh₁) (granted : heap₁.grant = heap.grant)
    (link : s.LinkRefused heap key id) (stuck : c.Stuck heap₁)
    (bounced : Bounced sh₁ key (sh₁.relinked id) sh') :
    Unlinked s heap key id ⟨.err .enomem, none⟩ (s.setShard (simShardFor key.zone) sh') := by
  refine ⟨rfl, link, ⟨.members, heap₁.calls, ?_⟩, sh', rfl, ?_⟩
  · rw [← granted]
    exact stuck.2
  · rw [← same.relinked (valid.shard _)]
    exact bounced.of_regrown same

theorem simStorePublish_absent (key : ArtifactKey) (actor : Actor) (valid : s.Valid)
    (absent : (s.shardOf key.cell).actors.dense actor.id = none) (heap : Heap SimSite) :
    Publishes s heap key actor fun published s' =>
      published = ⟨.ok, some ((s.shardOf key.cell).cells.nextSeq key.cell)⟩ ∧
        ¬ s.LinkRefused heap key.cell actor.id ∧
        ∃ sh₁ sh', EnsureSpec (s.shardOf key.cell) true sh₁ ∧ Inserted sh₁ key actor sh' ∧
          s' = { s.setShard (simShardFor key.cell.zone) sh' with
            totalCount := s.totalCount + 1 } := by
  have dense : simActorDenseIndex (s.shardOf key.cell).actors actor.id = sizeMax := by
    rw [simActorDenseIndex, simActorProbe_eq_none.mpr absent]
  have validShard := valid.shard (simShardFor key.cell.zone)
  obtain ⟨rc, sh₁, heap₁, ensured, granted, outcome⟩ :=
    simShardEnsurePublishCapacity_spec validShard.tables heap true
  have refused_iff := linkRefused_iff (decide_eq_true dense) ensured
  have missing : (s.shardOf key.cell).latest actor.id = none := by
    rw [Shard.latest, absent]
    rfl
  rw [Publishes, simStorePublish, dense, decide_eq_true rfl, ensured, map_some]
  dsimp only
  rcases outcome with ⟨rfl, rfl, cause⟩ | ⟨rfl, spec⟩
  · refine ⟨_, _, _, rfl, granted, .inl ⟨rfl, setShard_self .., ?_, cause⟩⟩
    rw [refused_iff]
    rintro ⟨⟨⟩, _⟩
  · obtain ⟨actorRoom, space⟩ := spec.actorRoom rfl
    have absent₁ : sh₁.actors.dense actor.id = none := by
      rw [spec.same.dense]
      exact absent
    rw [← spec.same.artCount] at actorRoom space
    obtain ⟨published, total', sh', heap', inserted, granted', outcome⟩ := simPublishInsert_spec key
      (spec.same.valid validShard) absent₁ actorRoom space spec.cellRoom heap₁ valid.total_lt
    rw [if_neg (fun other => other rfl), inserted]
    refine ⟨_, _, _, rfl, granted'.trans granted, .inr ?_⟩
    rw [spec.same.target] at outcome
    rcases outcome with ⟨rfl, rfl, stuck, bounced⟩ | ⟨rfl, rfl, free, new⟩
    · have lists : sh₁.relinked actor.id = sh₁.cells.members := by rw [Shard.relinked, absent₁]
      rw [← lists] at bounced
      exact .inl (.of_bounced valid spec.same granted
        (refused_iff.mpr ⟨rfl, by rw [missing]; simp, stuck⟩) stuck bounced)
    · refine .inr ⟨?_, fun link => free (refused_iff.mp link).2.2, sh₁, sh', spec, new, rfl⟩
      rw [CellTable.nextSeq, spec.same.target]
      rfl

theorem simStorePublish_present {idx : Nat} (valid : s.Valid)
    (found : (s.shardOf key.cell).actors.dense actor.id = some idx)
    (fits : (s.shardOf key.cell).Fits key.cell actor.id) (heap : Heap SimSite) :
    Publishes s heap key actor fun published s' =>
      published = ⟨.ok, some ((s.shardOf key.cell).cells.nextSeq key.cell)⟩ ∧
        ¬ s.LinkRefused heap key.cell actor.id ∧
        ∃ sh', Stored (s.shardOf key.cell) key actor sh' ∧
          s' = s.setShard (simShardFor key.cell.zone) sh' := by
  have validShard := valid.shard (simShardFor key.cell.zone)
  obtain ⟨dense, other⟩ := simActorDenseIndex_of_some validShard found
  obtain ⟨rc, sh₁, heap₁, ensured, granted, outcome⟩ :=
    simShardEnsurePublishCapacity_spec validShard.tables heap false
  have refused_iff := linkRefused_iff (decide_eq_false (dense ▸ other)) ensured
  rw [Publishes, simStorePublish, dense, decide_eq_false other, ensured, map_some]
  dsimp only
  rcases outcome with ⟨rfl, rfl, cause⟩ | ⟨rfl, spec⟩
  · refine ⟨_, _, _, rfl, granted, .inl ⟨rfl, setShard_self .., ?_, cause⟩⟩
    rw [refused_iff]
    rintro ⟨⟨⟩, _⟩
  have valid₁ := spec.same.valid validShard
  have found₁ : sh₁.actors.dense actor.id = some idx := by
    rw [spec.same.dense]
    exact found
  have there : ((s.shardOf key.cell).latest actor.id).map (fun a => a.key.cell) =
      some (sh₁.cellAt idx) := by
    rw [← spec.same.latest validShard, Shard.latest, found₁]
    rfl
  have seq : sh₁.cells.nextSeq key.cell =
      (s.shardOf key.cell).cells.nextSeq key.cell := by
    rw [CellTable.nextSeq, spec.same.target]
    rfl
  rw [there] at refused_iff
  rw [if_pos other]
  by_cases here : sh₁.cellAt idx = key.cell
  · obtain ⟨sh', updated, stored⟩ := simPublishUpdate_same valid₁ found₁ here heap₁
    rw [updated, seq]
    refine ⟨_, _, _, rfl, granted,
      .inr (.inr ⟨rfl, ?_, sh', stored.of_regrown validShard spec.same, rfl⟩)⟩
    intro link
    exact (refused_iff.mp link).2.1 (congrArg some here)
  · have apart : some (sh₁.cellAt idx) ≠ some key.cell := fun same => here (some.inj same)
    have small : (sh₁.cells.members key.cell).length + 1 < 2 ^ 32 := by
      rw [members_congr spec.same.cell]
      exact fits.resolve_left (there ▸ apart)
    obtain ⟨published, sh', heap', moved, granted', outcome⟩ :=
      simPublishMove_spec valid₁ found₁ here spec.cellRoom small heap₁
    rw [simPublishUpdate, if_neg (show ¬ (sh₁.arts idx).art.key.cell = key.cell from here), moved]
    refine ⟨_, _, _, rfl, granted'.trans granted, .inr ?_⟩
    rw [spec.same.target, seq] at outcome
    rcases outcome with ⟨rfl, stuck, bounced⟩ | ⟨rfl, free, stored⟩
    · have lists : sh₁.relinked actor.id = update sh₁.cells.members (sh₁.cellAt idx)
          (swapRemove (sh₁.cells.members (sh₁.cellAt idx)) (sh₁.arts idx).memberSlot ++ [idx]) := by
        rw [Shard.relinked, found₁]
      rw [← lists] at bounced
      exact .inl (.of_bounced valid spec.same granted (refused_iff.mpr ⟨rfl, apart, stuck⟩) stuck
        bounced)
    · exact .inr ⟨rfl, fun link => free (refused_iff.mp link).2.2, sh',
        stored.of_regrown validShard spec.same, rfl⟩

structure Accepted (s : ArtifactStore) (heap : Heap SimSite) (key : ArtifactKey) (actor : Actor)
    (published : SimPublished) (s' : ArtifactStore) : Prop where
  reply : published =
    ⟨.ok, some ((s.shards (simShardFor key.cell.zone)).cells.nextSeq key.cell)⟩
  link : ¬ s.LinkRefused heap key.cell actor.id
  valid : s'.Valid
  latest : ∀ j, (s'.shards j).latest = if j = simShardFor key.cell.zone then
      update (s.shards j).latest actor.id (some ((s.shards j).published key actor))
    else (s.shards j).latest

theorem Stored.store_valid {j : Fin 16} (valid : s.Valid)
    (stored : Stored (s.shards j) key actor sh') (home : simShardFor key.cell.zone = j)
    (count : total = s.totalCount + if ((s.shards j).latest actor.id).isSome then 0 else 1) :
    ArtifactStore.Valid { s.setShard j sh' with totalCount := total } := by
  apply valid.setShard stored.valid
  · intro id a found
    rw [stored.latest, update_apply] at found
    split at found
    · cases found
      exact home
    · exact valid.home j id a found
  · rw [count, stored.artCount]
    omega

theorem Stored.accepted (valid : s.Valid) (link : ¬ s.LinkRefused heap key.cell actor.id)
    (stored : Stored (s.shardOf key.cell) key actor sh')
    (count : total = s.totalCount + if ((s.shardOf key.cell).latest
      actor.id).isSome then 0 else 1) :
    Accepted s heap key actor
      ⟨.ok, some ((s.shardOf key.cell).cells.nextSeq key.cell)⟩
      { s.setShard (simShardFor key.cell.zone) sh' with totalCount := total } := by
  refine ⟨rfl, link, stored.store_valid valid rfl count, ?_⟩
  · intro j
    change (update s.shards _ sh' j).latest = _
    rw [update_apply]
    split
    · rename_i same
      rw [same]
      exact stored.latest
    · rfl

theorem simStorePublish_spec (valid : s.Valid)
    (fits : (s.shardOf key.cell).Fits key.cell actor.id) (heap : Heap SimSite) :
    Publishes s heap key actor (Accepted s heap key actor) := by
  have validShard := valid.shard (simShardFor key.cell.zone)
  cases found : (s.shardOf key.cell).actors.dense actor.id with
  | none =>
    have missing : (s.shardOf key.cell).latest actor.id = none := by
      rw [Shard.latest, found]
      rfl
    have small := fits.resolve_left (by rw [missing]; simp)
    refine (simStorePublish_absent key actor valid found heap).mono ?_
    rintro _ _ ⟨rfl, free, sh₁, sh', spec, new, rfl⟩
    have stored := new.stored (spec.same.valid validShard)
      (by rw [spec.same.dense]; exact found) (by rw [members_congr spec.same.cell]; exact small)
    refine (stored.of_regrown validShard spec.same).accepted valid free ?_
    rw [missing]
    rfl
  | some idx =>
    refine (simStorePublish_present valid found fits heap).mono ?_
    rintro _ _ ⟨rfl, free, sh', stored, rfl⟩
    refine stored.accepted valid free ?_
    rw [Shard.latest, found]
    rfl

theorem Bounced.latest {key : CellKey} (bounced : Bounced sh key lists sh') (valid : sh.Valid) :
    sh'.latest = sh.latest := by
  funext id
  rw [Shard.latest, bounced.dense, Shard.latest]
  cases found : sh.actors.dense id with
  | none => rfl
  | some i => rw [map_some, map_some, bounced.art i (valid.dense_iff.mp found).1]

theorem Unlinked.kept {key : CellKey} {published : SimPublished} {s' : ArtifactStore}
    (unlinked : Unlinked s heap key id published s') (valid : s.Valid) :
    s'.Valid ∧ ∀ j, (s'.shards j).latest = (s.shards j).latest := by
  obtain ⟨sh', rfl, bounced⟩ := unlinked.state
  have latest := bounced.latest (valid.shard _)
  constructor
  · refine valid.setShard bounced.valid ?_ (by rw [bounced.artCount])
    intro id a found
    rw [latest] at found
    exact valid.home _ id a found
  · intro j
    rw [setShard_shards]
    split
    · rename_i same
      rw [same]
      exact latest
    · rfl

end Publish

section Removals

variable {s : ArtifactStore} {id : UInt64}

/-- The first shard that holds the actor. -/
def ArtifactStore.holder (s : ArtifactStore) (id : UInt64) : Option (Fin 16) :=
  (List.finRange 16).find? fun j => ((s.shards j).latest id).isSome

theorem isSome_simActorProbe (sh : Shard) (id : UInt64) :
    (simActorProbe sh.actors id).isSome = (sh.latest id).isSome := by
  rw [Shard.latest, isSome_map]
  cases probed : simActorProbe sh.actors id with
  | none => rw [simActorProbe_eq_none.mp probed]
  | some slot =>
    rw [dense_of_probe probed]
    rfl

theorem simStoreRemoveActor_spec (valid : s.Valid) (id : UInt64) :
    ∃ s', simStoreRemoveActor s id = (.ok, s') ∧ s'.Valid ∧
      ∀ j, (s'.shards j).latest = if s.holder id = some j then
          update (s.shards j).latest id none
        else (s.shards j).latest := by
  have search : (finRange 16).find? (fun j => (simActorProbe (s.shards j).actors id).isSome) =
      s.holder id := by
    rw [ArtifactStore.holder]
    simp only [isSome_simActorProbe]
  rw [simStoreRemoveActor, search]
  cases held : s.holder id with
  | none => exact ⟨s, rfl, valid, fun j => rfl⟩
  | some j =>
    have some_there := find?_some held
    rw [← isSome_simActorProbe] at some_there
    obtain ⟨slot, probed⟩ := isSome_iff_exists.mp some_there
    have removed := simRemoveSlot_spec (valid.shard j) probed
    have count := removed.artCount
    have bound := valid.artCount_le j
    dsimp only
    rw [probed]
    dsimp only
    refine ⟨_, rfl, valid.setShard removed.valid ?_ ?_, ?_⟩
    · intro id' a found
      rw [removed.latest, update_apply] at found
      split at found
      · cases found
      · exact valid.home j id' a found
    · split <;> omega
    · intro k
      rw [setShard_shards]
      by_cases same : k = j
      · rw [if_pos same, if_pos (by rw [same]), same]
        exact removed.latest
      · rw [if_neg same, if_neg fun here => same (some.inj here).symm]

/-- A zone removal that is not refused takes the artifacts of the zone; one that is leaves a
cell with fewer members than it had. -/
theorem simStoreRemoveZone_spec (valid : s.Valid) (heap : Heap SimSite) (zone : UInt32) :
    ∃ rc s' heap', simStoreRemoveZone s heap zone = (rc, s', heap') ∧ heap'.grant = heap.grant ∧
      (rc = .ok ∧ s'.Valid ∧
          (∀ j id, (s'.shards j).latest id = if j = simShardFor zone then
            ((s.shards j).latest id).filter fun a => a.key.cell.zone ≠ zone
          else (s.shards j).latest id) ∨
        rc = .err .enomem ∧ Refuses heap ∧
          ∃ key, ((s'.shardOf key).cells.members key).length <
            ((s.shardOf key).cells.members key).length) := by
  have validShard := valid.shard (simShardFor zone)
  obtain ⟨total, rc, sh', heap', rebuilt, granted, outcome⟩ := simShardRebuildCellMembers_swept
    validShard (valid.artCount_le _) zone heap rfl
  rw [simStoreRemoveZone]
  dsimp only
  rw [rebuilt]
  refine ⟨_, _, _, rfl, granted, ?_⟩
  rcases outcome with ⟨rfl, removed⟩ | ⟨rfl, refused, key, fewer⟩
  · refine .inl ⟨rfl, valid.setShard removed.valid ?_ ?_, ?_⟩
    · intro id a found
      rw [removed.latest, filter_eq_some_iff] at found
      exact valid.home _ id a found.1
    · rw [removed.artCount]
      exact total
    · intro j id
      rw [setShard_shards]
      split
      · rename_i same
        rw [same]
        exact removed.latest id
      · rfl
  · refine .inr ⟨rfl, refused, key, ?_⟩
    -- The shortened list has a member, whose zone is of this shard.
    obtain ⟨i, member⟩ := exists_mem_of_length_pos (Nat.zero_lt_of_lt fewer)
    obtain ⟨inside, here⟩ := validShard.mem_members.mp member
    have home : simShardFor key.zone = simShardFor zone := by
      rw [← here]
      exact valid.home _ _ _ (validShard.latest_iff.mpr ⟨i, inside, rfl, rfl⟩)
    dsimp only [ArtifactStore.shardOf]
    rw [home, setShard_shards, if_pos rfl]
    exact fewer

end Removals

section Creation

variable {s : ArtifactStore} {heap heap' : Heap SimSite}

theorem simShardInit_valid {b : Nat} (low : 4 ≤ b) (high : b ≤ 57) :
    (simShardInit (2 ^ b)).Valid ∧ (simShardInit (2 ^ b)).latest = fun _ => none := by
  have cells : (simShardInit (2 ^ b)).cells.Valid := Counted.empty b fun _ _ => rfl
  have actors : (simShardInit (2 ^ b)).actors.Valid 0 := Counted.empty b fun _ _ => rfl
  have noCell : ∀ key, (simShardInit (2 ^ b)).cells.cell key = none := fun key =>
    congrFun (entry_empty (fun _ _ => rfl) rfl) key
  have noActor : ∀ id, (simShardInit (2 ^ b)).actors.dense id = none := fun id =>
    map_eq_none_iff.mpr (congrFun (entry_empty (fun _ _ => rfl) rfl) id)
  refine ⟨⟨⟨⟨b, rfl, low, high⟩, rfl, rfl, actors, cells⟩, ?_, ?_, ?_⟩, ?_⟩
  · exact (Indexed.nothing (simShardInit (2 ^ b)).actorAt).congr noActor
      (fun i => iff_of_false (Nat.not_lt_zero i) id) fun _ _ => rfl
  · refine (Indexed.nothing (simShardInit (2 ^ b)).placeAt).congr ?_
      (fun i => iff_of_false (Nat.not_lt_zero i) id) fun _ _ => rfl
    intro p
    rw [listed, members_of_none (noCell _)]
    rfl
  · intro key c found
    rw [noCell] at found
    cases found
  · funext id
    rw [Shard.latest, noActor]
    rfl

theorem grant_simShardsInit (heap : Heap SimSite) (buckets n : Nat) :
    (simShardsInit heap buckets n).2.grant = heap.grant := by
  induction n generalizing heap with
  | zero => rfl
  | succ n ih =>
    have first := (simRequestTables_spec heap buckets [104, 8, 1, 8, 1, 64]).1
    rw [simShardsInit]
    split
    · rename_i asked
      rw [asked] at first
      exact first
    · rename_i asked
      rw [asked] at first
      exact (ih _).trans first

theorem simStoreCreate_inv {bucketCount : UInt32}
    (created : simStoreCreate heap bucketCount = some (.ok s, heap')) :
    heap'.grant = heap.grant ∧ ∃ b, 4 ≤ b ∧ b ≤ 57 ∧ s = ⟨fun _ => simShardInit (2 ^ b), 0⟩ := by
  obtain ⟨rounded, found, made⟩ := map_eq_some_iff.mp created
  obtain ⟨k, inside, size⟩ := nextPow2Loop_pow found
  obtain ⟨b, low, high, buckets⟩ : ∃ b, 4 ≤ b ∧ b ≤ 57 ∧
      (if rounded < 16 then (16 : UInt32) else rounded).toNat = 2 ^ b := by
    split
    · exact ⟨4, by omega, by omega, rfl⟩
    · rename_i large
      have least : 16 ≤ rounded.toNat := by
        rw [UInt32.not_lt, UInt32.le_iff_toNat_le] at large
        exact large
      refine ⟨k, ?_, by omega, size⟩
      by_contra small
      have below : 2 ^ k ≤ 2 ^ 3 := Nat.pow_le_pow_right (by omega) (by omega)
      omega
  have kept := grant_simShardsInit { heap with calls := heap.calls + 1 + 1 }
    (if rounded < 16 then (16 : UInt32) else rounded).toNat 16
  rw [Heap.request] at made
  cases first : heap.grant .handle heap.calls with
  | false =>
    rw [first] at made
    cases made
  | true =>
    rw [first] at made
    dsimp only at made
    rw [Heap.request] at made
    cases second : heap.grant .lock (heap.calls + 1) with
    | false =>
      rw [second] at made
      cases made
    | true =>
      rw [second, buckets] at made
      rw [buckets] at kept
      dsimp only at made
      split at made
      · cases made
      · rename_i asked
        cases made
        rw [asked] at kept
        exact ⟨kept, b, low, high, rfl⟩

theorem simStoreCreate_valid {bucketCount : UInt32}
    (created : simStoreCreate heap bucketCount = some (.ok s, heap')) :
    s.Valid ∧ heap'.grant = heap.grant ∧ ∀ j, (s.shards j).latest = fun _ => none := by
  obtain ⟨kept, b, low, high, rfl⟩ := simStoreCreate_inv created
  obtain ⟨valid, empty⟩ := simShardInit_valid low high
  refine ⟨⟨fun _ => valid, ?_, (Finset.sum_eq_zero fun _ _ => rfl).symm⟩, kept, fun _ => empty⟩
  intro j id a found
  rw [empty] at found
  cases found

end Creation

end Kith.Sim
