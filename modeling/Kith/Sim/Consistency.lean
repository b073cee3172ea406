import Kith.Sim.Runs

/-!
# Consistency of the artifact store and its actors

Over every run whose publishes meet their actor in no other shard, and add none to
a cell of 2^32 - 1 actors, the structures of the shards agree, the reads have
exactly the history and no actor appears in two cells. Without the first
condition an actor leaves a copy behind, without the second a count wraps.
-/

namespace Kith.Sim

open LinearProbe BackPointers Runs Function List Option

section Consistency

variable {s : ArtifactStore} {heap heap' : Heap SimSite} {bucketCount : UInt32} {latest : History}
    {r : SimRun}

/-- The structures of every shard agree, and the reads have exactly the history. -/
structure ArtifactStore.Consistent (s : ArtifactStore) (latest : History) : Prop where
  shards : ∀ j, (s.shards j).Valid
  reads : ∀ key, ∃ arts : List Artifact, arts.Nodup ∧
    (∀ a, a ∈ arts ↔ latest a.actorId = some a ∧ a.key.cell = key) ∧
    (∀ out, simStoreSnapshotCell s key out =
      match out with
      | none => ⟨.ok, [], arts.length⟩
      | some max => ⟨if max < arts.length then .err .erange else .ok, arts.take max, arts.length⟩) ∧
    match simStoreCellProduct s key with
    | .ok p => p.actorCount.toNat = arts.length
    | .error _ => arts = []

theorem SimRun.Shows.mem_artifacts (shows : r.Shows latest) {key : CellKey} {a : Artifact} :
    a ∈ r.store.artifacts key ↔ latest a.actorId = some a ∧ a.key.cell = key := by
  rw [ArtifactStore.artifacts, (shows.1.shard _).mem_artifacts, shows.2, filter_eq_some_iff]
  constructor
  · rintro ⟨⟨found, _⟩, here⟩
    exact ⟨found, here⟩
  · rintro ⟨found, here⟩
    exact ⟨⟨found, by rw [here]; exact decide_eq_true rfl⟩, here⟩

theorem SimRun.Shows.consistent (shows : r.Shows latest) : r.store.Consistent latest := by
  refine ⟨shows.1.shard, fun key => ⟨r.store.artifacts key, ?_, ?_, ?_, ?_⟩⟩
  · exact (shows.1.shard _).nodup_artifacts key
  · exact fun a => shows.mem_artifacts
  · exact simStoreSnapshotCell_eq r.store key
  · exact (shows.1.shard _).product_count

theorem SimRun.Shows.grown (shows : r.Shows latest) {j : Fin 16} {rc : Rc} {sh : Shard}
    (grow : simShardGrow (r.store.shards j) heap = some (rc, sh, heap')) :
    SimRun.Shows ⟨r.store.setShard j sh, r.heap⟩ latest := by
  obtain ⟨rc', sh', heap'', grew, _, outcome⟩ := simShardGrow_spec (shows.1.shard j).tables heap
  rw [grow] at grew
  cases grew
  rcases outcome with ⟨_, rfl, _⟩ | ⟨_, same, _⟩
  · rw [setShard_self]
    exact shows
  · have latest_same := same.latest (shows.1.shard j)
    refine ⟨shows.1.setShard (same.valid (shows.1.shard j)) ?_ (by rw [same.artCount]), ?_⟩
    · intro id a found
      rw [latest_same] at found
      exact shows.1.home j id a found
    · intro k id
      rw [setShard_shards]
      split
      · rename_i here
        rw [latest_same, here]
        exact shows.2 j id
      · exact shows.2 k id

/-- The sim artifact store stays internally consistent and shows the history of its calls,
in every state and after every growth, when all allocations are granted. A publish is then
accepted, unless the tables of its shard have the largest size there is. -/
theorem store_consistent (granting : ∀ site n, heap.grant site n = true)
    (created : simStoreCreate heap bucketCount = some (.ok s, heap')) (ops : List SimOp)
    (proper : Along SimRun.step SimRun.Proper ⟨s, heap'⟩ ops) :
    ∃ replies s', run SimRun.step ⟨s, heap'⟩ ops = some (replies, s') ∧
      s'.store.Consistent (historyOf ops replies) ∧
      (∀ j rc sh heap₁ heap₂, simShardGrow (s'.store.shards j) heap₁ = some (rc, sh, heap₂) →
        (s'.store.setShard j sh).Consistent (historyOf ops replies)) ∧
      ∀ key actor, s'.Proper (.publish key actor) →
        (s'.store.shards (simShardFor key.cell.zone)).cells.buckets ≠ 2 ^ 57 →
        ∃ seq next, s'.step (.publish key actor) = some (⟨.ok, some seq⟩, next) := by
  have free : ¬ Refuses heap := by
    rintro ⟨site, n, refused⟩
    rw [granting] at refused
    cases refused
  obtain ⟨replies, s', ran, _, shows, same⟩ := run_shows created proper fun _ _ _ _ => free
  refine ⟨replies, s', ran, shows.consistent, ?_, ?_⟩
  · intro j rc sh heap₁ heap₂ grow
    exact (shows.grown grow).consistent
  · intro key actor proper small
    obtain ⟨published, store, heap', stepped, _, outcome⟩ :=
      simStorePublish_spec shows.1 proper.1 s'.heap
    have free' : ¬ Refuses s'.heap := by rwa [Refuses, same]
    rw [SimRun.step, stepped, map_some]
    rcases outcome with refused | unlinked | accepted
    · exact absurd refused.cause (not_or.mpr ⟨small, free'⟩)
    · exact absurd unlinked.cause free'
    · exact ⟨_, _, by rw [accepted.reply]⟩

/-- A store of 16 buckets a shard, with every allocation granted. -/
def sampleSim : SimRun := ⟨⟨fun _ => simShardInit 16, 0⟩, ⟨fun _ _ => true, 98⟩⟩

theorem sampleSim_created :
    simStoreCreate ⟨fun _ _ => true, 0⟩ 16 = some (.ok sampleSim.store, sampleSim.heap) := rfl

def sampleActor (id : UInt64) : Actor := ⟨id, 0, 0, 0, 0, 0, 0, 0, 0⟩

def sampleKey (zone : UInt32) (x : Int32) : ArtifactKey := ⟨⟨zone, x, 0, 0, 0⟩, 1, 0⟩

/-- Three actors in two cells of a zone and one in a zone of the same shard; one moves,
one leaves, and the second zone is removed. -/
def steadyOps : List SimOp :=
  [.publish (sampleKey 0 0) (sampleActor 1), .publish (sampleKey 0 0) (sampleActor 2),
    .publish (sampleKey 0 7) (sampleActor 3), .publish (sampleKey 16 0) (sampleActor 4),
    .publish (sampleKey 0 7) (sampleActor 1), .removeActor 3, .removeZone 16]

theorem steadyOps_consistent :
    ∃ replies s', run SimRun.step sampleSim steadyOps = some (replies, s') ∧
      s'.store.Consistent (historyOf steadyOps replies) ∧
      ∃ seq next, s'.step (.publish (sampleKey 0 7) (sampleActor 1)) =
        some (⟨.ok, some seq⟩, next) := by
  obtain ⟨replies, s', ran, consistent, _, accepts⟩ :=
    store_consistent (fun _ _ => rfl) sampleSim_created steadyOps (by decide +kernel)
  have ready : (run SimRun.step sampleSim steadyOps).map (fun e => decide
      (e.2.Proper (.publish (sampleKey 0 7) (sampleActor 1)) ∧
        (e.2.store.shards (simShardFor 0)).cells.buckets ≠ 2 ^ 57)) = some true := by decide +kernel
  rw [ran] at ready
  obtain ⟨proper, small⟩ := of_decide_eq_true (some.inj ready)
  exact ⟨replies, s', ran, consistent, accepts _ _ proper small⟩

end Consistency

section Crowd

/-- The publishes of the actors 0, 1, …, n - 1 into one cell. -/
def crowdOps (n : Nat) : List SimOp :=
  (List.range n).map fun k => .publish (sampleKey 0 0) (sampleActor (UInt64.ofNat k))

/-- The cell has the first `n` actors, in tables that no publish has found too large. -/
structure Crowded (n : Nat) (s : SimRun) : Prop where
  valid : s.store.Valid
  granting : ¬ Refuses s.heap
  artCount : (s.store.shards 0).artCount = n
  members : ((s.store.shards 0).cells.members (sampleKey 0 0).cell).length = n
  absent : ∀ k, n ≤ k → k < 2 ^ 64 → (s.store.shards 0).actors.dense (UInt64.ofNat k) = none
  load : (s.store.shards 0).actors.tombstones = 0 ∧ (s.store.shards 0).cells.tombstones = 0 ∧
    (s.store.shards 0).cells.count ≤ n ∧ (s.store.shards 0).cells.buckets ≤ 16 + 3 * n

theorem sampleSim_crowded : Crowded 0 sampleSim := by
  obtain ⟨valid, _, empty⟩ := simStoreCreate_valid sampleSim_created
  refine ⟨valid, ?_, rfl, ?_, ?_, rfl, rfl, le_rfl, le_rfl⟩
  · rintro ⟨site, n, ⟨⟩⟩
  · have linked := (valid.shard 0).members.length_members (sampleKey 0 0).cell
    exact linked
  · intro k _ _
    have none_there := congrFun (empty 0) (UInt64.ofNat k)
    exact map_eq_none_iff.mp none_there

variable {n : Nat} {s : SimRun}

theorem Crowded.insert (crowded : Crowded n s) (small : n < 2 ^ 32) :
    ∃ r s' sh₁ sh', s.step (.publish (sampleKey 0 0) (sampleActor (UInt64.ofNat n))) =
      some (r, s') ∧ s'.heap.grant = s.heap.grant ∧ EnsureSpec (s.store.shards 0) true sh₁ ∧
      Inserted sh₁ (sampleKey 0 0) (sampleActor (UInt64.ofNat n)) sh' ∧ s'.store.shards 0 = sh' ∧
      s'.store = { s.store.setShard 0 sh' with totalCount := s.store.totalCount + 1 } := by
  obtain ⟨_, _, _, buckets⟩ := crowded.load
  obtain ⟨published, store, heap, stepped, granted, outcome⟩ := simStorePublish_absent
    (sampleKey 0 0) (sampleActor (UInt64.ofNat n)) crowded.valid
    (crowded.absent n le_rfl (by omega)) s.heap
  rcases outcome with refused | unlinked | ⟨_, _, sh₁, sh', spec, new, state⟩
  · rcases refused.cause with full | refuses
    · change (s.store.shards 0).cells.buckets = _ at full
      omega
    · exact absurd refuses crowded.granting
  · exact absurd unlinked.cause crowded.granting
  · refine ⟨published, ⟨store, heap⟩, sh₁, sh', ?_, granted, spec, new, ?_, state⟩
    · rw [SimRun.step, stepped, map_some]
    · rw [state]
      rw [setShard_shards]
      exact if_pos rfl

theorem Crowded.next (crowded : Crowded n s) (small : n + 1 < 2 ^ 32) :
    ∃ r s', s.step (.publish (sampleKey 0 0) (sampleActor (UInt64.ofNat n))) = some (r, s') ∧
      Crowded (n + 1) s' := by
  obtain ⟨r, s', sh₁, sh', stepped, granted, spec, new, shard, state⟩ := crowded.insert (by omega)
  obtain ⟨actorTombs, cellTombs, count, buckets⟩ := crowded.load
  have validShard := crowded.valid.shard 0
  have absent := crowded.absent n le_rfl (by omega)
  have list := members_congr spec.same.cell
  have stored := new.stored (spec.same.valid validShard) (by rw [spec.same.dense]; exact absent)
    (by rw [list, crowded.members]; exact small)
  have missing : (s.store.shards 0).latest (UInt64.ofNat n) = none := by
    rw [Shard.latest, absent]
    rfl
  refine ⟨r, s', stepped, ?_, ?_, ?_, ?_, ?_, ?_⟩
  · rw [state]
    apply (stored.of_regrown validShard spec.same).store_valid crowded.valid rfl
    rw [show (sampleActor (UInt64.ofNat n)).id = UInt64.ofNat n from rfl, missing]
    rfl
  · rintro ⟨site, k, refused⟩
    rw [granted] at refused
    exact crowded.granting ⟨site, k, refused⟩
  · rw [shard, new.artCount, spec.same.artCount, crowded.artCount]
  · rw [shard, new.members, update_self, length_append, length_singleton, list, crowded.members]
  · intro k later bound
    have other : UInt64.ofNat k ≠ UInt64.ofNat n := by
      intro same
      have values := congrArg UInt64.toNat same
      rw [UInt64.toNat_ofNat', UInt64.toNat_ofNat'] at values
      omega
    rw [shard, new.dense, spec.same.dense]
    exact (update_of_ne other ..).trans (crowded.absent k (by omega) bound)
  · obtain ⟨actorTombs', cellTombs', count'⟩ := new.loads
    have sameCount := spec.same.count
    have sameBuckets := new.buckets
    have size := crowded.artCount
    rw [shard]
    rcases spec.growth with rfl | ⟨double, noActors, noCells, loaded⟩
    · omega
    · omega

theorem crowdOps_run (small : n < 2 ^ 32) :
    ∃ replies s, run SimRun.step sampleSim (crowdOps n) = some (replies, s) ∧ Crowded n s := by
  induction n with
  | zero => exact ⟨[], sampleSim, rfl, sampleSim_crowded⟩
  | succ n ih =>
    obtain ⟨replies, s, ran, crowded⟩ := ih (by omega)
    obtain ⟨r, s', stepped, crowded'⟩ := crowded.next small
    refine ⟨replies ++ [r], s', ?_, crowded'⟩
    rw [crowdOps, range_succ, map_append]
    exact run_concat ran stepped

theorem Crowded.wraps (crowded : Crowded n s) (last : n + 1 = 2 ^ 32) :
    ∃ r s', s.step (.publish (sampleKey 0 0) (sampleActor (UInt64.ofNat n))) = some (r, s') ∧
      (simStoreSnapshotCell s'.store (sampleKey 0 0).cell none).count = n + 1 ∧
      (simStoreCellProduct s'.store (sampleKey 0 0).cell).toOption.map CellProduct.actorCount =
        some 0 := by
  obtain ⟨r, s', sh₁, sh', stepped, _, spec, new, here, _⟩ := crowded.insert (by omega)
  have shard : s'.store.shards (simShardFor (sampleKey 0 0).cell.zone) = sh' := here
  have list := members_congr spec.same.cell
  refine ⟨r, s', stepped, ?_, ?_⟩
  · rw [simStoreSnapshotCell_eq, ArtifactStore.artifacts, shard, Shard.artifacts]
    rw [length_map, new.members, update_self, length_append,
      length_singleton, list, crowded.members]
  · obtain ⟨cap, _, written⟩ := new.cell
    have found : sh'.cells.cell (sampleKey 0 0).cell = some (((sh₁.cells.target
        (sampleKey 0 0).cell).push sh₁.artCount cap).advance
          (sampleKey 0 0).authorityEpoch true) := by
      rw [written, update_self]
    have count := ((spec.same.valid (crowded.valid.shard 0)).target_counted
      (sampleKey 0 0).cell).actorCount
    rw [target_members, list, crowded.members] at count
    obtain ⟨i, looked, _, node⟩ := new.tables.cells.exists_holds found
    rw [simStoreCellProduct, shard, looked]
    dsimp only
    rw [node]
    change some ((sh₁.cells.target (sampleKey 0 0).cell).actorCount + 1) = some 0
    have wrapped : (sh₁.cells.target (sampleKey 0 0).cell).actorCount + 1 = 0 := by
      apply UInt32.toNat_inj.mp
      rw [UInt32.toNat_add, count]
      change (n + 1) % 2 ^ 32 = 0
      omega
    rw [wrapped]

/-- 2^32 actors in one cell are counted as none, and an actor that is published into a zone of
another shard stays in the cell it was in. -/
theorem crowd_uncounted_and_copy_kept :
    (∃ replies s, run SimRun.step sampleSim (crowdOps (2 ^ 32)) = some (replies, s) ∧
      (simStoreSnapshotCell s.store (sampleKey 0 0).cell none).count = 2 ^ 32 ∧
      (simStoreCellProduct s.store (sampleKey 0 0).cell).toOption.map CellProduct.actorCount =
        some 0) ∧
    (run SimRun.step sampleSim [.publish (sampleKey 0 0) (sampleActor 1),
        .publish (sampleKey 1 0) (sampleActor 1)]).map (fun (replies, s) =>
      ((simStoreSnapshotCell s.store (sampleKey 0 0).cell (some 4)).out.map Artifact.actorId,
        (historyOf [.publish (sampleKey 0 0) (sampleActor 1),
          .publish (sampleKey 1 0) (sampleActor 1)] replies 1).map fun a => a.key.cell.zone)) =
      some ([1], some 1) := by
  constructor
  · obtain ⟨replies, s, ran, crowded⟩ := crowdOps_run (n := 2 ^ 32 - 1) (by omega)
    obtain ⟨r, s', stepped, count, product⟩ := crowded.wraps (by omega)
    refine ⟨replies ++ [r], s', ?_, count, product⟩
    have split : crowdOps (2 ^ 32) = crowdOps (2 ^ 32 - 1) ++
        [.publish (sampleKey 0 0) (sampleActor (UInt64.ofNat (2 ^ 32 - 1)))] := by
      rw [show 2 ^ 32 = 2 ^ 32 - 1 + 1 by omega, crowdOps, List.range_succ, List.map_append]
      rfl
    rw [split]
    exact run_concat ran stepped
  · decide +kernel

end Crowd

section OneArtifact

variable {s : ArtifactStore} {heap heap' : Heap SimSite} {bucketCount : UInt32} {latest : History}
    {id : UInt64}

/-- Some snapshot of the cell has an artifact of the actor. -/
def ArtifactStore.Appears (s : ArtifactStore) (id : UInt64) (key : CellKey) : Prop :=
  ∃ out a, a ∈ (simStoreSnapshotCell s key out).out ∧ a.actorId = id

theorem SimRun.Shows.appears_iff {r : SimRun} (shows : r.Shows latest) {key : CellKey} :
    r.store.Appears id key ↔ (latest id).map (fun a => a.key.cell) = some key := by
  constructor
  · rintro ⟨out, a, listed, rfl⟩
    rw [simStoreSnapshotCell_eq] at listed
    cases out with
    | none => cases listed
    | some max =>
      obtain ⟨found, here⟩ := shows.mem_artifacts.mp (mem_of_mem_take listed)
      rw [found, map_some, here]
  · intro there
    obtain ⟨a, found, here⟩ := map_eq_some_iff.mp there
    have stored : (r.store.shardOf key).latest id = some a := by
      rw [shows.2, found, ← here]
      simp
    obtain ⟨_, _, _, own⟩ := (shows.1.shard _).latest_iff.mp stored
    refine ⟨some (r.store.artifacts key).length, a, ?_, own⟩
    rw [simStoreSnapshotCell_eq]
    dsimp only
    rw [take_length, shows.mem_artifacts, own]
    exact ⟨found, here⟩

theorem History.after_eq_none {op : SimOp} (absent : latest id = none)
    (other : ∀ key actor, op = .publish key actor → actor.id ≠ id) (r : SimPublished) :
    latest.after op r id = none := by
  cases op with
  | publish key actor =>
    obtain ⟨rc, seq⟩ := r
    cases rc with
    | err code => exact absent
    | ok =>
      cases seq with
      | none => exact absent
      | some seq => exact (update_of_ne (other key actor rfl).symm ..).trans absent
  | removeActor gone =>
    rw [History.after, update_apply]
    split
    · rfl
    · exact absent
  | removeZone zone =>
    obtain ⟨rc, seq⟩ := r
    cases rc with
    | err code => exact absent
    | ok =>
      rw [History.after]
      dsimp only
      rw [absent]
      rfl

theorem foldl_after_eq_none (events : List (SimOp × SimPublished)) (absent : latest id = none)
    (other : ∀ key actor r, (SimOp.publish key actor, r) ∈ events → actor.id ≠ id) :
    events.foldl (fun latest e => latest.after e.1 e.2) latest id = none := by
  induction events generalizing latest with
  | nil => exact absent
  | cons e events ih =>
    apply ih
    · apply History.after_eq_none absent
      intro key actor here
      exact other key actor e.2 (by rw [← here]; exact mem_cons_self ..)
    · intro key actor r later
      exact other key actor r (mem_cons_of_mem _ later)

theorem historyOf_removed {before after : List SimOp} {replies : List SimPublished}
    (length : replies.length = (before ++ .removeActor id :: after).length)
    (other : ∀ key actor, SimOp.publish key actor ∈ after → actor.id ≠ id) :
    historyOf (before ++ .removeActor id :: after) replies id = none := by
  rw [length_append, length_cons] at length
  have first : before.length = (replies.take before.length).length := by
    rw [length_take]
    omega
  have rest : (replies.drop before.length).length = after.length + 1 := by
    rw [length_drop]
    omega
  obtain ⟨r, later, split⟩ := exists_of_length_succ _ rest
  rw [historyOf, ← take_append_drop before.length replies, zip_append first, split,
    zip_cons_cons, foldl_append, foldl_cons]
  apply foldl_after_eq_none
  · exact update_self ..
  · intro key actor r' member
    exact other key actor (of_mem_zip member).1

/-- Each actor appears in the cell of its latest publish and in no other cell, and after its
removal in none until it is published again. -/
theorem one_artifact_per_actor (created : simStoreCreate heap bucketCount = some (.ok s, heap'))
    (ops : List SimOp) (calls : ∀ zone, SimOp.removeZone zone ∉ ops)
    (proper : Along SimRun.step SimRun.Proper ⟨s, heap'⟩ ops) :
    ∃ replies s', run SimRun.step ⟨s, heap'⟩ ops = some (replies, s') ∧
      (∀ id key, s'.store.Appears id key ↔
        (historyOf ops replies id).map (fun a => a.key.cell) = some key) ∧
      (∀ id key key', s'.store.Appears id key → s'.store.Appears id key' → key = key') ∧
      ∀ before after id, ops = before ++ .removeActor id :: after →
        (∀ key actor, SimOp.publish key actor ∈ after → actor.id ≠ id) →
        ∀ key, ¬ s'.store.Appears id key := by
  obtain ⟨replies, s', ran, length, shows, _⟩ := run_shows created proper fun op member zone here =>
    absurd (here ▸ member) (calls zone)
  refine ⟨replies, s', ran, fun _ _ => shows.appears_iff, ?_, ?_⟩
  · intro id key key' here here'
    rw [shows.appears_iff] at here here'
    exact some.inj (here.symm.trans here')
  · rintro before after id rfl other key appears
    rw [shows.appears_iff, historyOf_removed length other] at appears
    cases appears

/-- An actor goes around three cells of one shard, another is removed and comes back. -/
def wanderingOps : List SimOp :=
  [.publish (sampleKey 0 0) (sampleActor 1), .publish (sampleKey 0 7) (sampleActor 1),
    .publish (sampleKey 0 7) (sampleActor 2), .removeActor 2,
    .publish (sampleKey 16 0) (sampleActor 1), .publish (sampleKey 3 0) (sampleActor 2)]

theorem wanderingOps_once :
    ∃ replies s', run SimRun.step sampleSim wanderingOps = some (replies, s') ∧
      (∀ id key, s'.store.Appears id key ↔
        (historyOf wanderingOps replies id).map (fun a => a.key.cell) = some key) ∧
      (∀ id key key', s'.store.Appears id key → s'.store.Appears id key' → key = key') ∧
      ∀ before after id, wanderingOps = before ++ .removeActor id :: after →
        (∀ key actor, SimOp.publish key actor ∈ after → actor.id ≠ id) →
        ∀ key, ¬ s'.store.Appears id key :=
  one_artifact_per_actor sampleSim_created wanderingOps (by simp [wanderingOps]) (by decide +kernel)

/-- An actor published into zones of two shards is in a cell of each, and its removal takes
only the first. -/
theorem removal_leaves_second_copy :
    (run SimRun.step sampleSim [.publish (sampleKey 0 0) (sampleActor 1),
        .publish (sampleKey 1 0) (sampleActor 1)]).map (fun (_, s) =>
      ((simStoreSnapshotCell s.store (sampleKey 0 0).cell (some 4)).out.map Artifact.actorId,
        (simStoreSnapshotCell s.store (sampleKey 1 0).cell (some 4)).out.map Artifact.actorId)) =
      some ([1], [1]) ∧
    (run SimRun.step sampleSim [.publish (sampleKey 0 0) (sampleActor 1),
        .publish (sampleKey 1 0) (sampleActor 1), .removeActor 1]).map (fun (replies, s) =>
      (replies.getLast?.map SimPublished.rc,
        (simStoreSnapshotCell s.store (sampleKey 0 0).cell (some 4)).out.map Artifact.actorId,
        (simStoreSnapshotCell s.store (sampleKey 1 0).cell (some 4)).out.map Artifact.actorId)) =
      some (some .ok, [], [1]) := by
  constructor
  · decide +kernel
  · decide +kernel

end OneArtifact

end Kith.Sim
