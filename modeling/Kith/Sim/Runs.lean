import Kith.Sim.Calls
import Kith.Lib.Runs

/-!
# The artifact store over whole runs

A run is a sequence of publishes and removals. Its history has, for each actor,
the artifact of the latest accepted publish that no removal has taken. A store
whose actors stay within one shard at a time shows exactly that history: the
snapshot of a cell has the artifacts of the history that are in the cell.
-/

namespace Kith.Sim

open LinearProbe BackPointers Runs Function List

section Reads

variable {s : ArtifactStore} {sh : Shard} {key : CellKey}

/-- The artifacts of a cell in the order of its member list. -/
def Shard.artifacts (sh : Shard) (key : CellKey) : List Artifact :=
  (sh.cells.members key).map fun i => (sh.arts i).art

def ArtifactStore.artifacts (s : ArtifactStore) (key : CellKey) : List Artifact :=
  (s.shards (simShardFor key.zone)).artifacts key

theorem simStoreSnapshotCell_eq (s : ArtifactStore) (key : CellKey) (out : Option Nat) :
    simStoreSnapshotCell s key out =
      match out with
      | none => ⟨.ok, [], (s.artifacts key).length⟩
      | some max => ⟨if max < (s.artifacts key).length then .err .erange else .ok,
          (s.artifacts key).take max, (s.artifacts key).length⟩ := by
  cases looked : simCellLookup (s.shardOf key).cells key with
  | none =>
    have empty : s.artifacts key = [] := by
      rw [ArtifactStore.artifacts, Shard.artifacts,
        members_of_none (simCellLookup_eq_none.mp looked)]
      rfl
    rw [empty]
    cases out with
    | none => rw [simStoreSnapshotCell, looked]; rfl
    | some max => rw [simStoreSnapshotCell, looked]; simp
  | some c =>
    have list : s.artifacts key = ((s.shardOf key).cells.nodes c).members.map
        fun i => ((s.shardOf key).arts i).art := by
      rw [ArtifactStore.artifacts, Shard.artifacts, members_of_cell (cell_of_lookup looked)]
    cases out with
    | none => rw [simStoreSnapshotCell, looked, list, length_map]
    | some max => rw [simStoreSnapshotCell, looked, list, length_map, map_take]

theorem Shard.Valid.mem_artifacts (valid : sh.Valid) {a : Artifact} :
    a ∈ sh.artifacts key ↔ sh.latest a.actorId = some a ∧ a.key.cell = key := by
  rw [Shard.artifacts, mem_map, valid.latest_iff]
  constructor
  · rintro ⟨i, member, rfl⟩
    obtain ⟨inside, here⟩ := valid.mem_members.mp member
    exact ⟨⟨i, inside, rfl, rfl⟩, here⟩
  · rintro ⟨⟨i, inside, rfl, _⟩, here⟩
    exact ⟨i, valid.mem_members.mpr ⟨inside, here⟩, rfl⟩

theorem Shard.Valid.art_inj (valid : sh.Valid) {i j : Nat} (inside : i < sh.artCount)
    (inside' : j < sh.artCount) (same : (sh.arts i).art.actorId = (sh.arts j).art.actorId) :
    i = j := by
  have first := valid.dense_iff.mpr ⟨inside, same⟩
  have second := valid.dense_iff.mpr ⟨inside', rfl⟩
  exact Option.some.inj (first.symm.trans second)

theorem Shard.Valid.nodup_artifacts (valid : sh.Valid) (key : CellKey) :
    (sh.artifacts key).Nodup := by
  rw [Shard.artifacts, nodup_map_iff_inj_on (valid.members.nodup key)]
  intro i member j member' same
  exact valid.art_inj (valid.mem_members.mp member).1 (valid.mem_members.mp member').1
    (congrArg Artifact.actorId same)

theorem Shard.Valid.product_count (valid : (s.shardOf key).Valid) :
    match simStoreCellProduct s key with
    | .ok p => p.actorCount.toNat = (s.artifacts key).length
    | .error _ => s.artifacts key = [] := by
  have length : (s.artifacts key).length =
      ((s.shardOf key).cells.members key).length := length_map ..
  rw [simStoreCellProduct]
  cases looked : simCellLookup (s.shardOf key).cells key with
  | none =>
    rw [members_of_none (simCellLookup_eq_none.mp looked)] at length
    exact length_eq_zero_iff.mp length
  | some c =>
    have found := cell_of_lookup looked
    rw [members_of_cell found, ← (valid.counted key _ found).actorCount] at length
    exact length.symm

end Reads

section Machine

inductive SimOp where
  | publish (key : ArtifactKey) (actor : Actor)
  | removeActor (id : UInt64)
  | removeZone (zone : UInt32)
  deriving DecidableEq

structure SimRun where
  store : ArtifactStore
  heap : Heap SimSite

variable (s : SimRun)

def SimRun.step : SimOp → Option (SimPublished × SimRun)
  | .publish key actor =>
    (simStorePublish s.store s.heap key actor).map fun (published, store, heap) =>
      (published, ⟨store, heap⟩)
  | .removeActor id =>
    let removed := simStoreRemoveActor s.store id
    some (⟨removed.1, none⟩, { s with store := removed.2 })
  | .removeZone zone =>
    let removed := simStoreRemoveZone s.store s.heap zone
    some (⟨removed.1, none⟩, ⟨removed.2.1, removed.2.2⟩)

/-- For each actor the artifact of its latest accepted publish, unless it was removed. -/
abbrev History : Type := UInt64 → Option Artifact

def History.after (latest : History) : SimOp → SimPublished → History
  | .publish key actor, ⟨.ok, some seq⟩ =>
    update latest actor.id (some (simFillArtifact key seq actor))
  | .removeActor id, _ => update latest id none
  | .removeZone zone, ⟨.ok, _⟩ => fun id => (latest id).filter fun a => a.key.cell.zone ≠ zone
  | _, _ => latest

def historyOf (ops : List SimOp) (replies : List SimPublished) : History :=
  (ops.zip replies).foldl (fun latest e => latest.after e.1 e.2) fun _ => none

/-- A publish adds no actor to a cell that has 2^32 - 1 of them. -/
def SimRun.Fits : SimOp → Prop
  | .publish key actor =>
    (s.store.shards (simShardFor key.cell.zone)).Fits key.cell actor.id
  | _ => True

/-- A publish meets its actor in no shard but the one it goes to. -/
def SimRun.Alone : SimOp → Prop
  | .publish key actor =>
    ∀ j, j ≠ simShardFor key.cell.zone → (s.store.shards j).latest actor.id = none
  | _ => True

def SimRun.Proper (op : SimOp) : Prop := s.Fits op ∧ s.Alone op

instance (s : SimRun) (op : SimOp) : Decidable (s.Fits op) :=
  match op with
  | .publish _ _ => inferInstanceAs (Decidable (_ ∨ _))
  | .removeActor _ => .isTrue trivial
  | .removeZone _ => .isTrue trivial

instance (s : SimRun) (op : SimOp) : Decidable (s.Alone op) :=
  match op with
  | .publish key actor => inferInstanceAs
      (Decidable (∀ j, j ≠ simShardFor key.cell.zone → (s.store.shards j).latest actor.id = none))
  | .removeActor _ => .isTrue trivial
  | .removeZone _ => .isTrue trivial

instance (s : SimRun) (op : SimOp) : Decidable (s.Proper op) :=
  inferInstanceAs (Decidable (_ ∧ _))

/-- The store is valid and each shard has the artifacts of the history in its zones. -/
def SimRun.Shows (latest : History) : Prop :=
  s.store.Valid ∧ ∀ j id, (s.store.shards j).latest id =
    (latest id).filter fun a => simShardFor a.key.cell.zone = j

end Machine

section Steps

variable {s : SimRun} {latest : History}

variable (shows : s.Shows latest)
include shows

theorem publish_shows {key : ArtifactKey} {actor : Actor} (proper : s.Proper (.publish key actor)) :
    ∃ r s', s.step (.publish key actor) = some (r, s') ∧ s'.heap.grant = s.heap.grant ∧
      s'.Shows (latest.after (.publish key actor) r) := by
  obtain ⟨valid, shown⟩ := shows
  obtain ⟨fits, alone⟩ := proper
  obtain ⟨published, store, heap, stepped, granted, outcome⟩ :=
    simStorePublish_spec valid fits s.heap
  refine ⟨published, ⟨store, heap⟩, ?_, granted, ?_⟩
  · rw [SimRun.step, stepped, Option.map_some]
  · rcases outcome with refused | unlinked | accepted
    · rw [refused.reply, refused.state]
      exact ⟨valid, shown⟩
    · obtain ⟨valid', same⟩ := unlinked.kept valid
      rw [unlinked.reply]
      refine ⟨valid', fun j id => ?_⟩
      rw [same]
      exact shown j id
    · rw [accepted.reply]
      refine ⟨accepted.valid, fun j id => ?_⟩
      rw [accepted.latest, History.after, update_apply]
      by_cases own : id = actor.id
      · rw [if_pos own, own]
        split
        · rename_i here
          rw [update_self, here]
          simp [Shard.published, simFillArtifact, simFillKey, Option.filter]
        · rename_i other
          rw [alone j other]
          simp [simFillArtifact, simFillKey, Option.filter, Ne.symm other]
      · split
        · rw [update_of_ne own]
          exact shown j id
        · exact shown j id

theorem SimRun.Shows.holder (id : UInt64) :
    s.store.holder id = (latest id).map fun a => simShardFor a.key.cell.zone := by
  cases held : latest id with
  | none =>
    rw [Option.map_none, ArtifactStore.holder, find?_eq_none]
    intro j _
    rw [shows.2, held]
    simp
  | some a =>
    have there : (s.store.shardOf a.key.cell).latest id = some a := by
      rw [shows.2, held]
      simp [Option.filter]
    have exists_holder : (s.store.holder id).isSome := by
      rw [ArtifactStore.holder, find?_isSome]
      exact ⟨_, mem_finRange _, by rw [there]; rfl⟩
    obtain ⟨j, found⟩ := Option.isSome_iff_exists.mp exists_holder
    have some_there := find?_some found
    rw [shows.2, held] at some_there
    have home : simShardFor a.key.cell.zone = j := by
      by_contra other
      simp [Option.filter, other] at some_there
    rw [found, Option.map_some, home]

theorem removeActor_shows (id : UInt64) :
    ∃ r s', s.step (.removeActor id) = some (r, s') ∧ s'.heap.grant = s.heap.grant ∧
      s'.Shows (latest.after (.removeActor id) r) := by
  obtain ⟨store, removed, valid, erased⟩ := simStoreRemoveActor_spec shows.1 id
  refine ⟨⟨.ok, none⟩, { s with store := store }, ?_, rfl, valid, ?_⟩
  · rw [SimRun.step, removed]
  · intro j id'
    have held := shows.holder id
    have shown := shows.2 j id'
    rw [erased, held, History.after, update_apply]
    by_cases own : id' = id
    · rw [if_pos own, own]
      rw [own] at shown
      split
      · exact update_self ..
      · rename_i elsewhere
        rw [shown]
        cases there : latest id with
        | none => rfl
        | some a =>
          rw [there, Option.map_some, Option.some.injEq] at elsewhere
          simp [Option.filter, elsewhere]
    · split
      · rw [update_of_ne own]
        exact shown
      · exact shown

theorem removeZone_shows {zone : UInt32} (granted : ¬ Refuses s.heap) :
    ∃ r s', s.step (.removeZone zone) = some (r, s') ∧ s'.heap.grant = s.heap.grant ∧
      s'.Shows (latest.after (.removeZone zone) r) := by
  obtain ⟨rc, store, heap, removed, kept, outcome⟩ := simStoreRemoveZone_spec shows.1 s.heap zone
  rcases outcome with ⟨rfl, valid, erased⟩ | ⟨_, refused, _⟩
  · refine ⟨⟨.ok, none⟩, ⟨store, heap⟩, ?_, kept, valid, ?_⟩
    · rw [SimRun.step, removed]
    · intro j id
      rw [erased, shows.2, History.after]
      dsimp only
      cases latest id with
      | none =>
        split
        · rfl
        · rfl
      | some a =>
        -- An artifact of another shard is of another zone.
        by_cases here : simShardFor a.key.cell.zone = j
        · by_cases same : a.key.cell.zone = zone
          · have shard : j = simShardFor zone := here.symm.trans (congrArg simShardFor same)
            simp [Option.filter, same, shard]
          · simp [Option.filter, here, same]
        · by_cases same : a.key.cell.zone = zone
          · rw [same] at here
            simp [Option.filter, same, here]
          · simp [Option.filter, here, same]
  · exact absurd refused granted

theorem step_shows {op : SimOp} (proper : s.Proper op)
    (granted : ∀ zone, op = .removeZone zone → ¬ Refuses s.heap) :
    ∃ r s', s.step op = some (r, s') ∧ s'.heap.grant = s.heap.grant ∧
      s'.Shows (latest.after op r) := by
  cases op with
  | publish key actor => exact publish_shows shows proper
  | removeActor id => exact removeActor_shows shows id
  | removeZone zone => exact removeZone_shows shows (granted zone rfl)

end Steps

section History

variable {s : ArtifactStore} {heap heap' : Heap SimSite} {bucketCount : UInt32}

variable (created : simStoreCreate heap bucketCount = some (.ok s, heap'))
include created

theorem created_shows : SimRun.Shows ⟨s, heap'⟩ fun _ => none := by
  obtain ⟨valid, _, empty⟩ := simStoreCreate_valid created
  refine ⟨valid, fun j id => ?_⟩
  rw [empty]
  rfl

/-- A run shows its history; a zone removal in it needs its allocations granted. -/
theorem run_shows {ops : List SimOp} (proper : Along SimRun.step SimRun.Proper ⟨s, heap'⟩ ops)
    (granted : ∀ op ∈ ops, ∀ zone, op = .removeZone zone → ¬ Refuses heap) :
    ∃ replies s', run SimRun.step ⟨s, heap'⟩ ops = some (replies, s') ∧
      replies.length = ops.length ∧ s'.Shows (historyOf ops replies) ∧
        s'.heap.grant = heap.grant := by
  have start : SimRun.Shows ⟨s, heap'⟩ (fun _ => none) ∧ heap'.grant = heap.grant :=
    ⟨created_shows created, (simStoreCreate_valid created).2.1⟩
  have matched : ∀ (r : SimRun) (latest : History) (op : SimOp),
      r.Shows latest ∧ r.heap.grant = heap.grant →
      r.Proper op ∧ (∀ zone, op = .removeZone zone → ¬ Refuses heap) →
      ∃ reply r' latest', r.step op = some (reply, r') ∧ latest' = latest.after op reply ∧
        r'.Shows latest' ∧ r'.heap.grant = heap.grant := by
    rintro r latest op ⟨shows, same⟩ ⟨proper, granted⟩
    have free : ∀ zone, op = .removeZone zone → ¬ Refuses r.heap := by
      rintro zone here ⟨site, n, refused⟩
      rw [same] at refused
      exact granted zone here ⟨site, n, refused⟩
    obtain ⟨reply, r', stepped, kept, shows'⟩ := step_shows shows proper free
    exact ⟨reply, r', _, stepped, rfl, shows', kept.trans same⟩
  obtain ⟨replies, s', latest, ran, trace, shows, granted⟩ :=
    run_simulates matched start ops (proper.and_mem granted)
  have history : latest = historyOf ops replies := trace.end_eq fun _ _ _ _ equal => equal
  rw [history] at shows
  exact ⟨replies, s', ran, trace.length_eq, shows, granted⟩

end History

end Kith.Sim
