import Kith.Sim.Consistency

/-!
# What a failed call leaves behind

A publish that is refused before the link changes nothing. One whose link is
refused has made its target cell and has put the artifact it was to move at the
end of the list it was in; both can be read. A zone removal that fails has
dropped artifacts and lists.
-/

namespace Kith.Sim

open LinearProbe BackPointers SwapRemove Runs List Option

section Reads

structure ArtifactStore.SameReads (s s' : ArtifactStore) : Prop where
  snapshot : ∀ key out, simStoreSnapshotCell s' key out = simStoreSnapshotCell s key out
  product : ∀ key, simStoreCellProduct s' key = simStoreCellProduct s key
  count : simStoreCount s' = simStoreCount s

variable {s s' : ArtifactStore} {key : CellKey}

theorem simStoreCellProduct_eq (s : ArtifactStore) (key : CellKey) :
    simStoreCellProduct s key =
      match ((s.shards (simShardFor key.zone)).cells.cell key).map simFillCellProduct with
      | none => .error .enoent
      | some p => .ok p := by
  rw [simStoreCellProduct]
  cases looked : simCellLookup (s.shardOf key).cells key with
  | none =>
    rw [simCellLookup_eq_none.mp looked]
    rfl
  | some c =>
    rw [cell_of_lookup looked]
    rfl

theorem ArtifactStore.SameReads.artifacts (same : s.SameReads s') (key : CellKey) :
    s'.artifacts key = s.artifacts key := by
  have read := same.snapshot key (some ((s'.artifacts key).length + (s.artifacts key).length))
  rw [simStoreSnapshotCell_eq, simStoreSnapshotCell_eq] at read
  have lists := congrArg CellSnapshot.out read
  dsimp only at lists
  rwa [take_of_length_le (by omega), take_of_length_le (by omega)] at lists

theorem ArtifactStore.SameReads.refl (s : ArtifactStore) : s.SameReads s :=
  ⟨fun _ _ => rfl, fun _ => rfl, rfl⟩

end Reads

section Publish

variable {sh sh' : Shard} {key : CellKey} {id : UInt64}

/-- The target cell is there, and the actor is not, or its artifact is the last in its cell. -/
def Shard.Settled (sh : Shard) (key : CellKey) (id : UInt64) : Prop :=
  (sh.cells.cell key).isSome = true ∧
    ∀ i, sh.actors.dense id = some i → (sh.cells.members (sh.cellAt i)).getLast? = some i

theorem relinked_eq_iff (valid : sh.Valid) (id : UInt64) :
    sh.relinked id = sh.cells.members ↔
      ∀ i, sh.actors.dense id = some i → (sh.cells.members (sh.cellAt i)).getLast? = some i := by
  rw [Shard.relinked]
  cases found : sh.actors.dense id with
  | none => simp
  | some idx =>
    have inside := (valid.dense_iff.mp found).1
    have placed : (sh.cells.members (sh.cellAt idx))[(sh.arts idx).memberSlot]? = some idx :=
      valid.members.at_place inside
    rw [Function.update_eq_self_iff, swapRemove_append_eq_iff (valid.members.nodup _) placed]
    constructor
    · rintro last _ ⟨⟩
      exact last
    · intro last
      exact last idx rfl

theorem Shard.Valid.members_of_artifacts (valid : sh.Valid) (valid' : sh'.Valid)
    (art : ∀ i < sh.artCount, (sh'.arts i).art = (sh.arts i).art)
    (count : sh'.artCount = sh.artCount)
    (same : sh'.artifacts key = sh.artifacts key) :
    sh'.cells.members key = sh.cells.members key := by
  have inside : ∀ i ∈ sh.cells.members key, i < sh.artCount := fun i member =>
    (valid.mem_members.mp member).1
  have inside' : ∀ i ∈ sh'.cells.members key, i < sh.artCount := fun i member => by
    rw [← count]
    exact (valid'.mem_members.mp member).1
  -- The hash leads from each artifact back to its dense position.
  have back : ∀ l : List Nat, (∀ i ∈ l, i < sh.artCount) →
      (l.map fun i => (sh.arts i).art).map (fun a => sh.actors.dense a.actorId) = l.map some := by
    intro l all
    rw [List.map_map]
    apply map_congr_left
    intro i member
    exact valid.dense_iff.mpr ⟨all i member, rfl⟩
  have arts : sh'.artifacts key = (sh'.cells.members key).map fun i => (sh.arts i).art :=
    map_congr_left fun i member => art i (inside' i member)
  have positions := congrArg (map fun a => sh.actors.dense a.actorId) (arts.symm.trans same)
  rw [back _ inside', Shard.artifacts, back _ inside] at positions
  exact map_injective_iff.mpr (some_injective _) positions

variable {s s' : ArtifactStore} {heap : Heap SimSite} {published : SimPublished}

theorem ArtifactStore.Valid.members_foreign (valid : s.Valid) {j : Fin 16}
    (away : simShardFor key.zone ≠ j) : (s.shards j).cells.members key = [] := by
  have shard := valid.shard j
  rw [eq_nil_iff_forall_not_mem]
  intro i member
  obtain ⟨inside, there⟩ := shard.mem_members.mp member
  have home := valid.home j _ _ (shard.latest_iff.mpr ⟨i, inside, rfl, rfl⟩)
  rw [show (((s.shards j).arts i).art.key.cell) = key from there] at home
  exact away home

section Bounces

variable (valid : s.Valid) (bounced : Bounced (s.shardOf key) key
  ((s.shardOf key).relinked id) sh')

include valid bounced

theorem Bounced.settled (valid' : (s.setShard (simShardFor key.zone) sh').Valid)
    (same : s.SameReads (s.setShard (simShardFor key.zone) sh')) :
    (s.shardOf key).Settled key id := by
  have validShard := valid.shard (simShardFor key.zone)
  have here : ∀ {k : CellKey}, simShardFor k.zone = simShardFor key.zone →
      (s.setShard (simShardFor key.zone) sh').shards (simShardFor k.zone) = sh' := by
    intro k home
    rw [setShard_shards, if_pos home]
  constructor
  · have read := same.product key
    rw [simStoreCellProduct_eq, simStoreCellProduct_eq, here rfl, bounced.product,
      if_pos rfl] at read
    cases found : (s.shardOf key).cells.cell key with
    | some c => rfl
    | none =>
      rw [found] at read
      cases read
  · apply (relinked_eq_iff validShard id).mp
    rw [← bounced.members]
    funext k
    by_cases home : simShardFor k.zone = simShardFor key.zone
    · apply validShard.members_of_artifacts bounced.valid bounced.art bounced.artCount
      have lists := same.artifacts k
      rw [ArtifactStore.artifacts, here home, ArtifactStore.artifacts, home] at lists
      exact lists
    · have empty := valid'.members_foreign home
      rw [setShard_shards, if_pos rfl] at empty
      rw [empty, valid.members_foreign home]

theorem Bounced.sameReads (settled : (s.shardOf key).Settled key id) :
    s.SameReads (s.setShard (simShardFor key.zone) sh') := by
  have validShard := valid.shard (simShardFor key.zone)
  obtain ⟨found, last⟩ := settled
  have members := bounced.members.trans ((relinked_eq_iff validShard id).mpr last)
  have artifacts : ∀ k, sh'.artifacts k = (s.shardOf key).artifacts k := by
    intro k
    rw [Shard.artifacts, members, Shard.artifacts]
    apply map_congr_left
    intro i member
    exact bounced.art i (validShard.mem_members.mp member).1
  refine ⟨?_, ?_, rfl⟩
  · intro k out
    have list : (s.setShard (simShardFor key.zone) sh').artifacts k = s.artifacts k := by
      rw [ArtifactStore.artifacts, setShard_shards, ArtifactStore.artifacts]
      by_cases home : simShardFor k.zone = simShardFor key.zone
      · rw [if_pos home, artifacts, home]
      · rw [if_neg home]
    rw [simStoreSnapshotCell_eq, simStoreSnapshotCell_eq, list]
  · intro k
    rw [simStoreCellProduct_eq, simStoreCellProduct_eq, setShard_shards]
    by_cases home : simShardFor k.zone = simShardFor key.zone
    · rw [if_pos home, bounced.product, home]
      by_cases same : k = key
      · obtain ⟨c, there⟩ := isSome_iff_exists.mp found
        rw [if_pos same, same, CellTable.target, there]
        rfl
      · rw [if_neg same]
    · rw [if_neg home]

end Bounces

theorem Unlinked.sameReads_iff (unlinked : Unlinked s heap key id published s') (valid : s.Valid) :
    s.SameReads s' ↔ (s.shardOf key).Settled key id := by
  have valid' := (unlinked.kept valid).1
  obtain ⟨sh', rfl, bounced⟩ := unlinked.state
  constructor
  · exact bounced.settled valid valid'
  · exact bounced.sameReads valid

/-- A publish that fails can be told from no publish exactly when its link is refused and the
shard is not settled for it. -/
theorem simStorePublish_error_iff {key : ArtifactKey} {actor : Actor} (valid : s.Valid)
    (fits : (s.shardOf key.cell).Fits key.cell actor.id) (heap : Heap SimSite) :
    ∃ published s' heap', simStorePublish s heap key actor = some (published, s', heap') ∧
      ((∀ code, published.rc = .err code → s.SameReads s') ↔
        (s.LinkRefused heap key.cell actor.id →
          (s.shardOf key.cell).Settled key.cell actor.id)) := by
  obtain ⟨published, s', heap', stepped, _, outcome⟩ := simStorePublish_spec valid fits heap
  refine ⟨published, s', heap', stepped, ?_⟩
  rcases outcome with refused | unlinked | accepted
  · rw [refused.state]
    exact iff_of_true (fun _ _ => .refl s) fun link => absurd link refused.link
  · have failed : published.rc = .err .enomem := by rw [unlinked.reply]
    rw [← unlinked.sameReads_iff valid]
    constructor
    · exact fun quiet _ => quiet .enomem failed
    · exact fun quiet _ _ => quiet unlinked.link
  · apply iff_of_true
    · intro code failed
      rw [accepted.reply] at failed
      cases failed
    · exact fun link => absurd link accepted.link

end Publish

section Zones

/-- The same script from here on with every request granted. -/
def granting (heap : Heap SimSite) : Heap SimSite := ⟨fun _ _ => true, heap.calls⟩

/-- Every request for a member list is granted that the zone removal makes. -/
def ArtifactStore.ZoneGranted (s : ArtifactStore) (heap : Heap SimSite) (zone : UInt32) : Prop :=
  ∀ n ∈ List.range' heap.calls
      ((simStoreRemoveZone s (granting heap) zone).2.2.calls - heap.calls),
    heap.grant .members n = true

instance (s : ArtifactStore) (heap : Heap SimSite) (zone : UInt32) :
    Decidable (s.ZoneGranted heap zone) :=
  inferInstanceAs (Decidable (∀ n ∈ List.range' _ _, _))

/-- The rebuild under a script goes as with every request granted, up to the first request
that is refused. -/
theorem simRebuildFrom_granting (sh : Shard) (heap : Heap SimSite) (entries : List Nat) :
    let granted := simRebuildFrom sh (granting heap) entries
    heap.calls ≤ granted.2.2.calls ∧
      ((∀ n, heap.calls ≤ n → n < granted.2.2.calls → heap.grant .members n = true) →
        (simRebuildFrom sh heap entries).1 = granted.1) ∧
      ∀ n, heap.calls ≤ n → n < granted.2.2.calls →
        heap.grant .members n = false → (simRebuildFrom sh heap entries).1 = .err .enomem := by
  induction entries generalizing sh heap with
  | nil =>
    refine ⟨le_rfl, fun _ => rfl, ?_⟩
    intro n low high
    exact absurd high (Nat.not_lt.mpr low)
  | cons i entries ih =>
    rw [simRebuildFrom, simRebuildFrom]
    cases looked : simCellLookup sh.cells (sh.arts i).art.key.cell with
    | none =>
      refine ⟨le_rfl, fun _ => rfl, ?_⟩
      intro n low high
      exact absurd high (Nat.not_lt.mpr low)
    | some c =>
      dsimp only
      by_cases full : (sh.cells.nodes c).memberCap ≤ (sh.cells.nodes c).members.length
      · have asked : (granting heap).request .members =
            (true, granting { heap with calls := heap.calls + 1 }) := rfl
        rw [simCellMemberAppend, if_pos full, simCellMemberAppend, if_pos full, asked]
        obtain ⟨later, same, refused⟩ := ih _ { heap with calls := heap.calls + 1 }
        dsimp only at later same refused
        rw [Heap.request]
        cases first : heap.grant .members heap.calls with
        | false =>
          refine ⟨Nat.le_of_succ_le later, ?_, fun _ _ _ _ => rfl⟩
          intro all
          rw [all heap.calls le_rfl later] at first
          cases first
        | true =>
          refine ⟨Nat.le_of_succ_le later, ?_, ?_⟩
          · intro all
            exact same fun n low high => all n (Nat.le_of_succ_le low) high
          · intro n low high no
            have beyond : n ≠ heap.calls := by
              rintro rfl
              rw [first] at no
              cases no
            exact refused n (by omega) high no
      · rw [simCellMemberAppend, if_neg full, simCellMemberAppend, if_neg full]
        exact ih _ heap

variable {s : ArtifactStore}

variable (valid : s.Valid) (heap : Heap SimSite) (zone : UInt32)
include valid heap zone

theorem simStoreRemoveZone_ok_iff :
    (simStoreRemoveZone s heap zone).1 = .ok ↔ s.ZoneGranted heap zone := by
  obtain ⟨rc, s', heap', granted, _, outcome⟩ := simStoreRemoveZone_spec valid (granting heap) zone
  have fine : (simStoreRemoveZone s (granting heap) zone).1 = .ok := by
    rcases outcome with ⟨rfl, _⟩ | ⟨_, ⟨_, _, ⟨⟩⟩, _⟩
    rw [granted]
  obtain ⟨sh, entries, rebuild⟩ : ∃ sh entries, ∀ heap,
      (simStoreRemoveZone s heap zone).1 = (simRebuildFrom sh heap entries).1 ∧
      (simStoreRemoveZone s heap zone).2.2 = (simRebuildFrom sh heap entries).2.2 :=
    ⟨_, _, fun heap => ⟨rfl, rfl⟩⟩
  rw [(rebuild _).1] at fine
  rw [ArtifactStore.ZoneGranted, (rebuild _).1, (rebuild _).2]
  obtain ⟨later, same, refused⟩ := simRebuildFrom_granting sh heap entries
  constructor
  · intro ok n member
    rw [mem_range'_1] at member
    cases answer : heap.grant .members n with
    | true => rfl
    | false =>
      rw [refused n member.1 (by omega) answer] at ok
      cases ok
  · intro all
    rw [same fun n low high => all n (mem_range'_1.mpr ⟨low, by omega⟩)]
    exact fine

theorem simStoreRemoveZone_error_iff :
    (∀ code, (simStoreRemoveZone s heap zone).1 = .err code →
        s.SameReads (simStoreRemoveZone s heap zone).2.1) ↔ s.ZoneGranted heap zone := by
  rw [← simStoreRemoveZone_ok_iff valid]
  obtain ⟨rc, s', heap', removed, _, outcome⟩ := simStoreRemoveZone_spec valid heap zone
  rw [removed]
  rcases outcome with ⟨rfl, _⟩ | ⟨rfl, _, key, fewer⟩
  · apply iff_of_true
    · rintro code ⟨⟩
    · rfl
  · apply iff_of_false
    · intro quiet
      have lengths := congrArg length ((quiet .enomem rfl).artifacts key)
      rw [ArtifactStore.artifacts, ArtifactStore.artifacts, Shard.artifacts, Shard.artifacts,
        length_map, length_map] at lengths
      exact fewer.ne lengths
    · rintro ⟨⟩

end Zones

section Runs

variable {s : ArtifactStore} {heap heap' : Heap SimSite} {bucketCount : UInt32}

/-- The call changes no read if it fails. -/
def SimRun.Quiet (s : SimRun) : SimOp → Prop
  | .publish key actor => s.store.LinkRefused s.heap key.cell actor.id →
      (s.store.shards (simShardFor key.cell.zone)).Settled key.cell actor.id
  | .removeActor _ => True
  | .removeZone zone => s.store.ZoneGranted s.heap zone

/-- No publish makes a count wrap, and no zone removal fails. -/
def SimRun.Sound (s : SimRun) : SimOp → Prop
  | .publish key actor =>
    (s.store.shards (simShardFor key.cell.zone)).Fits key.cell actor.id
  | .removeActor _ => True
  | .removeZone zone => s.store.ZoneGranted s.heap zone

instance (s : SimRun) (op : SimOp) : Decidable (s.Sound op) :=
  match op with
  | .publish _ _ => inferInstanceAs (Decidable (_ ∨ _))
  | .removeActor _ => .isTrue trivial
  | .removeZone zone => inferInstanceAs (Decidable (s.store.ZoneGranted s.heap zone))

theorem step_valid (r : SimRun) (op : SimOp) (valid : r.store.Valid) (sound : r.Sound op) :
    ∃ reply r', r.step op = some (reply, r') ∧ r'.store.Valid := by
  cases op with
  | publish key actor =>
    obtain ⟨published, s', heap', stepped, _, outcome⟩ :=
      simStorePublish_spec valid sound r.heap
    refine ⟨published, ⟨s', heap'⟩, by rw [SimRun.step, stepped, map_some], ?_⟩
    rcases outcome with refused | unlinked | accepted
    · rw [refused.state]
      exact valid
    · exact (unlinked.kept valid).1
    · exact accepted.valid
  | removeActor id =>
    obtain ⟨s', removed, valid', _⟩ := simStoreRemoveActor_spec valid id
    refine ⟨_, _, rfl, ?_⟩
    rw [removed]
    exact valid'
  | removeZone zone =>
    have ok := (simStoreRemoveZone_ok_iff valid r.heap zone).mpr sound
    obtain ⟨rc, s', heap', removed, _, outcome⟩ := simStoreRemoveZone_spec valid r.heap zone
    refine ⟨_, _, rfl, ?_⟩
    rw [removed] at ok ⊢
    rcases outcome with ⟨_, valid', _⟩ | ⟨rfl, _⟩
    · exact valid'
    · cases ok

/-- In every state that a run has reached, a call that fails leaves every read as it was
exactly when the call is quiet. -/
theorem errors_invisible_iff (created : simStoreCreate heap bucketCount = some (.ok s, heap'))
    (ops : List SimOp) (sound : Along SimRun.step SimRun.Sound ⟨s, heap'⟩ ops) :
    ∃ replies s', run SimRun.step ⟨s, heap'⟩ ops = some (replies, s') ∧
      ∀ op, s'.Fits op → ∃ reply s'', s'.step op = some (reply, s'') ∧
        ((∀ code, reply.rc = .err code → s'.store.SameReads s''.store) ↔ s'.Quiet op) := by
  obtain ⟨replies, s', ran, valid⟩ :=
    run_invariant step_valid (simStoreCreate_valid created).1 ops sound
  refine ⟨replies, s', ran, ?_⟩
  intro op fits
  cases op with
  | publish key actor =>
    obtain ⟨published, store, heap, stepped, quiet⟩ := simStorePublish_error_iff valid fits s'.heap
    exact ⟨published, ⟨store, heap⟩, by rw [SimRun.step, stepped, map_some], quiet⟩
  | removeActor id =>
    obtain ⟨store, removed, _⟩ := simStoreRemoveActor_spec valid id
    refine ⟨_, _, rfl, iff_of_true ?_ trivial⟩
    intro code failed
    rw [removed] at failed
    cases failed
  | removeZone zone =>
    exact ⟨_, _, rfl, simStoreRemoveZone_error_iff valid s'.heap zone⟩

/-- The store of `sampleSim` with one request for a member list refused. -/
def refusingSim (n : Nat) : SimRun :=
  ⟨sampleSim.store, ⟨fun site k => !(site = .members && k = n), 98⟩⟩

def crowdedOps : List SimOp := [1, 2, 3, 4].map fun id => .publish (sampleKey 0 0) (sampleActor id)

/-- A fifth actor is refused because the list cannot grow, and nothing shows. -/
theorem refused_growth_invisible :
    ∃ replies s' reply s'', run SimRun.step (refusingSim 99) crowdedOps = some (replies, s') ∧
      s'.step (.publish (sampleKey 0 0) (sampleActor 5)) = some (reply, s'') ∧
      reply.rc = .err .enomem ∧ s'.store.SameReads s''.store := by
  obtain ⟨replies, s', ran, invisible⟩ := @errors_invisible_iff sampleSim.store
    ⟨fun site k => !(site = .members && k = 99), 0⟩ _ 16 rfl crowdedOps (by decide +kernel)
  have reached : (run SimRun.step (refusingSim 99) crowdedOps).map (fun x =>
      let sh := x.2.store.shards (simShardFor 0)
      (decide (x.2.Sound (.publish (sampleKey 0 0) (sampleActor 5))),
        (sh.cells.cell (sampleKey 0 0).cell).isSome,
        sh.actors.dense 5, (x.2.step (.publish (sampleKey 0 0) (sampleActor 5))).map (·.1.rc))) =
      some (true, true, none, some (.err .enomem)) := by
    decide +kernel
  rw [show run SimRun.step (refusingSim 99) crowdedOps = _ from ran] at reached
  simp only [map_some, some.injEq, Prod.mk.injEq, decide_eq_true_eq] at reached
  obtain ⟨fits, cell, absent, refused⟩ := reached
  obtain ⟨reply, s'', stepped, quiet⟩ := invisible (.publish (sampleKey 0 0) (sampleActor 5)) fits
  rw [stepped, map_some, some.injEq] at refused
  refine ⟨replies, s', reply, s'', ran, stepped, refused, quiet.mpr (fun _ => ⟨cell, ?_⟩) _ refused⟩
  intro i found
  cases absent.symm.trans found

def SimRun.listed (s : SimRun) (key : ArtifactKey) : List UInt64 :=
  (simStoreSnapshotCell s.store key.cell (some 4)).out.map Artifact.actorId

/-- A refused insert makes an empty cell, a refused move changes the order of the old cell, and
a failed zone removal empties a cell of another zone. -/
theorem failed_calls_show :
    ((simStoreCellProduct (refusingSim 98).store (sampleKey 0 0).cell).toOption = none ∧
      ((refusingSim 98).step (.publish (sampleKey 0 0) (sampleActor 1))).map (fun (r, s) =>
        (r.rc, (simStoreCellProduct s.store (sampleKey 0 0).cell).toOption.map
          CellProduct.actorCount)) = some (.err .enomem, some 0)) ∧
    ((run SimRun.step (refusingSim 99) [.publish (sampleKey 0 0) (sampleActor 1),
        .publish (sampleKey 0 0) (sampleActor 2)]).map (fun (_, s) => s.listed (sampleKey 0 0)) =
        some [1, 2] ∧
      (run SimRun.step (refusingSim 99) [.publish (sampleKey 0 0) (sampleActor 1),
        .publish (sampleKey 0 0) (sampleActor 2), .publish (sampleKey 0 7) (sampleActor 1)]).map
        (fun (rs, s) => (rs.getLast?.map SimPublished.rc, s.listed (sampleKey 0 0))) =
        some (some (.err .enomem), [2, 1])) ∧
    (run SimRun.step (refusingSim 100) [.publish (sampleKey 0 0) (sampleActor 1),
        .publish (sampleKey 16 0) (sampleActor 2)]).map (fun (_, s) =>
          (s.listed (sampleKey 0 0), simStoreCount s.store)) = some ([1], 2) ∧
      (run SimRun.step (refusingSim 100) [.publish (sampleKey 0 0) (sampleActor 1),
        .publish (sampleKey 16 0) (sampleActor 2), .removeZone 16]).map (fun (rs, s) =>
          (rs.getLast?.map SimPublished.rc, s.listed (sampleKey 0 0), simStoreCount s.store)) =
        some (some (.err .enomem), [], 1) := by
  refine ⟨⟨?_, ?_⟩, ⟨?_, ?_⟩, ?_, ?_⟩
  · rfl
  · decide +kernel
  · decide +kernel
  · decide +kernel
  · decide +kernel
  · decide +kernel

end Runs

end Kith.Sim
