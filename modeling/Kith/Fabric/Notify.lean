import Kith.Fabric.SubTable

/-!
# Notifications under every interleaving

The fabric lock serialises the calls that touch the store or the table of
subscriptions. Additions and removals of cells take only the lock of their
subscription, so they may fall between the steps of a fanout. A subscription is
owed a cell when a publish of it succeeded after the cell was added or last
delivered; a cell that is owed and still stored is pending, or the fanout that
holds the lock has yet to reach the subscription.
-/

namespace Kith.Fabric

open LinearProbe Runs Function List Option

variable (s : NotifyRun)

section Machine

/-- `kith_fabric_publish` up to its fanout. -/
def fabricPublishStore (f : KithFabric) (heap : Heap FabricSite) (key : CellKey)
    (epoch actors : UInt32) : Option (Published × KithFabric × Heap FabricSite) :=
  let sh := f.shardOf key
  match fabricCellLookup sh key with
  | some i =>
    if epoch < (sh.cells i).authorityEpoch then some (⟨.err .eperm, none⟩, f, heap)
    else
      let node := fabricPublishExisting (sh.cells i) epoch actors
      let sh : Shard := { sh with cells := update sh.cells i node }
      some (⟨.ok, some node.publishSeq⟩, f.setShard key sh, heap)
  | none => fabricPublishInsert f heap key epoch actors

/-- Calls by any thread. A publish is its store part and then one `fanout` for each
entry of the table and one for its end. `address` is where the allocator puts the
subscription. -/
inductive NotifyOp where
  | publish (key : CellKey) (epoch actors : UInt32)
  | fanout
  | removeCell (key : CellKey)
  | removeZone (zone : UInt32)
  | createSubscription (address : Nat)
  | destroySubscription (handle : Nat)
  | add (handle : Nat) (key : CellKey)
  | remove (handle : Nat) (key : CellKey)
  | drain (handle : Nat) (out : Option Nat)
  deriving DecidableEq

inductive NotifyReply where
  | waits
  | done (rc : Rc)
  | published (result : Published)
  | drained (count : Nat) (out : List CellProduct)
  deriving DecidableEq

/-- `fanning` is the publish that holds the fabric lock, with the table entry that its
fanout reaches next. -/
structure NotifyRun where
  fabric : KithFabric
  heap : Heap FabricSite
  fanning : Option (CellKey × Nat)

def NotifyOp.takesFabricLock : NotifyOp → Bool
  | .fanout | .add .. | .remove .. => false
  | _ => true

def NotifyRun.call : NotifyOp → Option (NotifyReply × NotifyRun)
  | .publish key epoch actors =>
    (fabricPublishStore s.fabric s.heap key epoch actors).map fun (result, f, heap) =>
      (.published result, ⟨f, heap, if result.rc = .ok then some (key, 0) else none⟩)
  | .fanout =>
    match s.fanning with
    | none => some (.waits, s)
    | some (key, j) =>
      match s.fabric.subs[j]? with
      | some sub =>
        some (.done .ok, { s with
          fabric := s.fabric.setSub (sub.notify key), fanning := some (key, j + 1) })
      | none =>
        some (.done .ok, { s with
          fabric := { s.fabric with publishTotal := s.fabric.publishTotal + 1 }, fanning := none })
  | .removeCell key =>
    let (rc, f) := kithFabricRemoveCell s.fabric key
    some (.done rc, { s with fabric := f })
  | .removeZone zone =>
    let (rc, f) := kithFabricRemoveZone s.fabric zone
    some (.done rc, { s with fabric := f })
  | .createSubscription address =>
    -- An address in use is not handed out again.
    if (s.fabric.sub address).isSome then some (.waits, s)
    else
      (kithFabricCreateSubscription s.fabric s.heap address).map fun (rc, f, heap) =>
        (.done rc, { s with fabric := f, heap := heap })
  | .destroySubscription handle =>
    some (.done .ok, { s with fabric := kithFabricSubscriptionDestroy s.fabric handle })
  | .add handle key =>
    match s.fabric.sub handle with
    | none => some (.done (.err .einval), s)
    | some sub =>
      let (rc, sub) := kithFabricSubscriptionAdd sub key
      some (.done rc, { s with fabric := s.fabric.setSub sub })
  | .remove handle key =>
    match s.fabric.sub handle with
    | none => some (.done (.err .einval), s)
    | some sub =>
      let (rc, sub) := kithFabricSubscriptionRemove sub key
      some (.done rc, { s with fabric := s.fabric.setSub sub })
  | .drain handle out =>
    match s.fabric.sub handle with
    | none => some (.done (.err .einval), s)
    | some sub =>
      let d := kithFabricDrain s.fabric sub out
      some (.drained d.count d.out, { s with fabric := s.fabric.setSub d.sub })

/-- A call that needs the fabric lock waits while a fanout holds it. -/
def NotifyRun.step (op : NotifyOp) : Option (NotifyReply × NotifyRun) :=
  if s.fanning.isSome ∧ op.takesFabricLock then some (.waits, s) else s.call op

end Machine

section Owed

/-- What each subscription is owed, told from the calls alone: `none` for a cell that is
not subscribed, `some true` for one that was published since it was added or delivered. -/
abbrev Interests : Type := Nat → CellKey → Option Bool

def Interests.after (m : Interests) : NotifyOp → NotifyReply → Interests
  | .publish key _ _, .published ⟨.ok, _⟩ => fun handle =>
    update (m handle) key ((m handle key).map fun _ => true)
  | .destroySubscription handle, .done .ok => update m handle fun _ => none
  | .add handle key, .done .ok =>
    update m handle
      (update (m handle) key (some ((m handle key).getD false)))
  | .remove handle key, .done .ok =>
    update m handle (update (m handle) key none)
  | .drain handle _, .drained _ out =>
    update m handle fun key =>
      if key ∈ out.map CellProduct.key then (m handle key).map fun _ => false else m handle key
  | _, _ => m

def interestsOf (ops : List NotifyOp) (replies : List NotifyReply) : Interests :=
  (ops.zip replies).foldl (fun m e => m.after e.1 e.2) fun _ _ => none

/-- The fanout of the cell has yet to reach the subscription. -/
def NotifyRun.Ahead (handle : Nat) (key : CellKey) : Prop :=
  ∃ j i, s.fanning = some (key, j) ∧ j ≤ i ∧ s.fabric.handles[i]? = some handle

structure NotifyRun.Owes (s : NotifyRun) (m : Interests) : Prop where
  store : s.fabric.Valid
  subs : s.fabric.Subscribed
  subscribed : ∀ handle key, (s.fabric.interest handle key).isSome = (m handle key).isSome
  owed : ∀ handle key, m handle key = some true → (s.fabric.products key).isSome →
    s.fabric.interest handle key = some true ∨ s.Ahead handle key

end Owed

section Calls

variable {f f' : KithFabric} {heap heap' : Heap FabricSite} {key : CellKey} {epoch actors : UInt32}

/-- A publish is its store part, then the fanout and the count of a success. -/
theorem kithFabricPublish_eq (f : KithFabric) (heap : Heap FabricSite) (key : CellKey)
    (epoch actors : UInt32) :
    kithFabricPublish f heap key epoch actors =
      (fabricPublishStore f heap key epoch actors).map fun (result, f, heap) =>
        (result, if result.rc = .ok then f.announce key else f, heap) := by
  rw [kithFabricPublish, fabricPublishStore]
  cases fabricCellLookup (f.shardOf key) key with
  | some i =>
    dsimp only
    split
    · rfl
    · rfl
  | none =>
    dsimp only
    congr 1
    funext stored
    obtain ⟨⟨rc, seq⟩, f, heap⟩ := stored
    cases rc with
    | ok | err code => rfl

theorem fabricPublishFill_subs (f : KithFabric) (key : CellKey) (epoch actors : UInt32)
    (sh : Shard) : (fabricPublishFill f key epoch actors sh).2.subs = f.subs := by
  rw [fabricPublishFill]
  split
  · rfl
  · split
    · rfl
    · rfl

theorem fabricPublishStore_subs {result : Published}
    (stored : fabricPublishStore f heap key epoch actors = some (result, f', heap')) :
    f'.subs = f.subs := by
  rw [fabricPublishStore] at stored
  split at stored
  · split at stored
    · cases stored
      rfl
    · cases stored
      rfl
  · obtain ⟨⟨rc, sh, heap₁⟩, _, filled⟩ := map_eq_some_iff.mp stored
    cases rc with
    | err code =>
      cases filled
      rfl
    | ok =>
      have kept := fabricPublishFill_subs f key epoch actors sh
      cases filled
      exact kept

theorem fabricPublishStore_spec (valid : f.Valid) (heap : Heap FabricSite) (key : CellKey)
    (epoch actors : UInt32) :
    ∃ result f' heap', fabricPublishStore f heap key epoch actors = some (result, f', heap') ∧
      f'.Valid ∧ f'.subs = f.subs ∧
      f'.products = if result.rc = .ok then
        update f.products key (some (f.products.next key epoch actors)) else f.products := by
  obtain ⟨r, published, spec⟩ := kithFabricPublish_spec valid heap key epoch actors
  rw [kithFabricPublish_eq] at published
  obtain ⟨⟨result, f', heap'⟩, stored, rfl⟩ := map_eq_some_iff.mp published
  have valid' : (if result.rc = .ok then f'.announce key else f').Valid := spec.valid
  have product : (if result.rc = .ok then f'.announce key else f').product =
    if result.rc = .ok then update f.product key (some (f.superseded key epoch actors))
    else f.product := spec.product
  refine ⟨result, f', heap', stored, ?_, fabricPublishStore_subs stored, ?_⟩
  · split at valid'
    · exact { valid' with }
    · exact valid'
  · by_cases ok : result.rc = .ok
    · rw [if_pos ok, if_pos ok] at product
      change f'.product = _ at product
      rw [if_pos ok, products_update product, map_some, fill_superseded]
    · rw [if_neg ok, if_neg ok] at product
      rw [if_neg ok]
      funext k
      rw [KithFabric.products, product]
      rfl

theorem kithFabricRemoveCell_subs (f : KithFabric) (key : CellKey) :
    (kithFabricRemoveCell f key).2.subs = f.subs := by
  rw [kithFabricRemoveCell]
  split
  · rfl
  · rfl

theorem kithFabricRemoveZone_subs (f : KithFabric) (zone : UInt32) :
    (kithFabricRemoveZone f zone).2.subs = f.subs := by
  rw [kithFabricRemoveZone]
  generalize range _ = buckets
  induction buckets generalizing f with
  | nil => rfl
  | cons i buckets ih =>
    rw [foldl_cons, ih, fabricRemoveBucket]
    split
    · rfl
    · rfl

end Calls

variable {heap' : Heap FabricSite}

section Steps

variable {s : NotifyRun} {m : Interests} {handle : Nat} {key : CellKey} {sub sub' : Subscription}
    {f' : KithFabric} {j : Nat}

theorem not_ahead (free : s.fanning = none) (handle : Nat) (key : CellKey) :
    ¬ s.Ahead handle key := by
  rintro ⟨j, i, fanning, _⟩
  rw [free] at fanning
  cases fanning

variable (owes : s.Owes m)
include owes

theorem NotifyRun.Owes.write (found : s.fabric.sub handle = some sub)
    (at_handle : sub'.handle = handle) (valid : sub'.Valid) {o : CellKey → Option Bool}
    {fanning : Option (CellKey × Nat)} (others : ∀ h key, h ≠ handle → s.Ahead h key →
      NotifyRun.Ahead { s with fanning := fanning } h key)
    (subscribed : ∀ key, (sub'.interest key).isSome = (o key).isSome)
    (owed : ∀ key, o key = some true → (s.fabric.products key).isSome →
      sub'.interest key = some true ∨ NotifyRun.Ahead { s with fanning := fanning } handle key) :
    NotifyRun.Owes { s with fabric := s.fabric.setSub sub', fanning := fanning }
      (update m handle o) := by
  have interest := setSub_interest found at_handle
  have ahead : ∀ h k, NotifyRun.Ahead { s with fanning := fanning } h k →
      NotifyRun.Ahead { s with fabric := s.fabric.setSub sub', fanning := fanning } h k := by
    rintro h k ⟨j, i, next, later, listed⟩
    refine ⟨j, i, next, later, ?_⟩
    rw [handles_setSub]
    exact listed
  constructor
  · exact { owes.store with }
  · exact setSub_subscribed owes.subs valid
  · intro h k
    rw [interest, update_apply, update_apply]
    split
    · exact subscribed k
    · exact owes.subscribed h k
  · intro h k due stored
    rw [interest, update_apply]
    rw [update_apply] at due
    split
    · rename_i same
      rw [if_pos same] at due
      rw [same]
      exact (owed k due stored).imp id (ahead handle k)
    · rename_i other
      rw [if_neg other] at due
      exact (owes.owed h k due stored).imp id fun later => ahead h k (others h k other later)

theorem NotifyRun.Owes.shrink (valid : f'.Valid) (subs : f'.Subscribed)
    (interest : f'.interest = s.fabric.interest) (free : s.fanning = none)
    (fewer : ∀ key, (f'.products key).isSome → (s.fabric.products key).isSome) :
    NotifyRun.Owes ⟨f', heap', s.fanning⟩ m := by
  constructor
  · exact valid
  · exact subs
  · intro h k
    rw [interest]
    exact owes.subscribed h k
  · intro h k due stored
    rw [interest]
    exact .inl ((owes.owed h k due (fewer k stored)).resolve_right (not_ahead free h k))

theorem NotifyRun.Owes.publish (free : s.fanning = none) (key : CellKey) (epoch actors : UInt32) :
    ∃ r s', s.call (.publish key epoch actors) = some (r, s') ∧
      s'.Owes (m.after (.publish key epoch actors) r) := by
  obtain ⟨⟨rc, seq⟩, f', heap', stored, valid, subs, products⟩ :=
    fabricPublishStore_spec owes.store s.heap key epoch actors
  have interest := interest_of_subs subs
  have pending : ∀ h k, m h k = some true → (s.fabric.products k).isSome →
      s.fabric.interest h k = some true := by
    intro h k due present
    exact (owes.owed h k due present).resolve_right (not_ahead free h k)
  refine ⟨_, _, by rw [NotifyRun.call, stored, map_some], ?_⟩
  cases rc with
  | err code =>
    refine ⟨valid, owes.subs.of_subs subs, ?_, ?_⟩
    · intro h k
      rw [interest]
      exact owes.subscribed h k
    · intro h k due present
      rw [interest]
      rw [products] at present
      exact .inl (pending h k due present)
  | ok =>
    refine ⟨valid, owes.subs.of_subs subs, ?_, ?_⟩
    · intro h k
      rw [interest, owes.subscribed h k]
      dsimp only [Interests.after]
      rw [update_apply]
      split
      · rename_i same
        rw [same, isSome_map]
      · rfl
    · intro h k due present
      dsimp only [Interests.after] at due
      rw [update_apply] at due
      split at due
      · -- Every subscription to the cell is still ahead of the fanout.
        rename_i same
        subst same
        have here : (s.fabric.interest h k).isSome := by
          rw [owes.subscribed]
          obtain ⟨flag, before, _⟩ := map_eq_some_iff.mp due
          rw [before]
          rfl
        obtain ⟨sub, found, _⟩ := exists_sub here
        have listed : h ∈ f'.handles := by
          rw [KithFabric.handles, subs, ← sub_handle found]
          exact mem_map_of_mem (mem_of_sub found)
        obtain ⟨i, at_i⟩ := mem_iff_getElem?.mp listed
        exact .inr ⟨0, i, rfl, Nat.zero_le i, at_i⟩
      · rename_i other
        left
        rw [interest]
        apply pending h k due
        rw [products, if_pos rfl, update_of_ne other] at present
        exact present

theorem NotifyRun.Owes.reach (fanning : s.fanning = some (key, j))
    (at_j : s.fabric.subs[j]? = some sub) :
    NotifyRun.Owes { s with
      fabric := s.fabric.setSub (sub.notify key), fanning := some (key, j + 1) } m := by
  have listed : sub ∈ s.fabric.subs := mem_of_getElem? at_j
  have found : s.fabric.sub sub.handle = some sub := owes.subs.sub_iff.mpr ⟨listed, rfl⟩
  obtain ⟨valid, at_handle, notified⟩ := notify_spec (owes.subs.sets sub listed) key
  have subscribed : ∀ k, (sub.interest k).isSome = (m sub.handle k).isSome := by
    intro k
    rw [← owes.subscribed, interest_of_sub found]
  rw [← update_eq_self sub.handle m]
  refine owes.write found at_handle valid ?_ ?_ ?_
  · rintro h k other ⟨j', i, fanning', later, listed'⟩
    rw [fanning] at fanning'
    cases fanning'
    refine ⟨j + 1, i, rfl, ?_, listed'⟩
    rcases Nat.lt_or_eq_of_le later with beyond | rfl
    · exact beyond
    · rw [KithFabric.handles, getElem?_map, at_j, map_some] at listed'
      exact absurd (some.inj listed').symm other
  · intro k
    rw [← subscribed, notified, update_apply]
    split
    · rename_i same
      rw [same, isSome_map]
    · rfl
  · intro k due stored
    rw [notified, update_apply]
    split
    · rename_i same
      obtain ⟨flag, flagged⟩ : ∃ flag, sub.interest key = some flag := by
        rw [← isSome_iff_exists, ← same, subscribed, due]
        rfl
      rw [flagged]
      exact .inl rfl
    · -- The fanout is of another cell, so this one was pending before.
      rename_i other
      rcases owes.owed sub.handle k due stored with pending | ⟨_, _, fanning', _⟩
      · rw [interest_of_sub found] at pending
        exact .inl pending
      · rw [fanning] at fanning'
        cases fanning'
        exact absurd rfl other

theorem NotifyRun.Owes.finish (fanning : s.fanning = some (key, j))
    (at_j : s.fabric.subs[j]? = none) (total : UInt64) :
    NotifyRun.Owes { s with
      fabric := { s.fabric with publishTotal := total }, fanning := none } m := by
  refine ⟨{ owes.store with }, owes.subs.of_subs rfl, owes.subscribed, ?_⟩
  intro h k due stored
  left
  rcases owes.owed h k due stored with pending | ⟨j', i, fanning', later, listed⟩
  · exact pending
  · rw [fanning] at fanning'
    cases fanning'
    have inside := (List.getElem?_eq_some_iff.mp listed).1
    rw [KithFabric.handles, length_map] at inside
    have beyond := getElem?_eq_none_iff.mp at_j
    omega

theorem NotifyRun.Owes.fanout :
    ∃ r s', s.call .fanout = some (r, s') ∧ s'.Owes (m.after .fanout r) := by
  rw [NotifyRun.call]
  split
  · exact ⟨_, _, rfl, owes⟩
  · rename_i key j fanning
    split
    · rename_i sub at_j
      exact ⟨_, _, rfl, owes.reach fanning at_j⟩
    · rename_i at_j
      exact ⟨_, _, rfl, owes.finish fanning at_j _⟩

theorem NotifyRun.Owes.add (handle : Nat) (key : CellKey) :
    ∃ r s', s.call (.add handle key) = some (r, s') ∧ s'.Owes (m.after (.add handle key) r) := by
  rw [NotifyRun.call]
  cases found : s.fabric.sub handle with
  | none => exact ⟨_, _, rfl, owes⟩
  | some sub =>
    have interest := interest_of_sub found
    obtain ⟨rc, sub', added, valid, same, outcome⟩ :=
      kithFabricSubscriptionAdd_spec (owes.subs.sets sub (mem_of_sub found)) key
    dsimp only
    rw [added]
    refine ⟨_, _, rfl, ?_⟩
    rcases outcome with ⟨rfl, raised⟩ | ⟨rfl, rfl⟩
    · refine owes.write found (same.trans (sub_handle found)) valid (fun _ _ _ later => later) ?_ ?_
      · intro k
        rw [raised, update_apply, update_apply]
        split
        · rfl
        · rw [← interest]
          exact owes.subscribed handle k
      · intro k due stored
        rw [update_apply] at due
        have before : m handle k = some true := by
          split at due
          · rename_i here
            subst here
            cases flagged : m handle k with
            | none =>
              rw [flagged] at due
              cases due
            | some flag =>
              rw [flagged] at due
              exact due
          · exact due
        refine (owes.owed handle k before stored).imp (fun pending => ?_) id
        rw [interest] at pending
        rw [raised, update_apply]
        split
        · rename_i here
          rw [← here, pending]
          rfl
        · exact pending
    · rw [setSub_self owes.subs found]
      exact owes

theorem NotifyRun.Owes.remove (handle : Nat) (key : CellKey) :
    ∃ r s', s.call (.remove handle key) = some (r, s') ∧
      s'.Owes (m.after (.remove handle key) r) := by
  rw [NotifyRun.call]
  cases found : s.fabric.sub handle with
  | none => exact ⟨_, _, rfl, owes⟩
  | some sub =>
    have interest := interest_of_sub found
    obtain ⟨sub', removed, valid, same, erased⟩ :=
      kithFabricSubscriptionRemove_spec (owes.subs.sets sub (mem_of_sub found)) key
    dsimp only
    rw [removed]
    refine ⟨_, _, rfl, ?_⟩
    refine owes.write found (same.trans (sub_handle found)) valid (fun _ _ _ later => later) ?_ ?_
    · intro k
      rw [erased, update_apply, update_apply]
      split
      · rfl
      · rw [← interest]
        exact owes.subscribed handle k
    · intro k due stored
      rw [update_apply] at due
      split at due
      · cases due
      · rename_i other
        rw [erased, update_of_ne other, ← interest]
        exact owes.owed handle k due stored

section

variable (free : s.fanning = none)
include free

theorem NotifyRun.Owes.drain (handle : Nat) (out : Option Nat) :
    ∃ r s', s.call (.drain handle out) = some (r, s') ∧
      s'.Owes (m.after (.drain handle out) r) := by
  rw [NotifyRun.call]
  cases found : s.fabric.sub handle with
  | none => exact ⟨_, _, rfl, owes⟩
  | some sub =>
    have interest := interest_of_sub found
    refine ⟨_, _, rfl, ?_⟩
    cases out with
    | none =>
      have kept : (fun key => if key ∈ ([] : List CellProduct).map CellProduct.key then
          (m handle key).map fun _ => false else m handle key) = m handle := by
        funext key
        simp
      dsimp only [kithFabricDrain, Interests.after]
      rw [setSub_self owes.subs found, kept, update_eq_self]
      exact owes
    | some max =>
      have spec := kithFabricDrain_spec owes.store (owes.subs.sets sub (mem_of_sub found)) max
      refine owes.write found (spec.handle.trans (sub_handle found)) spec.valid
        (fun _ _ _ later => later) ?_ ?_
      · intro k
        rw [spec.subscribed, ← interest, owes.subscribed]
        split
        · rw [isSome_map]
        · rfl
      · intro k due stored
        left
        split at due
        · obtain ⟨_, _, down⟩ := map_eq_some_iff.mp due
          cases down
        · rename_i undelivered
          have pending := (owes.owed handle k due stored).resolve_right (not_ahead free handle k)
          rw [interest] at pending
          exact (spec.kept k pending stored undelivered).1

theorem NotifyRun.Owes.erase (valid : f'.Valid) (subs : f'.subs = s.fabric.subs)
    (fewer : ∀ key, f'.product key = none ∨ f'.product key = s.fabric.product key) :
    NotifyRun.Owes ⟨f', s.heap, s.fanning⟩ m := by
  apply owes.shrink valid (owes.subs.of_subs subs) (interest_of_subs subs) free
  intro key stored
  rw [KithFabric.products, isSome_map] at stored ⊢
  rcases fewer key with gone | kept
  · rw [gone] at stored
    cases stored
  · rwa [kept] at stored

theorem NotifyRun.Owes.createSubscription (address : Nat) :
    ∃ r s', s.call (.createSubscription address) = some (r, s') ∧
      s'.Owes (m.after (.createSubscription address) r) := by
  rw [NotifyRun.call]
  split
  · exact ⟨_, _, rfl, owes⟩
  · rename_i unused
    obtain ⟨rc, f', heap', made, subs, interest, same⟩ :=
      kithFabricCreateSubscription_spec owes.subs s.heap (not_isSome_iff_eq_none.mp unused)
    rw [made, map_some]
    have valid : f'.Valid := by
      rw [same]
      exact { owes.store with }
    have products : f'.products = s.fabric.products := by
      rw [same]
      rfl
    refine ⟨_, _, rfl, owes.shrink valid subs interest free fun k stored => ?_⟩
    rwa [products] at stored

theorem NotifyRun.Owes.destroySubscription (handle : Nat) :
    ∃ r s', s.call (.destroySubscription handle) = some (r, s') ∧
      s'.Owes (m.after (.destroySubscription handle) r) := by
  obtain ⟨subs, interest⟩ := kithFabricSubscriptionDestroy_spec owes.subs handle
  obtain ⟨valid, products⟩ := kithFabricSubscriptionDestroy_store owes.store handle
  refine ⟨_, _, rfl, valid, subs, ?_, ?_⟩
  · intro h k
    dsimp only [Interests.after]
    rw [interest, update_apply, update_apply]
    split
    · rfl
    · exact owes.subscribed h k
  · intro h k due stored
    left
    dsimp only [Interests.after] at due stored ⊢
    rw [products] at stored
    rw [interest, update_apply]
    rw [update_apply] at due
    split at due
    · cases due
    · rename_i other
      rw [if_neg other]
      exact (owes.owed h k due stored).resolve_right (not_ahead free h k)

end

/-- Every call that does not wait keeps the account. -/
theorem NotifyRun.Owes.call (op : NotifyOp) (free : op.takesFabricLock = true → s.fanning = none) :
    ∃ r s', s.call op = some (r, s') ∧ s'.Owes (m.after op r) := by
  cases op with
  | publish key epoch actors => exact owes.publish (free rfl) key epoch actors
  | fanout => exact owes.fanout
  | add handle key => exact owes.add handle key
  | remove handle key => exact owes.remove handle key
  | drain handle out => exact owes.drain (free rfl) handle out
  | createSubscription address => exact owes.createSubscription (free rfl) address
  | destroySubscription handle => exact owes.destroySubscription (free rfl) handle
  | removeCell key =>
    obtain ⟨valid, erased⟩ := kithFabricRemoveCell_spec owes.store key
    have fewer : ∀ k, (kithFabricRemoveCell s.fabric key).2.product k = none ∨
        (kithFabricRemoveCell s.fabric key).2.product k = s.fabric.product k := by
      intro k
      rw [erased, update_apply]
      split
      · exact .inl rfl
      · exact .inr rfl
    exact ⟨_, _, rfl, owes.erase (free rfl) valid (kithFabricRemoveCell_subs s.fabric key) fewer⟩
  | removeZone zone =>
    obtain ⟨valid, erased⟩ := kithFabricRemoveZone_spec owes.store zone
    have fewer : ∀ k, (kithFabricRemoveZone s.fabric zone).2.product k = none ∨
        (kithFabricRemoveZone s.fabric zone).2.product k = s.fabric.product k := by
      intro k
      rw [erased]
      dsimp only
      split
      · exact .inl rfl
      · exact .inr rfl
    exact ⟨_, _, rfl, owes.erase (free rfl) valid (kithFabricRemoveZone_subs s.fabric zone) fewer⟩

end Steps

section Fanout

variable {s : NotifyRun} {key : CellKey}

@[simp] theorem notify_handle (sub : Subscription) (key : CellKey) :
    (sub.notify key).handle = sub.handle := by
  rw [Subscription.notify]
  split
  · rfl
  · rfl

theorem setSub_append {f : KithFabric} {front rest : List Subscription} {sub sub' : Subscription}
    (listed : f.subs = front ++ sub :: rest) (distinct : f.handles.Nodup)
    (same : sub'.handle = sub.handle) :
    f.setSub sub' = { f with subs := front ++ sub' :: rest } := by
  rw [KithFabric.handles, listed, map_append, map_cons, nodup_middle,
    nodup_cons, ← map_append] at distinct
  have others : ∀ old ∈ front ++ rest, ¬ old.handle = sub'.handle := by
    intro old member equal
    exact distinct.1 (mem_map.mpr ⟨old, member, equal.trans same⟩)
  have kept : ∀ part : List Subscription, (∀ old ∈ part, old ∈ front ++ rest) →
      (part.map fun old => if old.handle = sub'.handle then sub' else old) = part := by
    intro part within
    refine (map_congr_left fun old member => ?_).trans (map_id _)
    exact if_neg (others old (within old member))
  rw [KithFabric.setSub, listed, map_append, map_cons, if_pos same.symm,
    kept front (fun _ => mem_append_left _), kept rest (fun _ => mem_append_right _)]

/-- The fanout that is not interleaved with anything is the loop of the source. -/
theorem fanout_run (rest : List Subscription) : ∀ {s : NotifyRun} {front : List Subscription},
    s.fabric.subs = front ++ rest → s.fabric.handles.Nodup →
    s.fanning = some (key, front.length) →
    run NotifyRun.step s (replicate (rest.length + 1) .fanout) =
      some (replicate (rest.length + 1) (.done .ok),
        ⟨{ s.fabric with
            subs := front ++ rest.map fun sub => sub.notify key
            publishTotal := s.fabric.publishTotal + 1 }, s.heap, none⟩) := by
  induction rest with
  | nil =>
    intro s front listed _ fanning
    have beyond : s.fabric.subs[front.length]? = none := by simp [listed]
    have stepped : s.step .fanout = some (.done .ok,
        ⟨{ s.fabric with publishTotal := s.fabric.publishTotal + 1 }, s.heap, none⟩) := by
      simp [NotifyRun.step, NotifyRun.call, NotifyOp.takesFabricLock, fanning, beyond]
    simp only [length_nil, Nat.zero_add, replicate_one, run, stepped, map_some, map_nil, ← listed]
  | cons sub rest ih =>
    intro s front listed distinct fanning
    have here : s.fabric.subs[front.length]? = some sub := by simp [listed]
    have written := setSub_append listed distinct (notify_handle sub key)
    have stepped : s.step .fanout = some (.done .ok,
        ⟨s.fabric.setSub (sub.notify key), s.heap, some (key, front.length + 1)⟩) := by
      simp [NotifyRun.step, NotifyRun.call, NotifyOp.takesFabricLock, fanning, here]
    have ran := @ih ⟨s.fabric.setSub (sub.notify key), s.heap, some (key, front.length + 1)⟩
      (front ++ [sub.notify key]) (by rw [written, append_assoc]; rfl)
      (by rw [handles_setSub]; exact distinct) (by rw [length_append]; rfl)
    rw [length_cons, replicate_succ, run, stepped]
    dsimp only
    rw [ran, map_some, written]
    simp only [replicate_succ, append_assoc, singleton_append, map_cons]

/-- Uninterrupted, the steps of a publish that succeeds are `kith_fabric_publish`. -/
theorem publish_run (free : s.fanning = none) (distinct : s.fabric.handles.Nodup)
    {epoch actors : UInt32} {result : Published} {f' : KithFabric}
    (published : kithFabricPublish s.fabric s.heap key epoch actors = some (result, f', heap'))
    (ok : result.rc = .ok) :
    run NotifyRun.step s (.publish key epoch actors ::
        replicate (s.fabric.subs.length + 1) .fanout) =
      some (.published result :: replicate (s.fabric.subs.length + 1) (.done .ok),
        ⟨f', heap', none⟩) := by
  rw [kithFabricPublish_eq] at published
  obtain ⟨⟨result', f₁, heap₁⟩, stored, same⟩ := map_eq_some_iff.mp published
  cases same
  have subs := fabricPublishStore_subs stored
  have stepped : s.step (.publish key epoch actors) =
      some (.published result, ⟨f₁, heap', some (key, 0)⟩) := by
    simp [NotifyRun.step, NotifyRun.call, free, stored, ok]
  have ran := @fanout_run key s.fabric.subs ⟨f₁, heap', some (key, 0)⟩ [] subs
    (by rw [KithFabric.handles, subs]; exact distinct) rfl
  rw [run, stepped]
  dsimp only
  rw [ran, map_some, if_pos ok, ← subs]
  rfl

/-- Two fanout steps: one subscription, which has asked for the cell. -/
theorem publish_uninterrupted : ∃ replies s', run NotifyRun.step
    ⟨{ sampleFabric with subs := [⟨3, fun _ => ⟨⟨1, 0, 0, 0, 0⟩, true, false, false⟩, 1, 1⟩] },
      ⟨fun _ _ => true, 19⟩, none⟩ (.publish ⟨1, 0, 0, 0, 0⟩ 5 2 :: replicate 2 .fanout) =
      some (replies, s') :=
  ⟨_, _, publish_run rfl (by decide) rfl rfl⟩

end Fanout

section Notifications

theorem NotifyRun.step_owes (m : Interests) (op : NotifyOp) (owes : s.Owes m) (_ : True) :
    ∃ r s' m', s.step op = some (r, s') ∧ m' = m.after op r ∧ s'.Owes m' := by
  rw [NotifyRun.step]
  split
  · refine ⟨.waits, s, m, rfl, ?_, owes⟩
    cases op <;> rfl
  · rename_i unblocked
    have free : op.takesFabricLock = true → s.fanning = none := by
      intro locks
      rw [← not_isSome_iff_eq_none]
      exact fun held => unblocked ⟨held, locks⟩
    obtain ⟨r, s', called, owes'⟩ := owes.call op free
    exact ⟨r, s', _, called, rfl, owes'⟩

/-- No notification is lost under any interleaving: a cell that a subscription is owed
and that is still stored is pending, or the fanout that holds the fabric lock has yet to
reach the subscription. With the lock free a drain returns pending stored cells, each
once, with its latest product and in the documented order, and keeps pending what it has
no room for; a counting drain changes nothing. -/
theorem no_lost_notification {params : Option FabricParams} {f : KithFabric}
    {heap heap' : Heap FabricSite} (created : kithFabricCreate params heap = some (.ok f, heap'))
    (ops : List NotifyOp) :
    ∃ replies s', run NotifyRun.step ⟨f, heap', none⟩ ops = some (replies, s') ∧
      (∀ handle key, (s'.fabric.interest handle key).isSome =
        (interestsOf ops replies handle key).isSome) ∧
      (∀ handle key, interestsOf ops replies handle key = some true →
        (s'.fabric.products key).isSome →
          s'.fabric.interest handle key = some true ∨ s'.Ahead handle key) ∧
      (s'.fanning = none → ∀ handle sub, s'.fabric.sub handle = some sub →
        (∃ count, s'.step (.drain handle none) = some (.drained count [], s')) ∧
        ∀ max, ∃ d, s'.step (.drain handle (some max)) =
            some (.drained d.count d.out, { s' with fabric := s'.fabric.setSub d.sub }) ∧
          DrainSpec s'.fabric sub max d) := by
  obtain ⟨valid, empty⟩ := kithFabricCreate_valid created
  have blank : f.subs = [] := by
    obtain ⟨buckets, _, _, rfl, _⟩ := kithFabricCreate_inv created
    rfl
  have start : NotifyRun.Owes ⟨f, heap', none⟩ fun _ _ => none := by
    refine ⟨valid, ⟨?_, ?_⟩, ?_, ?_⟩
    · intro sub listed
      rw [blank] at listed
      cases listed
    · rw [KithFabric.handles, blank]
      exact List.nodup_nil
    · intro handle key
      rw [KithFabric.interest, KithFabric.sub, blank]
      rfl
    · intro handle key due
      cases due
  obtain ⟨replies, s', m, ran, trace, owes⟩ := run_simulates NotifyRun.step_owes start ops
    (along_of_forall (fun _ _ => trivial) _ ops)
  obtain rfl : m = interestsOf ops replies := trace.end_eq fun _ _ _ _ h => h
  refine ⟨replies, s', ran, owes.subscribed, owes.owed, ?_⟩
  intro free handle sub found
  have call : ∀ out, s'.step (.drain handle out) =
      some (.drained (kithFabricDrain s'.fabric sub out).count
        (kithFabricDrain s'.fabric sub out).out,
        { s' with fabric := s'.fabric.setSub (kithFabricDrain s'.fabric sub out).sub }) := by
    intro out
    simp [NotifyRun.step, NotifyRun.call, free, found]
  constructor
  · refine ⟨(kithFabricDrain s'.fabric sub none).count, ?_⟩
    have kept : s'.fabric.setSub (kithFabricDrain s'.fabric sub none).sub = s'.fabric :=
      setSub_self owes.subs found
    rw [call none, kept]
    rfl
  · intro max
    exact ⟨_, call (some max),
      kithFabricDrain_spec owes.store (owes.subs.sets sub (mem_of_sub found)) max⟩

/-- A cell is added while the fanout of its publish is under way, and drained without room. -/
def racingOps : List NotifyOp :=
  [.createSubscription 3, .createSubscription 8, .add 3 ⟨1, 0, 0, 0, 0⟩,
    .publish ⟨1, 0, 0, 0, 0⟩ 5 2, .fanout, .add 8 ⟨1, 0, 0, 0, 0⟩, .fanout, .fanout,
    .drain 3 (some 0), .drain 3 none]

theorem racingOps_notified :
    ∃ replies s', run NotifyRun.step ⟨sampleFabric, ⟨fun _ _ => true, 19⟩, none⟩ racingOps =
        some (replies, s') ∧
      ∀ handle key, interestsOf racingOps replies handle key = some true →
        (s'.fabric.products key).isSome →
          s'.fabric.interest handle key = some true ∨ s'.Ahead handle key := by
  obtain ⟨replies, s', ran, _, owed, _⟩ := no_lost_notification sampleFabric_created racingOps
  exact ⟨replies, s', ran, owed⟩

end Notifications

end Kith.Fabric
