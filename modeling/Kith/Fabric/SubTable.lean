import Kith.Fabric.Subscriptions

/-!
# The table of subscriptions

The fabric lists its subscriptions in an array that grows at its end and gives up
an entry by moving the last one there. Callers hold addresses, so a table means
the same whatever the order of its entries.
-/

namespace Kith.Fabric

open LinearProbe SwapRemove Function List

def KithFabric.interest (f : KithFabric) (handle : Nat) (key : CellKey) : Option Bool :=
  (f.sub handle).bind fun sub => sub.interest key

def KithFabric.handles (f : KithFabric) : List Nat := f.subs.map Subscription.handle

structure KithFabric.Subscribed (f : KithFabric) : Prop where
  sets : ∀ sub ∈ f.subs, sub.Valid
  distinct : f.handles.Nodup

section Table

variable {f f' : KithFabric} {sub old : Subscription} {handle : Nat} {key : CellKey}

theorem sub_handle (found : f.sub handle = some sub) : sub.handle = handle := by
  have matched := find?_some found
  simpa using matched

theorem mem_of_sub (found : f.sub handle = some sub) : sub ∈ f.subs := mem_of_find?_eq_some found

theorem KithFabric.Subscribed.sub_iff (subs : f.Subscribed) :
    f.sub handle = some sub ↔ sub ∈ f.subs ∧ sub.handle = handle := by
  constructor
  · intro found
    exact ⟨mem_of_sub found, sub_handle found⟩
  · rintro ⟨listed, rfl⟩
    have here : (f.sub sub.handle).isSome := by
      rw [KithFabric.sub, find?_isSome]
      exact ⟨sub, listed, by simp⟩
    obtain ⟨other, found⟩ := Option.isSome_iff_exists.mp here
    have same := inj_on_of_nodup_map subs.distinct (mem_of_sub found) listed (sub_handle found)
    rw [found, same]

theorem sub_eq_none_iff : f.sub handle = none ↔ handle ∉ f.handles := by
  rw [KithFabric.sub, find?_eq_none, KithFabric.handles, mem_map, not_exists]
  simp

/-- Tables with the same subscriptions answer alike, in whatever order they list them. -/
theorem sub_congr (subs : f.Subscribed) (subs' : f'.Subscribed)
    (same : ∀ sub, sub.handle = handle → (sub ∈ f'.subs ↔ sub ∈ f.subs)) :
    f'.sub handle = f.sub handle := by
  ext sub
  rw [subs.sub_iff, subs'.sub_iff]
  exact and_congr_left fun at_handle => same sub at_handle

@[simp] theorem handles_setSub (f : KithFabric) (sub : Subscription) :
    (f.setSub sub).handles = f.handles := by
  rw [KithFabric.handles, KithFabric.setSub, map_map, KithFabric.handles]
  apply map_congr_left
  intro old _
  dsimp only [comp_apply]
  split
  · rename_i same
    exact same.symm
  · rfl

theorem sub_setSub (f : KithFabric) (sub : Subscription) (handle : Nat) :
    (f.setSub sub).sub handle =
      if handle = sub.handle then (f.sub handle).map fun _ => sub else f.sub handle := by
  have write : ∀ old : Subscription,
      (if old.handle = sub.handle then sub else old).handle = old.handle := by
    intro old
    split
    · rename_i same
      exact same.symm
    · rfl
  have found : (f.setSub sub).sub handle =
      (f.sub handle).map fun old => if old.handle = sub.handle then sub else old := by
    simp only [KithFabric.sub, KithFabric.setSub, find?_map, comp_def, write]
  rw [found]
  cases here : f.sub handle with
  | none => simp
  | some old =>
    rw [Option.map_some, sub_handle here, Option.map_some]
    split
    · rfl
    · rfl

theorem setSub_self (subs : f.Subscribed) (found : f.sub handle = some sub) : f.setSub sub = f := by
  have kept : (f.subs.map fun old => if old.handle = sub.handle then sub else old) = f.subs := by
    refine map_congr_left (fun old listed => ?_) |>.trans (map_id _)
    split
    · rename_i same
      exact inj_on_of_nodup_map subs.distinct (mem_of_sub found) listed same.symm
    · rfl
  rw [KithFabric.setSub, kept]

theorem setSub_subscribed (subs : f.Subscribed) (valid : sub.Valid) :
    (f.setSub sub).Subscribed := by
  constructor
  · intro sub' listed
    obtain ⟨old, before, rfl⟩ := mem_map.mp listed
    split
    · exact valid
    · exact subs.sets old before
  · rw [handles_setSub]
    exact subs.distinct

theorem setSub_interest (found : f.sub handle = some old) (at_handle : sub.handle = handle) :
    (f.setSub sub).interest = update f.interest handle sub.interest := by
  subst at_handle
  funext h key
  rw [KithFabric.interest, sub_setSub, update_apply]
  split
  · rename_i same
    rw [same, found]
    rfl
  · rfl

theorem interest_of_sub (found : f.sub handle = some sub) : f.interest handle = sub.interest := by
  funext key
  rw [KithFabric.interest, found]
  rfl

theorem interest_of_subs (same : f'.subs = f.subs) : f'.interest = f.interest := by
  funext handle key
  rw [KithFabric.interest, KithFabric.sub, same]
  rfl

theorem KithFabric.Subscribed.of_subs (subs : f.Subscribed) (same : f'.subs = f.subs) :
    f'.Subscribed := by
  constructor
  · rw [same]
    exact subs.sets
  · rw [KithFabric.handles, same]
    exact subs.distinct

theorem exists_sub (subscribed : (f.interest handle key).isSome) :
    ∃ sub, f.sub handle = some sub ∧ (sub.interest key).isSome := by
  obtain ⟨flag, found⟩ := Option.isSome_iff_exists.mp subscribed
  obtain ⟨sub, here, flagged⟩ := Option.bind_eq_some_iff.mp found
  exact ⟨sub, here, by rw [flagged]; rfl⟩

section

variable (subs : f.Subscribed)
include subs

theorem fabricSubTableAdd_spec (heap : Heap FabricSite) (valid : sub.Valid)
    (blank : sub.interest = fun _ => none) (unused : f.sub sub.handle = none) :
    ∃ rc f' heap', fabricSubTableAdd f heap sub = (rc, f', heap') ∧ f'.Subscribed ∧
      f'.interest = f.interest ∧ f' = { f with subs := f'.subs, subCap := f'.subCap } := by
  have joined : ∀ cap, (KithFabric.Subscribed { f with subs := f.subs ++ [sub], subCap := cap }) ∧
      KithFabric.interest { f with subs := f.subs ++ [sub], subCap := cap } = f.interest := by
    intro cap
    refine ⟨⟨?_, ?_⟩, ?_⟩
    · intro other listed
      rcases mem_append.mp listed with before | new
      · exact subs.sets other before
      · rw [mem_singleton.mp new]
        exact valid
    · rw [KithFabric.handles, map_append]
      refine nodup_append.mpr ⟨subs.distinct, nodup_singleton _, ?_⟩
      rintro h before h' new rfl
      rw [map_singleton, mem_singleton] at new
      exact sub_eq_none_iff.mp unused (new ▸ before)
    · funext h key
      simp only [KithFabric.interest, KithFabric.sub, find?_append]
      cases here : f.subs.find? fun s => s.handle = h with
      | some other => rfl
      | none =>
        rw [Option.none_or]
        by_cases same : sub.handle = h
        · simp [same, blank]
        · simp [same]
  rw [fabricSubTableAdd]
  split
  · split
    · exact ⟨_, _, _, rfl, subs, rfl, rfl⟩
    · exact ⟨_, _, _, rfl, (joined _).1, (joined _).2, rfl⟩
  · exact ⟨_, _, _, rfl, (joined f.subCap).1, (joined f.subCap).2, rfl⟩

theorem kithFabricCreateSubscription_spec (heap : Heap FabricSite) (unused : f.sub handle = none) :
    ∃ rc f' heap', kithFabricCreateSubscription f heap handle = some (rc, f', heap') ∧
      f'.Subscribed ∧ f'.interest = f.interest ∧
      f' = { f with subs := f'.subs, subCap := f'.subCap } := by
  have buckets : fabricResolveBuckets 4096 = some 4096 := by decide +kernel
  rw [kithFabricCreateSubscription, buckets]
  split
  · exact ⟨_, _, _, rfl, subs, rfl, rfl⟩
  · rw [Option.map_some]
    split
    · exact ⟨_, _, _, rfl, subs, rfl, rfl⟩
    · rename_i sub heap made
      obtain ⟨valid, rfl, blank⟩ := fabricSubInit_spec (b := 12) made
      obtain ⟨rc, f', heap', added, spec⟩ := fabricSubTableAdd_spec subs heap valid blank unused
      exact ⟨rc, f', heap', congrArg some added, spec⟩

theorem swapRemove_subs {i : Nat} (found : f.subs[i]? = some sub) :
    KithFabric.Subscribed { f with subs := swapRemove f.subs i } ∧
      KithFabric.interest { f with subs := swapRemove f.subs i } =
        update f.interest sub.handle fun _ => none := by
  have perm : (sub :: swapRemove f.subs i).Perm f.subs := swapRemove_perm found
  have handles : (sub.handle :: (swapRemove f.subs i).map Subscription.handle).Nodup :=
    (perm.map Subscription.handle).nodup_iff.mpr subs.distinct
  obtain ⟨gone, distinct⟩ := nodup_cons.mp handles
  have subs' : KithFabric.Subscribed { f with subs := swapRemove f.subs i } :=
    ⟨fun other listed => subs.sets other (perm.mem_iff.mp (mem_cons_of_mem _ listed)), distinct⟩
  refine ⟨subs', ?_⟩
  funext h key
  rw [update_apply, KithFabric.interest]
  split
  · rename_i same
    rw [same, sub_eq_none_iff.mpr gone]
    rfl
  · rename_i other
    rw [sub_congr subs subs', KithFabric.interest]
    intro sub' at_handle
    rw [← perm.mem_iff, mem_cons]
    constructor
    · exact .inr
    · rintro (rfl | kept)
      · exact absurd at_handle.symm other
      · exact kept

theorem kithFabricSubscriptionDestroy_spec (handle : Nat) :
    (kithFabricSubscriptionDestroy f handle).Subscribed ∧
      (kithFabricSubscriptionDestroy f handle).interest =
        update f.interest handle fun _ => none := by
  rw [kithFabricSubscriptionDestroy, fabricSubTableRemove]
  cases at_index : f.subs.findIdx? fun sub => sub.handle = handle with
  | none =>
    have absent : f.sub handle = none := by
      rw [KithFabric.sub, find?_eq_none]
      simpa using findIdx?_eq_none_iff.mp at_index
    have none_here : f.interest handle = fun _ => none := by
      funext key
      rw [KithFabric.interest, absent]
      rfl
    refine ⟨subs, ?_⟩
    rw [← none_here, update_eq_self]
  | some i =>
    obtain ⟨inside, matched, _⟩ := findIdx?_eq_some_iff_getElem.mp at_index
    rw [← of_decide_eq_true matched]
    exact swapRemove_subs subs (getElem?_eq_getElem inside)

end

theorem kithFabricSubscriptionDestroy_store (valid : f.Valid) (handle : Nat) :
    (kithFabricSubscriptionDestroy f handle).Valid ∧
      (kithFabricSubscriptionDestroy f handle).products = f.products := by
  rw [kithFabricSubscriptionDestroy, fabricSubTableRemove]
  split
  · exact ⟨valid, rfl⟩
  · exact ⟨{ valid with }, rfl⟩

end Table

end Kith.Fabric
