import Kith.Fabric.Stream
import Kith.Lib.SwapRemove
import Mathlib.Data.Prod.Lex

/-!
# Subscriptions of the fabric

A subscription is a probed table of fixed size with a pending flag for each cell.
A publish sets the flag in every subscription to its cell; a drain copies out the
products of the pending cells, newest first, and clears their flags.
-/

namespace Kith.Fabric

open LinearProbe SwapRemove Function List Option

section Sets

def SubNode.zero : SubNode := ⟨⟨0, 0, 0, 0, 0⟩, false, false, false⟩

variable (sub : Subscription)

def fabricSubFind (key : CellKey) : Option Nat :=
  lookup subLayout sub.buckets sub.nodes (fabricCellMix key) key

def kithFabricSubscriptionAdd (key : CellKey) : Rc × Subscription :=
  match fabricSubFind sub key with
  | some _ => (.ok, sub)
  | none =>
    match place subLayout sub.buckets sub.nodes (fabricCellMix key) with
    | .fresh i _ =>
      (.ok, { sub with
        nodes := update sub.nodes i ⟨key, true, false, false⟩
        count := sub.count + 1 })
    -- Without a never-used bucket the first tombstone is taken; it stays `used`.
    | .full (some i) =>
      (.ok, { sub with
        nodes := update sub.nodes i
          { sub.nodes i with deleted := false, pending := false, key := key }
        count := sub.count + 1 })
    | .full none => (.err .enomem, sub)

def kithFabricSubscriptionRemove (key : CellKey) : Rc × Subscription :=
  match fabricSubFind sub key with
  | none => (.ok, sub)
  | some i =>
    (.ok, { sub with
      nodes := update sub.nodes i { sub.nodes i with deleted := true }
      count := if sub.count > 0 then sub.count - 1 else sub.count })

end Sets

section Drains

/-- Newest first; the products of one sequence number in the order of their keys. -/
def fabricProdCmpSeqDesc (a b : CellProduct) : Int :=
  if a.publishSeq < b.publishSeq then 1
  else if a.publishSeq > b.publishSeq then -1
  else if a.key.zone ≠ b.key.zone then if a.key.zone < b.key.zone then -1 else 1
  else if a.key.cellX ≠ b.key.cellX then if a.key.cellX < b.key.cellX then -1 else 1
  else if a.key.cellY ≠ b.key.cellY then if a.key.cellY < b.key.cellY then -1 else 1
  else if a.key.cellZ ≠ b.key.cellZ then if a.key.cellZ < b.key.cellZ then -1 else 1
  else if a.key.lod ≠ b.key.lod then if a.key.lod < b.key.lod then -1 else 1
  else 0

/-- `qsort`. The keys of a drain are distinct, so the comparator leaves one order. -/
def sortProducts (out : List CellProduct) : List CellProduct :=
  out.mergeSort fun a b => decide (fabricProdCmpSeqDesc a b ≤ 0)

/-- One round of the copying drain, on the interest set and the output so far. -/
def fabricDrainBucket (f : KithFabric) (max : Nat) (state : Subscription × List CellProduct)
    (i : Nat) : Subscription × List CellProduct :=
  let (sub, out) := state
  let n := sub.nodes i
  if n.used = false ∨ n.deleted = true ∨ n.pending = false then (sub, out)
  else if out.length = max then (sub, out)
  else
    ({ sub with nodes := update sub.nodes i { n with pending := false } },
      match fabricCellLookup (f.shardOf n.key) n.key with
      | none => out
      | some c => out ++ [fabricFillProduct ((f.shardOf n.key).cells c)])

/-- What a drain reports in `*out_count`, what it copies, and the set it leaves. -/
structure Drained where
  count : Nat
  out : List CellProduct
  sub : Subscription

/-- Without an output buffer (`none`) the drain only counts; `some max` is a buffer
for `max` products. -/
def kithFabricDrain (f : KithFabric) (sub : Subscription) : Option Nat → Drained
  | none =>
    ⟨(List.range sub.buckets).countP fun i =>
      (sub.nodes i).used && !(sub.nodes i).deleted && (sub.nodes i).pending, [], sub⟩
  | some max =>
    match (List.range sub.buckets).foldl (fabricDrainBucket f max) (sub, []) with
    | (sub, out) => ⟨out.length, if 1 < out.length then sortProducts out else out, sub⟩

end Drains

section Handles

variable (f : KithFabric)

def KithFabric.sub (handle : Nat) : Option Subscription :=
  f.subs.find? fun sub => sub.handle = handle

def KithFabric.setSub (sub : Subscription) : KithFabric :=
  { f with subs := f.subs.map fun old => if old.handle = sub.handle then sub else old }

def fabricSubTableAdd (heap : Heap FabricSite) (sub : Subscription) :
    Rc × KithFabric × Heap FabricSite :=
  if f.subs.length = f.subCap then
    match heap.request .subTable with
    | (false, heap) => (.err .enomem, f, heap)
    | (true, heap) =>
      (.ok, { f with
        subs := f.subs ++ [sub]
        subCap := if f.subCap = 0 then 8 else f.subCap * 2 }, heap)
  else (.ok, { f with subs := f.subs ++ [sub] }, heap)

def fabricSubTableRemove (handle : Nat) : KithFabric :=
  match f.subs.findIdx? fun sub => sub.handle = handle with
  | none => f
  | some i => { f with subs := swapRemove f.subs i }

/-- A mutex that cannot be initialised reports as an allocation failure. -/
def fabricSubInit (heap : Heap FabricSite) (handle buckets : Nat) :
    Except KithError Subscription × Heap FabricSite :=
  match heap.request .subNodes with
  | (false, heap) => (.error .enomem, heap)
  | (true, heap) =>
    match heap.request .subLock with
    | (false, heap) => (.error .enomem, heap)
    | (true, heap) => (.ok ⟨handle, fun _ => SubNode.zero, buckets, 0⟩, heap)

/-- `handle` is the address of the new subscription. -/
def kithFabricCreateSubscription (heap : Heap FabricSite) (handle : Nat) :
    Option (Rc × KithFabric × Heap FabricSite) :=
  match heap.request .subscription with
  | (false, heap) => some (.err .enomem, f, heap)
  | (true, heap) =>
    (fabricResolveBuckets 4096).map fun buckets =>
      match fabricSubInit heap handle buckets.toNat with
      | (.error code, heap) => (.err code, f, heap)
      | (.ok sub, heap) => fabricSubTableAdd f heap sub

def kithFabricSubscriptionDestroy (handle : Nat) : KithFabric :=
  fabricSubTableRemove f handle

end Handles

section Order

/-- The place of a product in the documented order. -/
def CellProduct.rank (p : CellProduct) : ℤ ×ₗ ℤ ×ₗ ℤ ×ₗ ℤ ×ₗ ℤ ×ₗ ℤ :=
  toLex (-p.publishSeq.toNat, toLex (p.key.zone.toNat, toLex (p.key.cellX.toInt,
    toLex (p.key.cellY.toInt, toLex (p.key.cellZ.toInt, p.key.lod.toNat)))))

/-- A comparator result that says how two elements of an order stand. -/
def Compares {α : Type} [LT α] [LE α] (result : Int) (u v : α) : Prop :=
  (result ≤ 0 ↔ u ≤ v) ∧ (result < 0 ↔ u < v)

section Tiers

variable {α : Type} [Preorder α] {u v : α} {x y result : ℤ} {p q : Prop} [Decidable p] [Decidable q]

theorem Compares.tier (apart : p ↔ x ≠ y) (below : q ↔ x < y) (inner : Compares result u v) :
    Compares (if p then if q then -1 else 1 else result) (toLex (x, u)) (toLex (y, v)) := by
  rw [Compares, Prod.Lex.toLex_le_toLex, Prod.Lex.toLex_lt_toLex]
  rcases lt_trichotomy x y with less | rfl | more
  · simp [apart, below, less, less.ne]
  · simpa [apart, Compares] using inner
  · simp [apart, below, more.ne', more.not_gt]

theorem Compares.last (apart : p ↔ x ≠ y) (below : q ↔ x < y) :
    Compares (if p then if q then -1 else 1 else 0) x y := by
  rcases lt_trichotomy x y with less | rfl | more
  · simp [Compares, apart, below, less, less.ne, less.le]
  · simp [Compares, apart]
  · simp [Compares, apart, below, more.ne', more.not_gt, more.not_ge]

theorem Compares.descending (below : p ↔ x < y) (above : q ↔ y < x) (inner : Compares result u v) :
    Compares (if p then 1 else if q then -1 else result) (toLex (-x, u)) (toLex (-y, v)) := by
  rw [Compares, Prod.Lex.toLex_le_toLex, Prod.Lex.toLex_lt_toLex]
  rcases lt_trichotomy x y with less | rfl | more
  · simp [below, less, less.ne, less.not_gt]
  · simpa [below, above, Compares] using inner
  · simp [below, above, more, more.not_gt]

end Tiers

variable {a b : CellProduct}

theorem cmp_compares : Compares (fabricProdCmpSeqDesc a b) a.rank b.rank := by
  have lod : Compares _ _ _ := .last (p := a.key.lod ≠ b.key.lod) (q := a.key.lod < b.key.lod)
    (x := a.key.lod.toNat) (y := b.key.lod.toNat) (by simp [← UInt8.toNat_inj])
    (by simp [UInt8.lt_iff_toNat_lt])
  have cellZ := lod.tier (p := a.key.cellZ ≠ b.key.cellZ) (not_congr Int32.toInt_inj.symm)
    Int32.lt_iff_toInt_lt
  have cellY := cellZ.tier (p := a.key.cellY ≠ b.key.cellY) (not_congr Int32.toInt_inj.symm)
    Int32.lt_iff_toInt_lt
  have cellX := cellY.tier (p := a.key.cellX ≠ b.key.cellX) (not_congr Int32.toInt_inj.symm)
    Int32.lt_iff_toInt_lt
  have zone := cellX.tier (p := a.key.zone ≠ b.key.zone) (q := a.key.zone < b.key.zone)
    (x := a.key.zone.toNat) (y := b.key.zone.toNat) (by simp [← UInt32.toNat_inj])
    (by simp [UInt32.lt_iff_toNat_lt])
  exact zone.descending (by simp [UInt64.lt_iff_toNat_lt]) (by simp [UInt64.lt_iff_toNat_lt])

theorem cmp_nonpos_iff : fabricProdCmpSeqDesc a b ≤ 0 ↔ a.rank ≤ b.rank := cmp_compares.1

theorem CellProduct.key_of_rank (same : a.rank = b.rank) : a.key = b.key := by
  obtain ⟨⟨zone, x, y, z, lod⟩, _⟩ := a
  simp only [CellProduct.rank, EmbeddingLike.apply_eq_iff_eq, Prod.mk.injEq, Nat.cast_inj,
    UInt32.toNat_inj, UInt8.toNat_inj, Int32.toInt_inj] at same
  obtain ⟨_, rfl, rfl, rfl, rfl, rfl⟩ := same
  rfl

theorem sortProducts_sorted {out : List CellProduct} (distinct : (out.map CellProduct.key).Nodup) :
    (sortProducts out).Pairwise fun a b => fabricProdCmpSeqDesc a b < 0 := by
  have sorted : (sortProducts out).Pairwise fun a b =>
      decide (fabricProdCmpSeqDesc a b ≤ 0) = true := by
    apply pairwise_mergeSort
    · intro a b c
      simp only [decide_eq_true_eq, cmp_nonpos_iff]
      exact le_trans
    · intro a b
      simp only [Bool.or_eq_true, decide_eq_true_eq, cmp_nonpos_iff]
      exact le_total _ _
  have keys : ((sortProducts out).map CellProduct.key).Nodup :=
    ((mergeSort_perm out _).map _).nodup_iff.mpr distinct
  rw [List.Nodup, pairwise_map] at keys
  refine (sorted.and keys).imp ?_
  rintro a b ⟨below, apart⟩
  rw [decide_eq_true_eq, cmp_nonpos_iff] at below
  exact cmp_compares.2.mpr <| lt_of_le_of_ne below fun same => apart (CellProduct.key_of_rank same)

end Order

section Interest

/-- The interest set as a map: the pending flag of each cell that is subscribed. -/
def Subscription.interest (sub : Subscription) (key : CellKey) : Option Bool :=
  (entry subLayout sub.buckets sub.nodes fabricCellMix key).map SubNode.pending

structure Subscription.Valid (sub : Subscription) : Prop where
  table : ∃ tombs, Counted subLayout fabricCellMix sub.buckets sub.nodes sub.count tombs

variable {sub sub' : Subscription} {key : CellKey} {i : Nat}

theorem interest_update (sub sub' : Subscription) {o : Option SubNode}
    (written : entry subLayout sub'.buckets sub'.nodes fabricCellMix =
      update (entry subLayout sub.buckets sub.nodes fabricCellMix) key o) :
    sub'.interest = update sub.interest key (o.map SubNode.pending) := by
  funext k
  rw [Subscription.interest, written, update_apply, update_apply]
  split
  · rfl
  · rfl

theorem interest_of_find_none (missing : fabricSubFind sub key = none) :
    entry subLayout sub.buckets sub.nodes fabricCellMix key = none :=
  map_eq_none_iff.mpr missing

section

variable (valid : sub.Valid)
include valid

theorem Subscription.Valid.find_holds (found : fabricSubFind sub key = some i) :
    Holds subLayout sub.buckets sub.nodes key i := by
  obtain ⟨_, table⟩ := valid.table
  exact table.lookup_iff.mp found

theorem Subscription.Valid.interest_of_holds (holds : Holds subLayout sub.buckets sub.nodes key i) :
    sub.interest key = some (sub.nodes i).pending := by
  obtain ⟨_, table⟩ := valid.table
  rw [Subscription.interest, table.entry_of_holds holds]
  rfl

theorem Subscription.Valid.exists_holds {flag : Bool} (subscribed : sub.interest key = some flag) :
    ∃ i, Holds subLayout sub.buckets sub.nodes key i ∧ (sub.nodes i).pending = flag := by
  obtain ⟨n, found, rfl⟩ := map_eq_some_iff.mp subscribed
  obtain ⟨i, looked, rfl⟩ := map_eq_some_iff.mp found
  exact ⟨i, valid.find_holds looked, rfl⟩

theorem Subscription.Valid.mark (flag : Bool)
    (holds : Holds subLayout sub.buckets sub.nodes key i) :
    Subscription.Valid { sub with
      nodes := update sub.nodes i { sub.nodes i with pending := flag } } ∧
    Subscription.interest { sub with
      nodes := update sub.nodes i { sub.nodes i with pending := flag } } =
      update sub.interest key (some flag) := by
  obtain ⟨tombs, table⟩ := valid.table
  obtain ⟨after, _, written⟩ :=
    table.modify (c := { sub.nodes i with pending := flag }) holds holds.2.1 holds.2.2
  refine ⟨⟨tombs, after⟩, ?_⟩
  rw [interest_update sub _ written, map_some]

theorem Subscription.Valid.open_bucket (missing : fabricSubFind sub key = none)
    (opened : Open subLayout sub.buckets sub.nodes (fabricCellMix key) i) :
    Subscription.Valid { sub with
      nodes := update sub.nodes i ⟨key, true, false, false⟩, count := sub.count + 1 } ∧
    Subscription.interest { sub with
      nodes := update sub.nodes i ⟨key, true, false, false⟩, count := sub.count + 1 } =
      update sub.interest key (some false) := by
  obtain ⟨tombs, table⟩ := valid.table
  obtain ⟨after, _, written⟩ := table.fill (c := ⟨key, true, false, false⟩)
    (interest_of_find_none missing) opened rfl rfl
  refine ⟨⟨_, after⟩, ?_⟩
  rw [interest_update sub _ written, map_some]

theorem kithFabricSubscriptionAdd_spec (key : CellKey) :
    ∃ rc sub', kithFabricSubscriptionAdd sub key = (rc, sub') ∧ sub'.Valid ∧
      sub'.handle = sub.handle ∧
      (rc = .ok ∧ sub'.interest =
          update sub.interest key (some ((sub.interest key).getD false)) ∨
        rc = .err .enomem ∧ sub' = sub) := by
  cases found : fabricSubFind sub key with
  | some i =>
    refine ⟨.ok, sub, ?_, valid, rfl, .inl ⟨rfl, ?_⟩⟩
    · rw [kithFabricSubscriptionAdd, found]
    · rw [valid.interest_of_holds (valid.find_holds found), getD_some,
        ← valid.interest_of_holds (valid.find_holds found), update_eq_self]
  | none =>
    have absent : sub.interest key = none := by
      rw [Subscription.interest, interest_of_find_none found, map_none]
    rw [absent, getD_none, kithFabricSubscriptionAdd, found]
    cases placed : place subLayout sub.buckets sub.nodes (fabricCellMix key) with
    | fresh i reused =>
      obtain ⟨valid', added⟩ := valid.open_bucket found (place_fresh placed).1
      exact ⟨_, _, rfl, valid', rfl, .inl ⟨rfl, added⟩⟩
    | full tomb =>
      cases tomb with
      | none => exact ⟨_, _, rfl, valid, rfl, .inr ⟨rfl, rfl⟩⟩
      | some i =>
        obtain ⟨_, ⟨b, hb⟩, _⟩ := valid.table
        have used : (sub.nodes i).used = true := ((place_full_tomb hb placed).2 i rfl).2.1
        obtain ⟨valid', added⟩ := valid.open_bucket found (place_full_open placed)
        dsimp only
        rw [used]
        exact ⟨_, _, rfl, valid', rfl, .inl ⟨rfl, added⟩⟩

theorem kithFabricSubscriptionRemove_spec (key : CellKey) :
    ∃ sub', kithFabricSubscriptionRemove sub key = (.ok, sub') ∧ sub'.Valid ∧
      sub'.handle = sub.handle ∧ sub'.interest = update sub.interest key none := by
  cases found : fabricSubFind sub key with
  | none =>
    refine ⟨sub, ?_, valid, rfl, ?_⟩
    · rw [kithFabricSubscriptionRemove, found]
    · have absent : sub.interest key = none := by
        rw [Subscription.interest, interest_of_find_none found, map_none]
      rw [← absent, update_eq_self]
  | some i =>
    have holds := valid.find_holds found
    obtain ⟨tombs, table⟩ := valid.table
    obtain ⟨after, positive, written⟩ :=
      table.bury (c := { sub.nodes i with deleted := true }) holds ((live_iff _).mp holds.2.1).1 rfl
    rw [kithFabricSubscriptionRemove, found]
    rw [if_pos positive]
    refine ⟨_, rfl, ⟨tombs + 1, after⟩, rfl, ?_⟩
    rw [interest_update sub _ written, map_none]

/-- The fanout raises the flag of a subscribed cell. -/
theorem notify_spec (key : CellKey) :
    (sub.notify key).Valid ∧ (sub.notify key).handle = sub.handle ∧
      (sub.notify key).interest =
        update sub.interest key ((sub.interest key).map fun _ => true) := by
  rw [Subscription.notify]
  cases found : lookup subLayout sub.buckets sub.nodes (fabricCellMix key) key with
  | none =>
    have absent : sub.interest key = none := by
      rw [Subscription.interest, interest_of_find_none found, map_none]
    refine ⟨valid, rfl, ?_⟩
    rw [absent, map_none, ← absent, update_eq_self]
  | some i =>
    have holds := valid.find_holds found
    obtain ⟨valid', marked⟩ := valid.mark true holds
    refine ⟨valid', rfl, ?_⟩
    rw [valid.interest_of_holds holds, map_some]
    exact marked

end

theorem fabricSubInit_spec {heap heap' : Heap FabricSite} {handle b : Nat}
    (made : fabricSubInit heap handle (2 ^ b) = (.ok sub, heap')) :
    sub.Valid ∧ sub.handle = handle ∧ sub.interest = fun _ => none := by
  have blank : ∀ i < 2 ^ b, subLayout.used ((fun _ => SubNode.zero) i) = false := fun _ _ => rfl
  rw [fabricSubInit] at made
  split at made
  · cases made
  · split at made
    · cases made
    · cases made
      refine ⟨⟨0, .empty b blank⟩, rfl, ?_⟩
      funext key
      rw [Subscription.interest, entry_empty blank rfl, map_none]

end Interest

section Draining

variable {f : KithFabric} {sub : Subscription} {max : Nat} {key : CellKey}

theorem products_eq_lookup (f : KithFabric) (key : CellKey) :
    f.products key = (fabricCellLookup (f.shardOf key) key).map fun c =>
      fabricFillProduct ((f.shardOf key).cells c) := by
  change
    ((fabricCellLookup (f.shardOf key) key).map (f.shardOf key).cells).map fabricFillProduct = _
  rw [Option.map_map]
  rfl

theorem KithFabric.Valid.products_key (valid : f.Valid) {p : CellProduct}
    (found : f.products key = some p) : p.key = key := by
  rw [products_eq_lookup] at found
  obtain ⟨c, looked, rfl⟩ := map_eq_some_iff.mp found
  exact ((valid.shardOf key).lookup_holds looked).2.2

/-- What the copying drain has done to the interest set `sub` after `m` buckets. -/
structure Draining (f : KithFabric) (sub : Subscription) (max m : Nat) (sub' : Subscription)
    (out : List CellProduct) : Prop where
  valid : sub'.Valid
  buckets : sub'.buckets = sub.buckets
  handle : sub'.handle = sub.handle
  later : ∀ i, m ≤ i → sub'.nodes i = sub.nodes i
  subscribed : ∀ key, (sub'.interest key).isSome = (sub.interest key).isSome
  lowered : ∀ key, sub'.interest key = some true → sub.interest key = some true
  passed : ∀ i < m, ∀ key, Holds subLayout sub.buckets sub.nodes key i →
    sub.interest key = some true →
      sub'.interest key = some false ∧ (∀ p, f.products key = some p → p ∈ out) ∨
      sub'.interest key = some true ∧ out.length = max
  copied : ∀ p ∈ out, sub.interest p.key = some true ∧ sub'.interest p.key = some false ∧
    f.products p.key = some p
  once : (out.map CellProduct.key).Nodup
  room : out.length ≤ max

theorem Draining.start (valid : sub.Valid) : Draining f sub max 0 sub [] where
  valid := valid
  buckets := rfl
  handle := rfl
  later := fun _ _ => rfl
  subscribed := fun _ => rfl
  lowered := fun _ pending => pending
  passed := fun i hi => absurd hi (Nat.not_lt_zero i)
  copied := fun _ hp => absurd hp not_mem_nil
  once := nodup_nil
  room := Nat.zero_le _

variable {m : Nat} {sub' : Subscription} {out : List CellProduct}

theorem Draining.skip (inv : Draining f sub max m sub' out)
    (kept : ∀ key, Holds subLayout sub.buckets sub.nodes key m → sub.interest key = some true →
      sub'.interest key = some true ∧ out.length = max) :
    Draining f sub max (m + 1) sub' out := by
  refine { inv with later := fun i hi => inv.later i (by omega), passed := ?_ }
  intro i hi key holds pending
  rcases Nat.lt_succ_iff_lt_or_eq.mp hi with before | rfl
  · exact inv.passed i before key holds pending
  · exact .inr (kept key holds pending)

theorem Draining.deliver (hf : f.Valid) (inv : Draining f sub max m sub' out) {sub'' : Subscription}
    (holds : Holds subLayout sub.buckets sub.nodes key m) (flag : sub'.interest key = some true)
    (space : out.length ≠ max) (valid : sub''.Valid) (buckets : sub''.buckets = sub'.buckets)
    (handle : sub''.handle = sub'.handle) (later : ∀ i, m + 1 ≤ i → sub''.nodes i = sub'.nodes i)
    (lowered : sub''.interest = update sub'.interest key (some false)) :
    Draining f sub max (m + 1) sub'' (out ++ (f.products key).toList) := by
  have pending := inv.lowered key flag
  have fresh : ∀ p ∈ out, p.key ≠ key := by
    rintro p hp rfl
    rw [(inv.copied p hp).2.1] at flag
    cases flag
  have product : ∀ p ∈ (f.products key).toList, p.key = key ∧ f.products key = some p := by
    intro p hp
    have found : f.products key = some p := by simpa using hp
    exact ⟨hf.products_key found, found⟩
  constructor
  · exact valid
  · exact buckets.trans inv.buckets
  · exact handle.trans inv.handle
  · intro i hi
    rw [later i hi, inv.later i (by omega)]
  · intro k
    rw [lowered, ← inv.subscribed, update_apply]
    split
    · rename_i same
      rw [same, flag]
      rfl
    · rfl
  · intro k raised
    rw [lowered, update_apply] at raised
    split at raised
    · cases raised
    · exact inv.lowered k raised
  · intro i hi k here raised
    rw [lowered, update_apply]
    split
    · rename_i same
      refine .inl ⟨rfl, fun p found => mem_append_right _ ?_⟩
      rw [same] at found
      simpa using found
    · rename_i other
      have before : i < m := by
        rcases Nat.lt_succ_iff_lt_or_eq.mp hi with before | rfl
        · exact before
        · exact absurd (here.2.2.symm.trans holds.2.2) other
      rcases inv.passed i before k here raised with ⟨down, copied⟩ | ⟨_, full⟩
      · exact .inl ⟨down, fun p found => mem_append_left _ (copied p found)⟩
      · exact absurd full space
  · intro p hp
    rw [lowered, update_apply]
    rcases mem_append.mp hp with old | new
    · rw [if_neg (fresh p old)]
      exact inv.copied p old
    · obtain ⟨rfl, found⟩ := product p new
      exact ⟨pending, if_pos rfl, found⟩
  · rw [map_append, nodup_append]
    refine ⟨inv.once, ?_, ?_⟩
    · cases f.products key with
      | none => exact nodup_nil
      | some p => exact nodup_singleton _
    · intro k old k' new
      obtain ⟨p, hp, rfl⟩ := mem_map.mp old
      obtain ⟨p', hp', rfl⟩ := mem_map.mp new
      rw [(product p' hp').1]
      exact fresh p hp
  · have one : (f.products key).toList.length ≤ 1 := length_toList_le
    have room := inv.room
    rw [length_append]
    omega

theorem Draining.bucket (hf : f.Valid) (valid : sub.Valid) (inv : Draining f sub max m sub' out)
    (inside : m < sub.buckets) :
    Draining f sub max (m + 1) (fabricDrainBucket f max (sub', out) m).1
      (fabricDrainBucket f max (sub', out) m).2 := by
  have same : sub'.nodes m = sub.nodes m := inv.later m le_rfl
  rw [fabricDrainBucket, same]
  by_cases idle : (sub.nodes m).used = false ∨ (sub.nodes m).deleted = true ∨
      (sub.nodes m).pending = false
  · rw [if_pos idle]
    apply inv.skip
    intro key holds pending
    obtain ⟨used, present⟩ := (live_iff _).mp holds.2.1
    rw [valid.interest_of_holds holds] at pending
    rcases idle with unused | deleted | down
    · exact absurd (used.symm.trans unused) (by decide)
    · exact absurd (deleted.symm.trans present) (by decide)
    · exact absurd ((some.inj pending).symm.trans down) (by decide)
  · rw [if_neg idle]
    simp only [not_or, Bool.not_eq_false, Bool.not_eq_true] at idle
    obtain ⟨used, present, pending⟩ := idle
    have holds : Holds subLayout sub.buckets sub.nodes (sub.nodes m).key m :=
      ⟨inside, (live_iff _).mpr ⟨used, present⟩, rfl⟩
    have holds' : Holds subLayout sub'.buckets sub'.nodes (sub.nodes m).key m := by
      rw [inv.buckets]
      refine ⟨inside, ?_, ?_⟩
      · rw [same]
        exact holds.2.1
      · rw [same]
        rfl
    have flag : sub'.interest (sub.nodes m).key = some true := by
      rw [inv.valid.interest_of_holds holds', same, pending]
    split
    · rename_i full
      apply inv.skip
      intro key here _
      rw [← show (sub.nodes m).key = key from here.2.2]
      exact ⟨flag, full⟩
    · rename_i space
      obtain ⟨valid', lowered⟩ := inv.valid.mark false holds'
      rw [same] at valid' lowered
      have delivered := inv.deliver hf holds flag space valid' rfl rfl
        (fun i hi => update_of_ne (by omega) _ _) lowered
      rw [products_eq_lookup] at delivered
      cases found : fabricCellLookup (f.shardOf (sub.nodes m).key) (sub.nodes m).key with
      | none =>
        rw [found, map_none, toList_none, append_nil] at delivered
        exact delivered
      | some c =>
        rw [found, map_some, toList_some] at delivered
        exact delivered

theorem draining_run (hf : f.Valid) (valid : sub.Valid) (max : Nat) (inside : m ≤ sub.buckets) :
    Draining f sub max m ((range m).foldl (fabricDrainBucket f max) (sub, [])).1
      ((range m).foldl (fabricDrainBucket f max) (sub, [])).2 := by
  induction m with
  | zero => exact .start valid
  | succ m ih =>
    rw [range_succ, foldl_append, foldl_cons, foldl_nil]
    exact (ih (by omega)).bucket hf valid (by omega)

/-- A copying drain: what it returns and what it leaves. -/
structure DrainSpec (f : KithFabric) (sub : Subscription) (max : Nat) (d : Drained) : Prop where
  valid : d.sub.Valid
  handle : d.sub.handle = sub.handle
  subscribed : ∀ key, (d.sub.interest key).isSome = (sub.interest key).isSome
  latest : ∀ p ∈ d.out, sub.interest p.key = some true ∧ f.products p.key = some p
  once : (d.out.map CellProduct.key).Nodup
  sorted : d.out.Pairwise fun a b => fabricProdCmpSeqDesc a b < 0
  count : d.count = d.out.length
  room : d.out.length ≤ max
  cleared : ∀ p ∈ d.out, d.sub.interest p.key = some false
  kept : ∀ key, sub.interest key = some true → (f.products key).isSome →
    key ∉ d.out.map CellProduct.key → d.sub.interest key = some true ∧ d.out.length = max
  lowered : ∀ key, d.sub.interest key = some true → sub.interest key = some true

theorem kithFabricDrain_spec (hf : f.Valid) (valid : sub.Valid) (max : Nat) :
    DrainSpec f sub max (kithFabricDrain f sub (some max)) := by
  have inv := draining_run hf valid max le_rfl
  rw [kithFabricDrain]
  generalize (range sub.buckets).foldl (fabricDrainBucket f max) (sub, []) = state at inv ⊢
  obtain ⟨sub', out⟩ := state
  dsimp only at inv ⊢
  have perm : (if 1 < out.length then sortProducts out else out).Perm out := by
    split
    · exact mergeSort_perm out _
    · exact .rfl
  have sorted : (if 1 < out.length then sortProducts out else out).Pairwise fun a b =>
      fabricProdCmpSeqDesc a b < 0 := by
    split
    · exact sortProducts_sorted inv.once
    · rename_i short
      match out, short with
      | [], _ => exact .nil
      | [p], _ => exact pairwise_singleton ..
      | _ :: _ :: _, short => exact absurd (by simp) short
  generalize (if 1 < out.length then sortProducts out else out) = listed at perm sorted
  constructor
  · exact inv.valid
  · exact inv.handle
  · exact inv.subscribed
  · intro p hp
    obtain ⟨pending, _, found⟩ := inv.copied p (perm.mem_iff.mp hp)
    exact ⟨pending, found⟩
  · exact (perm.map _).nodup_iff.mpr inv.once
  · exact sorted
  · exact perm.length_eq.symm
  · exact perm.length_eq.trans_le inv.room
  · intro p hp
    exact (inv.copied p (perm.mem_iff.mp hp)).2.1
  · intro key pending stored missing
    obtain ⟨i, holds, _⟩ := valid.exists_holds pending
    obtain ⟨p, found⟩ := isSome_iff_exists.mp stored
    rcases inv.passed i holds.1 key holds pending with ⟨_, copied⟩ | ⟨still, full⟩
    · refine absurd (mem_map.mpr ⟨p, perm.mem_iff.mpr (copied p found), ?_⟩) missing
      exact hf.products_key found
    · exact ⟨still, perm.length_eq.trans full⟩
  · exact inv.lowered

end Draining

end Kith.Fabric
