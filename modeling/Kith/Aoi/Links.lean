import Kith.Aoi.Index
import Kith.Lib.BackPointers

/-!
# The cross-linked index

The member arrays of the cells and the positions that the objects record are inverse to
each other. Inserts, moves and removals keep them so, and what the hash by identifier
holds changes as a map does.
-/

namespace Kith.Aoi

open LinearProbe BackPointers SwapRemove Function

section Views

variable (a : KithAoi)

def KithAoi.Live (i : Nat) : Prop :=
  i < a.buckets ∧ objLayout.live (a.objs i) = true

/-- The member list of a cell, empty for a cell that is not there. -/
def KithAoi.members (c : CellCoord) : List Nat :=
  ((entry cellLayout a.buckets a.cells aoiCellHash c).map CellNode.members).getD []

/-- Where an object records that it is a member. -/
def KithAoi.placeAt (i : Nat) : CellCoord × Nat := ((a.objs i).cell, (a.objs i).cellPos)

/-- The object that the index has for an identifier. -/
def KithAoi.stored (id : UInt64) : Option AoiObject :=
  (entry objLayout a.buckets a.objs aoiObjHash id).map ObjNode.obj

structure Searchable (a : KithAoi) : Prop where
  objs : Chained objLayout a.buckets a.objs aoiObjHash
  cells : Chained cellLayout a.buckets a.cells aoiCellHash

structure KithAoi.Valid (a : KithAoi) : Prop where
  tables : Searchable a
  linked : Indexed (listed a.members) a.Live a.placeAt
  placed : ∀ i, a.Live i → (a.objs i).cell = a.cellOf (a.objs i).obj
  radii : ∀ i, a.Live i → 0 ≤ (a.objs i).obj.radius.toInt ∧
    (a.objs i).obj.radius.toInt ≤ a.maxRadius.toInt

variable {a a' : KithAoi} {c key : CellCoord} {i j slot : Nat} {id : UInt64}

theorem buckets_eq (a : KithAoi) : a.buckets = 2 ^ a.bucketLog := rfl

theorem Searchable.find_iff (tables : Searchable a) :
    aoiObjFind a id = some i ↔ Holds objLayout a.buckets a.objs id i :=
  lookup_eq_some_iff (buckets_eq a) tables.objs id i

theorem aoiObjFind_none : aoiObjFind a id = none ↔ a.stored id = none := by
  rw [KithAoi.stored, Option.map_eq_none_iff, entry, Option.map_eq_none_iff]
  exact Iff.rfl

variable (tables : Searchable a)
include tables

theorem Searchable.cell_iff : aoiCellFind a c = some i ↔ Holds cellLayout a.buckets a.cells c i :=
  lookup_eq_some_iff (buckets_eq a) tables.cells c i

theorem Searchable.members_of_holds (holds : Holds cellLayout a.buckets a.cells c i) :
    a.members c = (a.cells i).members := by
  have found : entry cellLayout a.buckets a.cells aoiCellHash c = some (a.cells i) :=
    (entry_eq_some (buckets_eq a) tables.cells).mpr ⟨i, holds, rfl⟩
  rw [KithAoi.members, found]
  rfl

theorem Searchable.stored_iff {o : AoiObject} :
    a.stored id = some o ↔ ∃ i, Holds objLayout a.buckets a.objs id i ∧ (a.objs i).obj = o := by
  rw [KithAoi.stored, Option.map_eq_some_iff]
  constructor
  · rintro ⟨node, found, rfl⟩
    obtain ⟨i, holds, rfl⟩ := (entry_eq_some (buckets_eq a) tables.objs).mp found
    exact ⟨i, holds, rfl⟩
  · rintro ⟨i, holds, rfl⟩
    exact ⟨a.objs i, (entry_eq_some (buckets_eq a) tables.objs).mpr ⟨i, holds, rfl⟩, rfl⟩

theorem Searchable.setCell (holds : Holds cellLayout a.buckets a.cells key i) (node : CellNode)
    (used : node.used = true) (cell : node.cell = key) :
    Searchable (a.setCell i node) ∧
      (a.setCell i node).members = update a.members key node.members ∧
      ∀ k j, Holds cellLayout a.buckets a.cells k j →
        Holds cellLayout a.buckets (a.setCell i node).cells k j := by
  have live : cellLayout.live node = true := by simp [Layout.live, cellLayout, used]
  obtain ⟨chained, written⟩ := entry_modify (buckets_eq a) tables.cells holds live cell
  refine ⟨⟨tables.objs, chained⟩, ?_, ?_⟩
  · funext k
    change ((entry cellLayout a.buckets (update a.cells i node) aoiCellHash k).map
      CellNode.members).getD [] = _
    rw [written, update_apply, update_apply]
    split
    · rfl
    · rfl
  · intro k j there
    refine holds_update.mpr ?_
    by_cases same : j = i
    · subst same
      exact .inl ⟨rfl, holds.1, live, cell.trans (holds.2.2.symm.trans there.2.2)⟩
    · exact .inr ⟨same, there⟩

end Views

section FindOrCreate

variable {a a' : KithAoi} {c : CellCoord} {i : Nat}

theorem aoiCellProbe_eq (n : Nat) (cells : Nat → CellNode) (h : Nat) (c : CellCoord)
    (ps : List Nat) : aoiCellProbe n cells h c ps =
      match lookupFrom cellLayout n cells h c ps with
      | some i => some (i, false)
      | none =>
        match placeFrom cellLayout n cells h none ps with
        | .fresh i _ => some (i, true)
        | .full _ => none := by
  induction ps with
  | nil => rfl
  | cons p ps ih =>
    simp only [aoiCellProbe, lookupFrom, placeFrom]
    generalize bucket n h p = i
    cases used : (cells i).used with
    | false =>
      have free : cellLayout.used (cells i) = false := used
      rw [if_pos rfl, if_pos free, if_pos free]
      rfl
    | true =>
      have taken : cellLayout.used (cells i) ≠ false := by
        intro free
        exact Bool.false_ne_true (free.symm.trans used)
      have kept : cellLayout.deleted (cells i) ≠ true := Bool.false_ne_true
      rw [if_neg taken, if_neg taken, if_neg kept, if_neg kept, if_neg Bool.false_ne_true.symm]
      by_cases here : (cells i).cell = c
      · rw [if_pos here, if_pos (show cellLayout.key (cells i) = c from here)]
      · rw [if_neg here, if_neg (show cellLayout.key (cells i) ≠ c from here)]
        exact ih

/-- What finding a cell or making one leaves. -/
structure Found (a : KithAoi) (c : CellCoord) (i : Nat) (a' : KithAoi) : Prop where
  frame : a' = { a with cells := a'.cells }
  tables : Searchable a'
  holds : Holds cellLayout a.buckets a'.cells c i
  members : a'.members = a.members

theorem aoiCellFindOrCreate_spec (tables : Searchable a) (c : CellCoord) :
    aoiCellFindOrCreate a c = (none, a) ∨
      ∃ i a', aoiCellFindOrCreate a c = (some i, a') ∧ Found a c i a' := by
  rw [aoiCellFindOrCreate, aoiCellProbe_eq]
  cases found :
    lookupFrom cellLayout a.buckets a.cells (aoiCellHash c) c (List.range a.buckets) with
  | some i => exact .inr ⟨i, a, rfl, rfl, tables, tables.cell_iff.mp found, rfl⟩
  | none =>
    have absent : entry cellLayout a.buckets a.cells aoiCellHash c = none := by
      rw [entry, lookup, found]
      rfl
    cases placed :
      placeFrom cellLayout a.buckets a.cells (aoiCellHash c) none (List.range a.buckets) with
    | full tomb => exact .inl rfl
    | fresh i reused =>
      obtain ⟨chained, written⟩ := entry_store (c := CellNode.fresh c) (buckets_eq a) tables.cells
        absent (place_fresh placed).1 rfl rfl
      have inside := open_lt (buckets_eq a) (place_fresh placed).1
      refine .inr ⟨i, a.setCell i (CellNode.fresh c), rfl, rfl, ⟨tables.objs, chained⟩, ?_, ?_⟩
      · exact holds_update.mpr (.inl ⟨rfl, inside, rfl, rfl⟩)
      · funext k
        change ((entry cellLayout a.buckets (update a.cells i (CellNode.fresh c))
          aoiCellHash k).map CellNode.members).getD [] = _
        rw [written, update_apply]
        split
        · rename_i same
          subst same
          rw [KithAoi.members, absent]
          rfl
        · rfl

end FindOrCreate

section Joining

variable {a a' b : KithAoi} {c : CellCoord} {i slot : Nat}

/-- A slot that is a new member of a cell. -/
structure Joined (a : KithAoi) (c : CellCoord) (i slot : Nat) (b : KithAoi) : Prop where
  frame : b = { a with cells := b.cells }
  tables : Searchable b
  holds : Holds cellLayout a.buckets b.cells c i
  members : b.members = update a.members c (a.members c ++ [slot])

section

variable (tables : Searchable a) (holds : Holds cellLayout a.buckets a.cells c i)
include tables holds

theorem attached (slot cap : Nat) : Joined a c i slot (a.setCell i { a.cells i with
      members := (a.cells i).members ++ [slot]
      memberCap := cap }) := by
  have used : (a.cells i).used = true := ((live_iff _).mp holds.2.1).1
  obtain ⟨after, members, kept⟩ := tables.setCell holds { a.cells i with
    members := (a.cells i).members ++ [slot]
    memberCap := cap } used holds.2.2
  refine ⟨rfl, after, kept c i holds, ?_⟩
  rw [members, tables.members_of_holds holds]

theorem aoiCellAttach_spec (heap : Heap AoiSite) (slot : Nat) :
    (∃ code heap', aoiCellAttach a heap i slot = (.err code, a, heap')) ∨
      ∃ b heap', aoiCellAttach a heap i slot = (.ok, b, heap') ∧ Joined a c i slot b := by
  rw [aoiCellAttach]
  split
  · rcases heap.request .members with ⟨granted, heap'⟩
    cases granted with
    | false => exact .inl ⟨_, _, rfl⟩
    | true => exact .inr ⟨_, _, rfl, attached tables holds slot _⟩
  · exact .inr ⟨_, _, rfl, attached tables holds slot _⟩

end

theorem Found.join (found : Found a c i a') (joined : Joined a' c i slot b) :
    Joined a c i slot b := by
  obtain ⟨frame, _, _, members⟩ := found
  obtain ⟨frame', tables, holds, members'⟩ := joined
  refine ⟨?_, tables, ?_, ?_⟩
  · rw [frame', frame]
  · rw [frame] at holds
    exact holds
  · rw [members', members]

theorem Joined.position (joined : Joined a c i slot b) :
    (b.cells i).members.length - 1 = (a.members c).length := by
  have holds : Holds cellLayout b.buckets b.cells c i := by
    rw [joined.frame]
    exact joined.holds
  rw [← joined.tables.members_of_holds holds, joined.members, update_self]
  simp

end Joining

section Leaving

variable {a b : KithAoi} {slot last : Nat}

/-- The objects are those of `a`; only positions may differ. -/
structure Shifted (a b : KithAoi) : Prop where
  frame : b = { a with objs := b.objs, cells := b.cells }
  same : ∀ j, b.objs j = { a.objs j with cellPos := (b.objs j).cellPos }

section

variable (shifted : Shifted a b)
include shifted

theorem Shifted.buckets : b.buckets = a.buckets := by
  rw [shifted.frame]
  rfl

theorem Shifted.live (j : Nat) : objLayout.live (b.objs j) = objLayout.live (a.objs j) := by
  rw [shifted.same]
  rfl

theorem Shifted.obj (j : Nat) : (b.objs j).obj = (a.objs j).obj := by
  rw [shifted.same]

theorem Shifted.cell (j : Nat) : (b.objs j).cell = (a.objs j).cell := by
  rw [shifted.same]

theorem Shifted.live_iff (j : Nat) : b.Live j ↔ a.Live j := by
  rw [KithAoi.Live, KithAoi.Live, shifted.buckets, shifted.live]

theorem Shifted.holds_iff (id : UInt64) (j : Nat) :
    Holds objLayout b.buckets b.objs id j ↔ Holds objLayout a.buckets a.objs id j := by
  have key : objLayout.key (b.objs j) = objLayout.key (a.objs j) :=
    congrArg AoiObject.id (shifted.obj j)
  rw [Holds, Holds, shifted.buckets, shifted.live, key]

theorem Shifted.chained (chained : Chained objLayout a.buckets a.objs aoiObjHash) :
    Chained objLayout b.buckets b.objs aoiObjHash := by
  rw [shifted.buckets]
  refine chained.congr ?_ ?_
  · intro id j
    have iff := shifted.holds_iff id j
    rwa [shifted.buckets] at iff
  · intro j used
    rw [shifted.same]
    exact used

theorem Shifted.stored (tables : Searchable a) (after : Searchable b) : b.stored = a.stored := by
  funext id
  ext o
  rw [after.stored_iff, tables.stored_iff]
  simp only [shifted.holds_iff, shifted.obj]

end

/-- A slot that has left its cell; the last member has its place. -/
structure Left (a : KithAoi) (slot last : Nat) (b : KithAoi) : Prop where
  shifted : Shifted a b
  tables : Searchable b
  members : b.members = update a.members (a.objs slot).cell
    (swapRemove (a.members (a.objs slot).cell) (a.objs slot).cellPos)
  places : ∀ j, j ≠ slot → (b.objs j).cellPos =
    if j = last then (a.objs slot).cellPos else (a.objs j).cellPos
  kept : ∀ k j, Holds cellLayout a.buckets a.cells k j → Holds cellLayout a.buckets b.cells k j

theorem aoiCellDetach_spec (tables : Searchable a)
    (held : (a.members (a.objs slot).cell)[(a.objs slot).cellPos]? = some slot)
    (ending : (a.members (a.objs slot).cell).getLast? = some last) :
    Left a slot last (aoiCellDetach a slot) := by
  obtain ⟨i, found⟩ : ∃ i, aoiCellFind a (a.objs slot).cell = some i := by
    cases found : aoiCellFind a (a.objs slot).cell with
    | some i => exact ⟨i, rfl⟩
    | none =>
      have nothing : a.members (a.objs slot).cell = [] := by
        rw [KithAoi.members, entry, show lookup _ _ _ _ _ = none from found]
        rfl
      rw [nothing] at held
      cases held
  have holds := tables.cell_iff.mp found
  have list := tables.members_of_holds holds
  rw [list] at held ending
  have used : (a.cells i).used = true := ((LinearProbe.live_iff _).mp holds.2.1).1
  obtain ⟨after, members, kept⟩ := tables.setCell holds { a.cells i with
    members := swapRemove (a.cells i).members (a.objs slot).cellPos } used holds.2.2
  rw [aoiCellDetach]
  rw [found]
  dsimp only
  rw [held, ending]
  dsimp only
  rw [if_neg (by simp)]
  split
  · have shifted : Shifted a ((a.setCell i { a.cells i with
        members := swapRemove (a.cells i).members (a.objs slot).cellPos }).setObj last
        { a.objs last with cellPos := (a.objs slot).cellPos }) := by
      refine ⟨rfl, ?_⟩
      intro j
      simp only [KithAoi.setObj, KithAoi.setCell, update_apply]
      split
      · rename_i same
        rw [same]
      · rfl
    refine ⟨shifted, ⟨shifted.chained tables.objs, after.cells⟩, ?_, ?_, kept⟩
    · rw [list]
      exact members
    · intro j _
      simp only [KithAoi.setObj, KithAoi.setCell, update_apply]
      split
      · rfl
      · rfl
  · rename_i final
    have final : (a.objs slot).cellPos = (a.cells i).members.length - 1 := by simpa using final
    have same : slot = last := by
      rw [final, ← List.getLast?_eq_getElem?, ending] at held
      exact (Option.some.inj held).symm
    refine ⟨⟨rfl, fun _ => rfl⟩, after, ?_, ?_, kept⟩
    · rw [list]
      exact members
    · intro j other
      rw [if_neg (same ▸ other)]
      rfl

end Leaving

section Writing

variable {a b d w : KithAoi} {c : CellCoord} {i slot last : Nat} {obj : AoiObject}

theorem noteRadius_spec (a : KithAoi) (obj : AoiObject) :
    ∃ r, a.noteRadius obj = { a with maxRadius := r } ∧ a.maxRadius.toInt ≤ r.toInt ∧
      obj.radius.toInt ≤ r.toInt := by
  rw [KithAoi.noteRadius]
  split
  · rename_i larger
    exact ⟨_, rfl, Int.le_of_lt (Int64.lt_iff_toInt_lt.mp larger), Int.le_refl _⟩
  · rename_i smaller
    refine ⟨_, rfl, Int.le_refl _, ?_⟩
    exact Int.not_lt.mp fun larger => smaller (Int64.lt_iff_toInt_lt.mpr larger)

/-- What is to be shown of an index in which an object was written. -/
structure Written (b : KithAoi) (obj : AoiObject) : Prop where
  tables : Searchable b
  linked : Indexed (listed b.members) b.Live b.placeAt
  placed : ∀ i, b.Live i → (b.objs i).cell = b.cellOf (b.objs i).obj
  radii : ∀ i, b.Live i → (b.objs i).obj = obj ∨
    0 ≤ (b.objs i).obj.radius.toInt ∧ (b.objs i).obj.radius.toInt ≤ b.maxRadius.toInt

theorem Written.note (written : Written b obj) (positive : 0 ≤ obj.radius.toInt) :
    (b.noteRadius obj).Valid := by
  obtain ⟨r, noted, grown, covers⟩ := noteRadius_spec b obj
  rw [noted]
  refine ⟨⟨written.tables.objs, written.tables.cells⟩, written.linked, written.placed, ?_⟩
  intro i live
  rcases written.radii i live with same | ⟨low, high⟩
  · rw [same]
    exact ⟨positive, covers⟩
  · exact ⟨low, high.trans grown⟩

theorem stored_noteRadius (b : KithAoi) (obj : AoiObject) :
    (b.noteRadius obj).stored = b.stored := by
  obtain ⟨r, noted, _⟩ := noteRadius_spec b obj
  rw [noted]
  rfl

theorem stored_of_entry (id : UInt64) (node : Option ObjNode)
    (written : entry objLayout w.buckets w.objs aoiObjHash =
      update (entry objLayout a.buckets a.objs aoiObjHash) id node) :
    w.stored = update a.stored id (node.map ObjNode.obj) := by
  change Option.map ObjNode.obj ∘ entry objLayout w.buckets w.objs aoiObjHash = _
  rw [written, comp_update]
  rfl

theorem Found.valid (found : Found a c i b) (valid : a.Valid) : b.Valid ∧ b.stored = a.stored := by
  obtain ⟨cells, rfl⟩ : ∃ cells, b = { a with cells := cells } := ⟨_, found.frame⟩
  refine ⟨⟨found.tables, ?_, valid.placed, valid.radii⟩, rfl⟩
  rw [found.members]
  exact valid.linked

theorem KithAoi.Valid.member (valid : a.Valid) (live : a.Live slot) :
    (a.members (a.objs slot).cell)[(a.objs slot).cellPos]? = some slot ∧
      ∃ last, (a.members (a.objs slot).cell).getLast? = some last ∧
        (a.objs last).cell = (a.objs slot).cell := by
  have held : (a.members (a.objs slot).cell)[(a.objs slot).cellPos]? = some slot :=
    valid.linked.at_place live
  refine ⟨held, ?_⟩
  cases ending : (a.members (a.objs slot).cell).getLast? with
  | none =>
    rw [List.getLast?_eq_none_iff.mp ending] at held
    cases held
  | some last =>
    have member := valid.linked.mem_iff.mp (List.mem_of_getLast? ending)
    exact ⟨last, rfl, member.2⟩

theorem Left.placeAt (left : Left a slot last b) (cell : (a.objs last).cell = (a.objs slot).cell)
    {j : Nat} (other : j ≠ slot) :
    b.placeAt j = update a.placeAt last ((a.objs slot).cell, (a.objs slot).cellPos) j := by
  rw [KithAoi.placeAt, left.places j other, left.shifted.cell, update_apply]
  split
  · rename_i same
    rw [same, cell]
  · rfl

end Writing

section Inserting

variable {a b : KithAoi} {i slot : Nat} {obj : AoiObject}

theorem aoiObjSlotForInsert_open {id : UInt64} (found : aoiObjSlotForInsert a id = some slot) :
    Open objLayout a.buckets a.objs (aoiObjHash id) slot := by
  rw [aoiObjSlotForInsert] at found
  split at found
  · rename_i placed
    cases found
    exact (place_fresh placed).1
  · rename_i placed
    subst found
    exact place_full_open placed

theorem inserted (valid : a.Valid) (absent : a.stored obj.id = none)
    (opened : Open objLayout a.buckets a.objs (aoiObjHash obj.id) slot)
    (joined : Joined a (a.cellOf obj) i slot b) :
    let a' := { b.setObj slot ⟨obj, a.cellOf obj, (b.cells i).members.length - 1, true, false⟩ with
      objCount := b.objCount + 1 }
    Written a' obj ∧ a'.stored = update a.stored obj.id (some obj) := by
  rw [joined.position]
  obtain ⟨cells, rfl⟩ : ∃ cells, b = { a with cells := cells } := ⟨_, joined.frame⟩
  have inside := open_lt (buckets_eq a) opened
  have nobody : entry objLayout a.buckets a.objs aoiObjHash obj.id = none :=
    Option.map_eq_none_iff.mp absent
  obtain ⟨chained, written⟩ := entry_store
    (c := ⟨obj, a.cellOf obj, (a.members (a.cellOf obj)).length, true, false⟩)
    (buckets_eq a) valid.tables.objs nobody opened rfl rfl
  have dead : ¬ a.Live slot := by
    rintro ⟨_, live⟩
    rw [opened.1] at live
    cases live
  refine ⟨⟨⟨chained, joined.tables.cells⟩, ?_, ?_, ?_⟩, ?_⟩
  · refine (valid.linked.push (a.cellOf obj) dead).congr (fun p => ?_) (fun j => ?_) fun j _ => ?_
    · exact congrArg (fun lists => listed lists p) joined.members
    · rw [KithAoi.Live, KithAoi.Live]
      by_cases same : j = slot
      · simpa [same, KithAoi.setObj, KithAoi.buckets, Layout.live, objLayout] using inside
      · simp [same, KithAoi.setObj, KithAoi.buckets]
    · by_cases same : j = slot
      · simp [same, KithAoi.setObj, KithAoi.placeAt]
      · simp [same, KithAoi.setObj, KithAoi.placeAt]
  · intro j live
    by_cases same : j = slot
    · simp [same, KithAoi.setObj, KithAoi.cellOf]
    · simp only [KithAoi.setObj, KithAoi.Live, update_of_ne same] at live ⊢
      exact valid.placed j live
  · intro j live
    by_cases same : j = slot
    · exact .inl (by simp [same, KithAoi.setObj])
    · simp only [KithAoi.setObj, KithAoi.Live, update_of_ne same] at live ⊢
      exact .inr (valid.radii j live)
  · exact stored_of_entry obj.id
      (some ⟨obj, a.cellOf obj, (a.members (a.cellOf obj)).length, true, false⟩) written

/-- The index stays valid and has the object if the call succeeds, and what it had if not. -/
def Stores (a : KithAoi) (obj : AoiObject) (reply : Rc × KithAoi × Heap AoiSite) : Prop :=
  reply.2.1.Valid ∧ reply.2.1.stored =
    if reply.1 = .ok then update a.stored obj.id (some obj) else a.stored

/-- The common end of inserts and moves: the cell is there and takes the slot, or refuses. -/
theorem cell_stores (valid : a.Valid) (heap : Heap AoiSite) (slot : Nat)
    (positive : 0 ≤ obj.radius.toInt) (finish : Nat → KithAoi → KithAoi)
    (finished : ∀ i d, Joined a (a.cellOf obj) i slot d → Written (finish i d) obj ∧
      (finish i d).stored = update a.stored obj.id (some obj)) :
    Stores a obj (match aoiCellFindOrCreate a (a.cellOf obj) with
      | (none, a) => (.err .ebusy, a, heap)
      | (some i, a) =>
        match aoiCellAttach a heap i slot with
        | (.err code, a, heap) => (.err code, a, heap)
        | (.ok, a, heap) => (.ok, (finish i a).noteRadius obj, heap)) := by
  rcases aoiCellFindOrCreate_spec valid.tables (a.cellOf obj) with full | ⟨i, b, made, found⟩
  · simp only [full]
    exact ⟨valid, rfl⟩
  · have holds : Holds cellLayout b.buckets b.cells (a.cellOf obj) i := by
      rw [found.frame]
      exact found.holds
    simp only [made]
    rcases aoiCellAttach_spec found.tables holds heap slot with
      ⟨code, heap', refused⟩ | ⟨d, heap', granted, joined⟩
    · simp only [refused]
      exact found.valid valid
    · simp only [granted]
      obtain ⟨written, stored⟩ := finished i d (found.join joined)
      exact ⟨written.note positive, (stored_noteRadius _ _).trans stored⟩

theorem kithAoiInsert_spec (valid : a.Valid) (heap : Heap AoiSite)
    (positive : 0 ≤ obj.radius.toInt) : Stores a obj (kithAoiInsert a heap obj) := by
  rw [kithAoiInsert]
  split
  · exact ⟨valid, rfl⟩
  · rename_i missing
    have absent : a.stored obj.id = none := by
      rw [← aoiObjFind_none]
      simpa using missing
    split
    · exact ⟨valid, rfl⟩
    · cases chosen : aoiObjSlotForInsert a obj.id with
      | none => exact ⟨valid, rfl⟩
      | some slot =>
        exact cell_stores valid heap slot positive _ fun i d joined =>
          inserted valid absent (aoiObjSlotForInsert_open chosen) joined

end Inserting

section Moving

variable {a b d : KithAoi} {i slot last : Nat} {obj : AoiObject}

theorem Searchable.setObj (tables : Searchable d)
    (holds : Holds objLayout d.buckets d.objs obj.id slot) (node : ObjNode)
    (live : objLayout.live node = true) (own : node.obj = obj) :
    Searchable (d.setObj slot node) ∧
      (d.setObj slot node).stored = update d.stored obj.id (some obj) ∧
      ∀ j, (d.setObj slot node).Live j ↔ d.Live j := by
  obtain ⟨chained, written⟩ := entry_modify (c := node) (buckets_eq d) tables.objs holds live
    (congrArg AoiObject.id own)
  refine ⟨⟨chained, tables.cells⟩, ?_, ?_⟩
  · rw [← own]
    exact stored_of_entry node.obj.id (some node) (own.symm ▸ written)
  · intro j
    rw [KithAoi.Live, KithAoi.Live]
    by_cases same : j = slot
    · subst same
      simp only [KithAoi.setObj, update_self]
      exact ⟨fun _ => ⟨holds.1, holds.2.1⟩, fun _ => ⟨holds.1, live⟩⟩
    · simp only [KithAoi.setObj, update_of_ne same]
      exact Iff.rfl

theorem rewritten (valid : a.Valid) (holds : Holds objLayout a.buckets a.objs obj.id slot)
    (stays : a.cellOf obj = (a.objs slot).cell) :
    Written (a.setObj slot { a.objs slot with obj := obj }) obj ∧
      (a.setObj slot { a.objs slot with obj := obj }).stored =
        update a.stored obj.id (some obj) := by
  obtain ⟨tables, stored, live⟩ := valid.tables.setObj holds { a.objs slot with obj := obj }
    holds.2.1 rfl
  refine ⟨⟨tables, ?_, ?_, ?_⟩, stored⟩
  · refine valid.linked.congr (fun _ => rfl) live fun j _ => ?_
    by_cases same : j = slot
    · simp [same, KithAoi.setObj, KithAoi.placeAt]
    · simp [same, KithAoi.setObj, KithAoi.placeAt]
  · intro j there
    have there := (live j).mp there
    by_cases same : j = slot
    · subst same
      simp only [KithAoi.setObj, update_self]
      exact stays.symm
    · simp only [KithAoi.setObj, update_of_ne same]
      exact valid.placed j there
  · intro j there
    have there := (live j).mp there
    by_cases same : j = slot
    · exact .inl (by simp [same, KithAoi.setObj])
    · simp only [KithAoi.setObj, update_of_ne same]
      exact .inr (valid.radii j there)

theorem moved (valid : a.Valid) (holds : Holds objLayout a.buckets a.objs obj.id slot)
    (joined : Joined a (a.cellOf obj) i slot b) (moves : a.cellOf obj ≠ (a.objs slot).cell) :
    let d := aoiCellDetach b slot
    let a' := d.setObj slot { d.objs slot with
      cell := a.cellOf obj
      cellPos := (d.cells i).members.length - 1
      obj := obj }
    Written a' obj ∧ a'.stored = update a.stored obj.id (some obj) := by
  dsimp only
  obtain ⟨held, last, ending, cell⟩ := valid.member ⟨holds.1, holds.2.1⟩
  -- The old cell is as it was when the object leaves it.
  have objs : b.objs = a.objs := by rw [joined.frame]
  have places : b.placeAt = a.placeAt := by
    funext j
    rw [KithAoi.placeAt, objs, KithAoi.placeAt]
  have old : b.members (b.objs slot).cell = a.members (a.objs slot).cell := by
    rw [objs, joined.members, update_of_ne moves.symm]
  have left : Left b slot last (aoiCellDetach b slot) := by
    apply aoiCellDetach_spec joined.tables
    · rw [old, objs]
      exact held
    · rw [old]
      exact ending
  generalize aoiCellDetach b slot = d at left ⊢
  -- The lists are as if it had left the old cell before it joined the new one.
  have members : d.members = update (update a.members (a.objs slot).cell
      (swapRemove (a.members (a.objs slot).cell) (a.objs slot).cellPos)) (a.cellOf obj)
      (a.members (a.cellOf obj) ++ [slot]) := by
    rw [left.members, old, objs, joined.members, update_comm moves]
  have shifted : Shifted a d := by
    obtain ⟨cells, rfl⟩ : ∃ cells, b = { a with cells := cells } := ⟨_, joined.frame⟩
    exact ⟨left.shifted.frame, left.shifted.same⟩
  have position : (d.cells i).members.length - 1 = (a.members (a.cellOf obj)).length := by
    have there : Holds cellLayout d.buckets d.cells (a.cellOf obj) i := by
      rw [shifted.buckets]
      have kept := left.kept (a.cellOf obj) i
      rw [joined.frame] at kept
      exact kept joined.holds
    rw [← left.tables.members_of_holds there, members, update_self]
    simp
  rw [position]
  have there : Holds objLayout d.buckets d.objs obj.id slot := (shifted.holds_iff _ _).mpr holds
  obtain ⟨tables, stored, live⟩ := left.tables.setObj there { d.objs slot with
    cell := a.cellOf obj
    cellPos := (a.members (a.cellOf obj)).length
    obj := obj } there.2.1 rfl
  have unchanged : d.stored = a.stored := shifted.stored valid.tables left.tables
  rw [unchanged] at stored
  have bound : d.maxRadius = a.maxRadius := by rw [shifted.frame]
  have size : d.cellOf = a.cellOf := by rw [shifted.frame]; rfl
  refine ⟨⟨tables, ?_, ?_, ?_⟩, stored⟩
  · have unlinked := valid.linked.unlink held ending
    have linked := unlinked.push (a.cellOf obj) fun here => here.2 rfl
    rw [update_of_ne moves] at linked
    refine linked.congr (fun p => ?_) (fun j => ?_) fun j _ => ?_
    · exact congrArg (fun lists => listed lists p) members
    · rw [live, shifted.live_iff]
      by_cases same : j = slot
      · have alive : a.Live slot := ⟨holds.1, holds.2.1⟩
        simp [same, alive]
      · simp [same]
    · by_cases same : j = slot
      · simp [same, KithAoi.setObj, KithAoi.placeAt]
      · have place := left.placeAt (by rw [objs]; exact cell) same
        rw [update_of_ne same]
        simp only [KithAoi.placeAt, KithAoi.setObj, update_of_ne same] at place ⊢
        rw [place, objs, places]
  · intro j alive
    change ((update d.objs slot _) j).cell = d.cellOf ((update d.objs slot _) j).obj
    by_cases same : j = slot
    · rw [same, update_self, size]
    · have alive := (shifted.live_iff j).mp ((live j).mp alive)
      rw [update_of_ne same, size, shifted.cell, shifted.obj]
      exact valid.placed j alive
  · intro j alive
    by_cases same : j = slot
    · exact .inl (by simp [same, KithAoi.setObj])
    · have alive := (shifted.live_iff j).mp ((live j).mp alive)
      simp only [KithAoi.setObj, update_of_ne same]
      rw [shifted.obj, bound]
      exact .inr (valid.radii j alive)

theorem kithAoiUpdate_spec (valid : a.Valid) (heap : Heap AoiSite)
    (positive : 0 ≤ obj.radius.toInt) : Stores a obj (kithAoiUpdate a heap obj) := by
  rw [kithAoiUpdate]
  cases present : aoiObjFind a obj.id with
  | none => exact ⟨valid, rfl⟩
  | some slot =>
    have holds := valid.tables.find_iff.mp present
    dsimp only
    split
    · rename_i moves
      exact cell_stores valid heap slot positive _ fun i d joined => moved valid holds joined moves
    · rename_i stays
      obtain ⟨written, stored⟩ := rewritten valid holds (not_not.mp stays)
      exact ⟨written.note positive, (stored_noteRadius _ _).trans stored⟩

/-- An update within the cell of the object needs nothing that could be refused. -/
theorem kithAoiUpdate_within (valid : a.Valid) (heap : Heap AoiSite) {o : AoiObject}
    (found : a.stored obj.id = some o) (same : a.cellOf obj = a.cellOf o) :
    (kithAoiUpdate a heap obj).1 = .ok := by
  obtain ⟨slot, holds, rfl⟩ := valid.tables.stored_iff.mp found
  have stays : a.cellOf obj = (a.objs slot).cell :=
    same.trans (valid.placed slot ⟨holds.1, holds.2.1⟩).symm
  rw [kithAoiUpdate, valid.tables.find_iff.mpr holds]
  dsimp only
  rw [if_neg (not_not.mpr stays)]

end Moving

section Removing

variable {a : KithAoi} {id : UInt64} {slot : Nat}

theorem kithAoiRemove_spec (valid : a.Valid) (id : UInt64) :
    (kithAoiRemove a id).Valid ∧
      (kithAoiRemove a id).stored = update a.stored id none := by
  rw [kithAoiRemove]
  cases present : aoiObjFind a id with
  | none =>
    refine ⟨valid, ?_⟩
    rw [aoiObjFind_none] at present
    exact (update_eq_self_iff.mpr present.symm).symm
  | some slot =>
    have holds := valid.tables.find_iff.mp present
    obtain ⟨held, last, ending, cell⟩ := valid.member ⟨holds.1, holds.2.1⟩
    have left := aoiCellDetach_spec valid.tables held ending
    dsimp only
    generalize aoiCellDetach a slot = d at left ⊢
    have shifted := left.shifted
    have there := (shifted.holds_iff id slot).mpr holds
    have used : (d.objs slot).used = true := ((live_iff _).mp there.2.1).1
    obtain ⟨chained, written⟩ := entry_bury (c := ({ d.objs slot with deleted := true } : ObjNode))
      (buckets_eq d) left.tables.objs there used rfl
    have size : d.cellOf = a.cellOf := by rw [shifted.frame]; rfl
    have bound : d.maxRadius = a.maxRadius := by rw [shifted.frame]
    have alive : ∀ j, KithAoi.Live { d.setObj slot { d.objs slot with deleted := true } with
        objCount := if d.objCount > 0 then d.objCount - 1 else d.objCount } j ↔
        a.Live j ∧ j ≠ slot := by
      intro j
      rw [← shifted.live_iff]
      by_cases same : j = slot
      · simp [same, KithAoi.Live, KithAoi.setObj, Layout.live, objLayout]
      · simp [same, KithAoi.Live, KithAoi.setObj, KithAoi.buckets]
    refine ⟨⟨⟨chained, left.tables.cells⟩, ?_, ?_, ?_⟩, ?_⟩
    · refine (valid.linked.unlink held ending).congr (fun p => ?_) alive fun j member => ?_
      · exact congrArg (fun lists => listed lists p) left.members
      · have place := left.placeAt cell member.2
        simp only [KithAoi.placeAt, KithAoi.setObj, update_of_ne member.2] at place ⊢
        exact place
    · intro j live
      obtain ⟨live, other⟩ := (alive j).mp live
      change ((update d.objs slot _) j).cell = d.cellOf ((update d.objs slot _) j).obj
      rw [update_of_ne other, size, shifted.cell, shifted.obj]
      exact valid.placed j live
    · intro j live
      obtain ⟨live, other⟩ := (alive j).mp live
      simp only [KithAoi.setObj, update_of_ne other]
      rw [shifted.obj, bound]
      exact valid.radii j live
    · rw [← shifted.stored valid.tables left.tables]
      exact stored_of_entry id none written

end Removing

end Kith.Aoi
