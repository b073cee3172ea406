import Kith.Aoi.Links
import Kith.Aoi.Region
import Kith.Lib.Runs

/-!
# Queries against brute force

The distance test is exact in its 128 bits, the region of a query has the cell of every
object that meets it, and the index has each live object in one cell. So a query shows the
visitor the live objects that meet it, each once.
-/

namespace Kith.Aoi

open BackPointers CountedLoop LinearProbe Runs List

variable {s : AoiSphere} {b : AoiBox}

section Distances

theorem sq_toNat (d : Int) : ((d.natAbs * d.natAbs : Nat) : Int) = d ^ 2 := by
  rw [Int.natCast_mul, Int.natAbs_mul_self', sq]

theorem distWithinFrom_iff {ar sum : Nat} (small : ar < 2 ^ 64) (under : sum ≤ ar * ar)
    (ds : List Int) :
    distWithinFrom ar (ar * ar) sum ds = true ↔
      sum + (ds.map fun d => d.natAbs * d.natAbs).sum ≤ ar * ar := by
  have square : ar * ar < 2 ^ 128 := by
    have bound : ar * ar < 2 ^ 64 * 2 ^ 64 := Nat.mul_lt_mul'' small small
    omega
  induction ds generalizing sum with
  | nil => simpa [distWithinFrom] using under
  | cons d ds ih =>
    rw [distWithinFrom, map_cons, sum_cons]
    dsimp only
    split
    · rename_i far
      have larger : ar * ar < d.natAbs * d.natAbs := Nat.mul_lt_mul'' far far
      simp only [Bool.false_eq_true, false_iff]
      omega
    · have fits : d.natAbs * d.natAbs ≤ ar * ar := Nat.mul_le_mul (by omega) (by omega)
      have rest : (ar * ar + 2 ^ 128 - sum) % 2 ^ 128 = ar * ar - sum := by omega
      rw [Nat.mod_eq_of_lt (show d.natAbs * d.natAbs < 2 ^ 128 by omega), rest]
      split
      · simp only [Bool.false_eq_true, false_iff]
        omega
      · have step : sum + d.natAbs * d.natAbs ≤ ar * ar := by omega
        rw [Nat.mod_eq_of_lt (by omega)]
        refine (ih step).trans ?_
        rw [Nat.add_assoc]

theorem aoiDistWithin_iff {dx dy dz radius : Int} (small : radius.natAbs < 2 ^ 64) :
    aoiDistWithin dx dy dz radius = true ↔ dx ^ 2 + dy ^ 2 + dz ^ 2 ≤ radius ^ 2 := by
  have square : radius.natAbs * radius.natAbs < 2 ^ 128 := by
    have bound : radius.natAbs * radius.natAbs < 2 ^ 64 * 2 ^ 64 := Nat.mul_lt_mul'' small small
    omega
  rw [aoiDistWithin, Nat.mod_eq_of_lt square, distWithinFrom_iff small (Nat.zero_le _),
    ← Int.ofNat_le]
  simp only [map_cons, map_nil, sum_cons, sum_nil, Nat.zero_add, Nat.add_zero,
    Int.natCast_add, sq_toNat, add_assoc]

/-- The exact values of the operations of `aoi_dist_within`, up to its return. -/
def distValuesFrom (ar r2 : Int) : Int → List Int → List Int
  | _, [] => []
  | sum, d :: ds =>
    let ad : Int := d.natAbs
    if ad > ar then [ad]
    else if ad * ad > r2 - sum then [ad, ad * ad, r2 - sum]
    else [ad, ad * ad, r2 - sum, sum + ad * ad] ++ distValuesFrom ar r2 (sum + ad * ad) ds

def distValues (dx dy dz radius : Int) : List Int :=
  let ar : Int := radius.natAbs
  ar :: ar * ar :: distValuesFrom ar (ar * ar) 0 [dx, dy, dz]

/-- The value of an unsigned operation of 128 bits. -/
def Fits128 (v : Int) : Prop := 0 ≤ v ∧ v < 2 ^ 128

theorem distValuesFrom_fits {ar sum : Int} (square : ar * ar < 2 ^ 128) (above : 0 ≤ sum)
    (under : sum ≤ ar * ar) {ds : List Int} (offsets : ∀ d ∈ ds, d.natAbs < 2 ^ 64) :
    ∀ v ∈ distValuesFrom ar (ar * ar) sum ds, Fits128 v := by
  induction ds generalizing sum with
  | nil => exact fun v member => absurd member not_mem_nil
  | cons d ds ih =>
    obtain ⟨offset, later⟩ := forall_mem_cons.mp offsets
    have nonneg : (0 : Int) ≤ d.natAbs * d.natAbs := by positivity
    unfold Fits128 at ih ⊢
    rw [distValuesFrom]
    split
    · simp only [mem_singleton, forall_eq]
      omega
    · rename_i near
      have fits : (d.natAbs : Int) * d.natAbs ≤ ar * ar :=
        mul_self_le_mul_self (Int.natCast_nonneg _) (not_lt.mp near)
      split
      · simp only [forall_mem_cons, mem_singleton, forall_eq]
        omega
      · simp only [forall_mem_append, forall_mem_cons, mem_singleton, forall_eq]
        exact ⟨by omega, ih (by omega) (by omega) later⟩

/-- The distance test is exact and its values fit 128 bits, unless both radii are the least
of their type: the square of their sum is 2^128. -/
theorem dist_within_exact_iff (x x' y y' z z' r r' : Int64) :
    ((aoiDistWithin (x.toInt - x'.toInt) (y.toInt - y'.toInt) (z.toInt - z'.toInt)
          (r.toInt + r'.toInt) = true ↔
        (x.toInt - x'.toInt) ^ 2 + (y.toInt - y'.toInt) ^ 2 + (z.toInt - z'.toInt) ^ 2 ≤
          (r.toInt + r'.toInt) ^ 2) ∧
      ∀ v ∈ distValues (x.toInt - x'.toInt) (y.toInt - y'.toInt) (z.toInt - z'.toInt)
        (r.toInt + r'.toInt), Fits128 v) ↔
    ¬(r = Int64.minValue ∧ r' = Int64.minValue) := by
  constructor
  · rintro ⟨_, fits⟩ ⟨rfl, rfl⟩
    have square := fits (2 ^ 64 * 2 ^ 64) (mem_cons_of_mem _ (mem_cons_self ..))
    exact absurd square.2 (by decide)
  · intro other
    have range : ∀ a : Int64, -2 ^ 63 ≤ a.toInt ∧ a.toInt < 2 ^ 63 :=
      fun a => ⟨a.le_toInt, a.toInt_lt⟩
    have small : (r.toInt + r'.toInt).natAbs < 2 ^ 64 := by
      rw [← Int64.toInt_inj, ← Int64.toInt_inj, Int64.toInt_minValue] at other
      have first := range r
      have second := range r'
      omega
    have offset : ∀ a b : Int64, (a.toInt - b.toInt).natAbs < 2 ^ 64 := by
      intro a b
      have first := range a
      have second := range b
      omega
    have square : ((r.toInt + r'.toInt).natAbs : Int) * (r.toInt + r'.toInt).natAbs < 2 ^ 128 := by
      have bound := Nat.mul_lt_mul'' small small
      omega
    refine ⟨aoiDistWithin_iff small, forall_mem_cons.mpr ⟨?_, forall_mem_cons.mpr ⟨?_, ?_⟩⟩⟩
    · exact ⟨Int.natCast_nonneg _, by omega⟩
    · exact ⟨by positivity, square⟩
    · apply distValuesFrom_fits square le_rfl (by positivity)
      simp only [forall_mem_cons, not_mem_nil, false_imp_iff, implies_true, and_true]
      exact ⟨offset .., offset .., offset ..⟩

/-- Two least radii: an offset of 1 is not within them. -/
theorem least_radii_reach_nothing :
    aoiDistWithin ((1 : Int64).toInt - (0 : Int64).toInt) ((0 : Int64).toInt - (0 : Int64).toInt)
        ((0 : Int64).toInt - (0 : Int64).toInt)
        (Int64.minValue.toInt + Int64.minValue.toInt) = false ∧
      ((1 : Int64).toInt - (0 : Int64).toInt) ^ 2 ≤
        (Int64.minValue.toInt + Int64.minValue.toInt) ^ 2 := by
  decide

def MeetsSphere (s : AoiSphere) (o : AoiObject) : Prop :=
  (o.posX.toInt - s.cx.toInt) ^ 2 + (o.posY.toInt - s.cy.toInt) ^ 2 +
    (o.posZ.toInt - s.cz.toInt) ^ 2 ≤ (s.radius.toInt + o.radius.toInt) ^ 2

/-- Some point of the box lies in the bounding sphere of the object. -/
def MeetsBox (b : AoiBox) (o : AoiObject) : Prop :=
  ∃ x y z : Int, (b.minX.toInt ≤ x ∧ x ≤ b.maxX.toInt) ∧ (b.minY.toInt ≤ y ∧ y ≤ b.maxY.toInt) ∧
    (b.minZ.toInt ≤ z ∧ z ≤ b.maxZ.toInt) ∧
      (o.posX.toInt - x) ^ 2 + (o.posY.toInt - y) ^ 2 + (o.posZ.toInt - z) ^ 2 ≤ o.radius.toInt ^ 2

variable {o : AoiObject}

theorem aoiPredSphere_iff (query : 0 ≤ s.radius.toInt) (object : 0 ≤ o.radius.toInt) :
    aoiPredSphere s o = true ↔ MeetsSphere s o := by
  have first := s.radius.toInt_lt
  have second := o.radius.toInt_lt
  exact aoiDistWithin_iff (by omega)

theorem aoiClamp_nearest {v lo hi : Int64} (order : lo.toInt ≤ hi.toInt) :
    (lo.toInt ≤ (aoiClamp v lo hi).toInt ∧ (aoiClamp v lo hi).toInt ≤ hi.toInt) ∧
      ∀ x, lo.toInt ≤ x → x ≤ hi.toInt →
        (v.toInt - (aoiClamp v lo hi).toInt) ^ 2 ≤ (v.toInt - x) ^ 2 := by
  rw [aoiClamp]
  split
  · rename_i below
    rw [Int64.lt_iff_toInt_lt] at below
    refine ⟨by omega, ?_⟩
    intro x low high
    apply sq_le_sq.mpr
    rw [abs_of_nonpos (by omega), abs_of_nonpos (by omega)]
    omega
  · rename_i low
    rw [Int64.lt_iff_toInt_lt] at low
    split
    · rename_i above
      rw [gt_iff_lt, Int64.lt_iff_toInt_lt] at above
      refine ⟨by omega, ?_⟩
      intro x low high
      apply sq_le_sq.mpr
      rw [abs_of_nonneg (by omega), abs_of_nonneg (by omega)]
      omega
    · rename_i high
      rw [gt_iff_lt, Int64.lt_iff_toInt_lt] at high
      refine ⟨by omega, ?_⟩
      intro x _ _
      rw [sub_self, zero_pow two_ne_zero]
      exact sq_nonneg _

def AoiBox.Ordered (b : AoiBox) : Prop :=
  b.minX.toInt ≤ b.maxX.toInt ∧ b.minY.toInt ≤ b.maxY.toInt ∧ b.minZ.toInt ≤ b.maxZ.toInt

theorem aoiPredBox_iff (ordered : b.Ordered) (object : 0 ≤ o.radius.toInt) :
    aoiPredBox b o = true ↔ MeetsBox b o := by
  have bound := o.radius.toInt_lt
  obtain ⟨insideX, nearestX⟩ := aoiClamp_nearest (v := o.posX) ordered.1
  obtain ⟨insideY, nearestY⟩ := aoiClamp_nearest (v := o.posY) ordered.2.1
  obtain ⟨insideZ, nearestZ⟩ := aoiClamp_nearest (v := o.posZ) ordered.2.2
  rw [aoiPredBox, aoiDistWithin_iff (by omega)]
  constructor
  · intro within
    exact ⟨_, _, _, insideX, insideY, insideZ, within⟩
  · rintro ⟨x, y, z, ⟨lowX, highX⟩, ⟨lowY, highY⟩, ⟨lowZ, highZ⟩, within⟩
    have alongX := nearestX x lowX highX
    have alongY := nearestY y lowY highY
    have alongZ := nearestZ z lowZ highZ
    omega

end Distances

section Reach

variable {a : KithAoi} {o : AoiObject}

theorem offsets_within {dx dy dz radius : Int} (positive : 0 ≤ radius)
    (within : dx ^ 2 + dy ^ 2 + dz ^ 2 ≤ radius ^ 2) :
    (-radius ≤ dx ∧ dx ≤ radius) ∧ (-radius ≤ dy ∧ dy ≤ radius) ∧ -radius ≤ dz ∧ dz ≤ radius := by
  have x := sq_nonneg dx
  have y := sq_nonneg dy
  have z := sq_nonneg dz
  refine ⟨abs_le_of_sq_le_sq' ?_ positive, abs_le_of_sq_le_sq' ?_ positive,
    abs_le_of_sq_le_sq' ?_ positive⟩ <;> omega

theorem covers_of_between (lo hi : Int × Int × Int) (x : lo.1 ≤ o.posX.toInt ∧ o.posX.toInt ≤ hi.1)
    (y : lo.2.1 ≤ o.posY.toInt ∧ o.posY.toInt ≤ hi.2.1)
    (z : lo.2.2 ≤ o.posZ.toInt ∧ o.posZ.toInt ≤ hi.2.2) :
    Region.Covers ⟨⟨aoiRegionCell lo.1 a.cellSize, aoiRegionCell lo.2.1 a.cellSize,
      aoiRegionCell lo.2.2 a.cellSize⟩, ⟨aoiRegionCell hi.1 a.cellSize,
      aoiRegionCell hi.2.1 a.cellSize, aoiRegionCell hi.2.2 a.cellSize⟩⟩ (a.cellOf o) := by
  have mono : ∀ {p q : Int}, p ≤ q →
      saturatedCell p a.cellSize.toInt ≤ saturatedCell q a.cellSize.toInt := fun le =>
    saturatedCell_mono a.cellSize_pos le
  exact ⟨⟨mono x.1, mono x.2⟩, ⟨mono y.1, mono y.2⟩, mono z.1, mono z.2⟩

theorem aoiRegionSphere_covers (query : 0 ≤ s.radius.toInt)
    (object : 0 ≤ o.radius.toInt ∧ o.radius.toInt ≤ a.maxRadius.toInt) (meets : MeetsSphere s o) :
    (aoiRegionSphere a s).Covers (a.cellOf o) := by
  obtain ⟨x, y, z⟩ := offsets_within (by omega) meets
  apply covers_of_between (_, _, _) (_, _, _)
  · constructor <;> dsimp only <;> omega
  · constructor <;> dsimp only <;> omega
  · constructor <;> dsimp only <;> omega

theorem aoiRegionBox_covers
    (object : 0 ≤ o.radius.toInt ∧ o.radius.toInt ≤ a.maxRadius.toInt) (meets : MeetsBox b o) :
    (aoiRegionBox a b).Covers (a.cellOf o) := by
  obtain ⟨px, py, pz, boxX, boxY, boxZ, within⟩ := meets
  obtain ⟨x, y, z⟩ := offsets_within object.1 within
  apply covers_of_between (_, _, _) (_, _, _)
  · constructor <;> dsimp only <;> omega
  · constructor <;> dsimp only <;> omega
  · constructor <;> dsimp only <;> omega

end Reach

section Visiting

variable {a : KithAoi} {r : Region} {pred : AoiObject → Bool} {σ : Type} {o : AoiObject}

/-- The objects of a list of slots that pass the test. -/
def passing (a : KithAoi) (pred : AoiObject → Bool) (slots : List Nat) : List AoiObject :=
  (slots.map fun slot => (a.objs slot).obj).filter pred

theorem visitCell_eq (visit : Visitor σ) (user : σ) (c : CellCoord) :
    visitCell a pred visit user c = (passing a pred (a.members c)).foldlM (present visit) user := by
  rw [visitCell, KithAoi.members, entry, passing, foldlM_filter, foldlM_map]
  have found : lookup cellLayout a.buckets a.cells (aoiCellHash c) c = aoiCellFind a c := rfl
  rw [found]
  cases aoiCellFind a c with
  | none | some i => rfl

theorem aoiVisitRegion_eq (below : r.Below) (visit : Visitor σ) (user : σ) :
    aoiVisitRegion a r pred visit user =
      (passing a pred (r.cells.flatMap a.members)).foldlM (present visit) user := by
  rw [aoiVisitRegion_below below, passing, map_flatMap, filter_flatMap, foldlM_flatMap]
  congr 1
  funext user c
  exact visitCell_eq visit user c

variable (valid : a.Valid)
include valid

theorem holds_of_member {c : CellCoord} {slot : Nat} (member : slot ∈ a.members c) :
    Holds objLayout a.buckets a.objs (a.objs slot).obj.id slot := by
  have live := (valid.linked.mem_iff.mp member).1
  exact ⟨live.1, live.2, rfl⟩

theorem nodup_passing (r : Region) :
    ((passing a pred (r.cells.flatMap a.members)).map AoiObject.id).Nodup := by
  have slots : (r.cells.flatMap a.members).Nodup := by
    refine nodup_flatMap.mpr ⟨fun c _ => valid.linked.nodup c, (nodup_cells r).imp ?_⟩
    intro c c' other slot left right
    have here := (valid.linked.mem_iff.mp left).2
    have there := (valid.linked.mem_iff.mp right).2
    exact other (here.symm.trans there)
  have objects : ((r.cells.flatMap a.members).map fun slot => (a.objs slot).obj.id).Nodup := by
    refine slots.map_on ?_
    intro i member j member' same
    obtain ⟨_, _, inside⟩ := mem_flatMap.mp member
    obtain ⟨_, _, inside'⟩ := mem_flatMap.mp member'
    have first := holds_of_member valid inside
    rw [same] at first
    exact valid.tables.objs.distinct _ i j first (holds_of_member valid inside')
  have identifiers :
      ((r.cells.flatMap a.members).map fun slot => (a.objs slot).obj).map AoiObject.id =
      (r.cells.flatMap a.members).map fun slot => (a.objs slot).obj.id := map_map
  rw [← identifiers] at objects
  exact objects.sublist (filter_sublist.map AoiObject.id)

theorem mem_passing
    (reaches : ∀ o, a.stored o.id = some o → pred o = true → r.Covers (a.cellOf o)) :
    o ∈ passing a pred (r.cells.flatMap a.members) ↔ a.stored o.id = some o ∧ pred o = true := by
  simp only [passing, mem_filter, mem_map, mem_flatMap]
  constructor
  · rintro ⟨⟨slot, ⟨c, _, member⟩, rfl⟩, passes⟩
    exact ⟨valid.tables.stored_iff.mpr ⟨slot, holds_of_member valid member, rfl⟩, passes⟩
  · rintro ⟨found, passes⟩
    obtain ⟨slot, holds, rfl⟩ := valid.tables.stored_iff.mp found
    have live : a.Live slot := ⟨holds.1, holds.2.1⟩
    refine ⟨⟨slot, ⟨(a.objs slot).cell, ?_, ?_⟩, rfl⟩, passes⟩
    · rw [mem_cells, valid.placed slot live]
      exact reaches _ found passes
    · exact valid.linked.mem_iff.mpr ⟨live, rfl⟩

omit valid in
/-- The query shows each visitor the objects with a property, each once, until the visitor
stops it. -/
def Answers (query : ∀ {σ : Type}, Visitor σ → σ → Except (Leave σ) σ) (P : AoiObject → Prop) :
    Prop :=
  ∃ visited : List AoiObject, (visited.map AoiObject.id).Nodup ∧ (∀ o, o ∈ visited ↔ P o) ∧
    ∀ (σ : Type) (visit : Visitor σ) (user : σ),
      query visit user = visited.foldlM (present visit) user

theorem aoiVisitRegion_answers (below : r.Below)
    (reaches : ∀ o, a.stored o.id = some o → pred o = true → r.Covers (a.cellOf o)) :
    Answers (aoiVisitRegion a r pred) fun o => a.stored o.id = some o ∧ pred o = true := by
  refine ⟨passing a pred (r.cells.flatMap a.members), nodup_passing valid r, ?_, ?_⟩
  · intro o
    exact mem_passing valid reaches
  · intro σ visit user
    exact aoiVisitRegion_eq below visit user

omit valid in
theorem Answers.congr {query : ∀ {σ : Type}, Visitor σ → σ → Except (Leave σ) σ}
    {P Q : AoiObject → Prop} (answers : Answers query P) (same : ∀ o, P o ↔ Q o) :
    Answers query Q := by
  obtain ⟨visited, nodup, member, walk⟩ := answers
  exact ⟨visited, nodup, fun o => (member o).trans (same o), walk⟩

theorem KithAoi.Valid.radius (found : a.stored o.id = some o) :
    0 ≤ o.radius.toInt ∧ o.radius.toInt ≤ a.maxRadius.toInt := by
  obtain ⟨slot, holds, rfl⟩ := valid.tables.stored_iff.mp found
  exact valid.radii slot ⟨holds.1, holds.2.1⟩

omit valid in
def Region.ClearOfMax (r : Region) : Prop :=
  r.hi.x < int32Max ∧ r.hi.y < int32Max ∧ r.hi.z < int32Max

omit valid in
theorem Region.ClearOfMax.below (clear : r.ClearOfMax) : r.Below :=
  ⟨clear.2.2, fun _ => ⟨clear.2.1, fun _ => clear.1⟩⟩

theorem sphere_answers (query : 0 ≤ s.radius.toInt) (clear : (aoiRegionSphere a s).ClearOfMax) :
    Answers (kithAoiQuerySphere a s) fun o => a.stored o.id = some o ∧ MeetsSphere s o := by
  refine (aoiVisitRegion_answers valid clear.below ?_).congr ?_
  · intro o found passes
    have radius := valid.radius found
    exact aoiRegionSphere_covers query radius ((aoiPredSphere_iff query radius.1).mp passes)
  · intro o
    exact and_congr_right fun found => aoiPredSphere_iff query (valid.radius found).1

theorem box_answers (ordered : b.Ordered) (clear : (aoiRegionBox a b).ClearOfMax) :
    Answers (kithAoiQueryBox a b) fun o => a.stored o.id = some o ∧ MeetsBox b o := by
  refine (aoiVisitRegion_answers valid clear.below ?_).congr ?_
  · intro o found passes
    have radius := valid.radius found
    exact aoiRegionBox_covers radius ((aoiPredBox_iff ordered radius.1).mp passes)
  · intro o
    exact and_congr_right fun found => aoiPredBox_iff ordered (valid.radius found).1

end Visiting

section Runs

inductive AoiOp where
  | insert (obj : AoiObject)
  | update (obj : AoiObject)
  | remove (id : UInt64)

/-- An index with the objects that its callers left in it: inserted and not removed since,
as they were last written by a call that succeeded. -/
structure AoiRun where
  aoi : KithAoi
  heap : Heap AoiSite
  live : UInt64 → Option AoiObject

def AoiRun.write (r : AoiRun) (obj : AoiObject) (reply : Rc × KithAoi × Heap AoiSite) : AoiRun where
  aoi := reply.2.1
  heap := reply.2.2
  live := if reply.1 = .ok then Function.update r.live obj.id (some obj) else r.live

def AoiRun.step (r : AoiRun) : AoiOp → AoiRun
  | .insert obj => r.write obj (kithAoiInsert r.aoi r.heap obj)
  | .update obj => r.write obj (kithAoiUpdate r.aoi r.heap obj)
  | .remove id => ⟨kithAoiRemove r.aoi id, r.heap, Function.update r.live id none⟩

def AoiOp.Positive : AoiOp → Prop
  | .insert obj => 0 ≤ obj.radius.toInt
  | .update obj => 0 ≤ obj.radius.toInt
  | .remove _ => True

def AoiRun.Sound (r : AoiRun) : Prop := r.aoi.Valid ∧ r.aoi.stored = r.live

variable {r : AoiRun}

theorem AoiRun.Sound.write (sound : r.Sound) {obj : AoiObject} {reply : Rc × KithAoi × Heap AoiSite}
    (stores : Stores r.aoi obj reply) : (r.write obj reply).Sound := by
  obtain ⟨valid, stored⟩ := stores
  refine ⟨valid, ?_⟩
  rw [sound.2] at stored
  exact stored

theorem AoiRun.Sound.step (sound : r.Sound) {op : AoiOp} (positive : op.Positive) :
    (r.step op).Sound := by
  cases op with
  | insert obj => exact sound.write (kithAoiInsert_spec sound.1 r.heap positive)
  | update obj => exact sound.write (kithAoiUpdate_spec sound.1 r.heap positive)
  | remove id =>
    obtain ⟨valid, stored⟩ := kithAoiRemove_spec sound.1 id
    refine ⟨valid, ?_⟩
    rw [sound.2] at stored
    exact stored

theorem aoiOfSize_sound (bucketLog : Nat) {cellSize : Int64} (positive : 0 < cellSize.toInt)
    (heap : Heap AoiSite) :
    AoiRun.Sound ⟨aoiOfSize bucketLog cellSize positive, heap, fun _ => none⟩ := by
  have cells : entry cellLayout (2 ^ bucketLog) (aoiOfSize bucketLog cellSize positive).cells
      aoiCellHash = fun _ => none := entry_empty (fun _ _ => rfl) rfl
  have objs : entry objLayout (2 ^ bucketLog) (aoiOfSize bucketLog cellSize positive).objs
      aoiObjHash = fun _ => none := entry_empty (fun _ _ => rfl) rfl
  have dead : ∀ i, ¬ (aoiOfSize bucketLog cellSize positive).Live i := by
    rintro i ⟨_, live⟩
    cases live
  refine ⟨⟨⟨chained_empty fun _ _ => rfl, chained_empty fun _ _ => rfl⟩, ?_, ?_, ?_⟩, ?_⟩
  · refine (Indexed.nothing (aoiOfSize bucketLog cellSize positive).placeAt).congr ?_ ?_ fun _ _ =>
      rfl
    · intro p
      have nobody : (aoiOfSize bucketLog cellSize positive).members p.1 = [] := by
        exact congrArg (fun e => (Option.map CellNode.members e).getD []) (congrFun cells p.1)
      rw [listed, nobody]
      rfl
    · intro i
      exact iff_of_false (dead i) id
  · intro i live
    exact absurd live (dead i)
  · intro i live
    exact absurd live (dead i)
  · funext id
    exact congrArg (Option.map ObjNode.obj) (congrFun objs id)

theorem kithAoiCreate_ok {params : Option AoiParams} {heap heap' : Heap AoiSite} {a : KithAoi}
    (created : kithAoiCreate params heap = some (.ok a, heap')) :
    ∃ bucketLog cellSize positive, a = aoiOfSize bucketLog cellSize positive := by
  rw [kithAoiCreate] at created
  split at created
  · cases created
  · split at created
    · cases created
    · obtain ⟨buckets, _, built⟩ := Option.map_eq_some_iff.mp created
      split at built
      · cases built
      · split at built
        · cases built
        · cases built
          exact ⟨_, _, _, rfl⟩

/-- A query shows the visitor the objects in the index that meet it, each once. An object
that is in the index is updated within its cell whatever the allocator answers. -/
theorem queries_match_brute_force {params : Option AoiParams} {heap heap' : Heap AoiSite}
    {a : KithAoi} (created : kithAoiCreate params heap = some (.ok a, heap')) {r : AoiRun}
    (path : Path AoiRun.step (fun _ op => op.Positive) ⟨a, heap', fun _ => none⟩ r) :
    (∀ s : AoiSphere, 0 ≤ s.radius.toInt → (aoiRegionSphere r.aoi s).ClearOfMax →
      Answers (kithAoiQuerySphere r.aoi s) fun o => r.live o.id = some o ∧ MeetsSphere s o) ∧
    (∀ b : AoiBox, b.Ordered → (aoiRegionBox r.aoi b).ClearOfMax →
      Answers (kithAoiQueryBox r.aoi b) fun o => r.live o.id = some o ∧ MeetsBox b o) ∧
    ∀ o obj, r.live obj.id = some o → r.aoi.cellOf obj = r.aoi.cellOf o →
      (kithAoiUpdate r.aoi r.heap obj).1 = .ok := by
  obtain ⟨bucketLog, cellSize, positive, rfl⟩ := kithAoiCreate_ok created
  have sound : r.Sound := path.invariant AoiRun.Sound
    (fun _ _ sound positive => sound.step positive) (aoiOfSize_sound bucketLog positive heap')
  rw [← sound.2]
  refine ⟨?_, ?_, ?_⟩
  · intro s query clear
    exact sphere_answers sound.1 query clear
  · intro b ordered clear
    exact box_answers sound.1 ordered clear
  · intro o obj found same
    exact kithAoiUpdate_within sound.1 r.heap found same

/-- An object comes into the sphere from another cell. -/
theorem queries_match_brute_force_moved :
    ∃ r : AoiRun, r.live 7 = some ⟨7, 5, 5, 5, 3, 0⟩ ∧
      MeetsSphere ⟨0, 0, 0, 10⟩ ⟨7, 5, 5, 5, 3, 0⟩ ∧
      Answers (kithAoiQuerySphere r.aoi ⟨0, 0, 0, 10⟩) fun o =>
        r.live o.id = some o ∧ MeetsSphere ⟨0, 0, 0, 10⟩ o := by
  have created : kithAoiCreate (some ⟨88, 1, 0, 16⟩) ⟨fun _ _ => true, 0⟩ =
      some (.ok (aoiOfSize 4 0x100000 (by decide)), ⟨fun _ _ => true, 3⟩) := rfl
  have radius : (0 : Int) ≤ (3 : Int64).toInt := by decide
  refine ⟨_, ?_, ?_, (queries_match_brute_force created (.step (AoiOp.update ⟨7, 5, 5, 5, 3, 0⟩)
    (.step (AoiOp.insert ⟨7, 0x200000, 5, 5, 3, 0⟩) .start radius) radius)).1 ⟨0, 0, 0, 10⟩
    (by decide) ⟨?_, ?_, ?_⟩⟩
  · decide +kernel
  · exact (by decide : (75 : Int) ≤ 169)
  · decide +kernel
  · decide +kernel
  · decide +kernel

end Runs

end Kith.Aoi
