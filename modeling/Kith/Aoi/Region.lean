import Kith.Aoi.Index
import Kith.Lib.CountedLoop
import Mathlib.Algebra.Order.Ring.Abs
import Mathlib.Tactic.Linarith

/-!
# Regions and queries

A query walks the cells of a box of cell coordinates that covers every object which could
meet it, and shows the visitor the members that pass an exact test. The three counters
are of 32 bits, and the ends of the region are saturated to them.
-/

namespace Kith.Aoi

open CountedLoop LinearProbe List

section Predicates

structure AoiSphere where
  cx : Int64
  cy : Int64
  cz : Int64
  radius : Int64

structure AoiBox where
  minX : Int64
  minY : Int64
  minZ : Int64
  maxX : Int64
  maxY : Int64
  maxZ : Int64

/-- The axes of `aoi_dist_within` that remain, in unsigned 128-bit arithmetic. -/
def distWithinFrom (ar r2 : Nat) : Nat → List Int → Bool
  | _, [] => true
  | sum, d :: ds =>
    let ad := d.natAbs
    if ad > ar then false
    else
      let sq := ad * ad % 2 ^ 128
      if sq > (r2 + 2 ^ 128 - sum) % 2 ^ 128 then false
      else distWithinFrom ar r2 ((sum + sq) % 2 ^ 128) ds

def aoiDistWithin (dx dy dz radius : Int) : Bool :=
  let ar := radius.natAbs
  distWithinFrom ar (ar * ar % 2 ^ 128) 0 [dx, dy, dz]

def aoiClamp (v lo hi : Int64) : Int64 := if v < lo then lo else if v > hi then hi else v

def aoiPredSphere (s : AoiSphere) (o : AoiObject) : Bool :=
  aoiDistWithin (o.posX.toInt - s.cx.toInt) (o.posY.toInt - s.cy.toInt) (o.posZ.toInt - s.cz.toInt)
    (s.radius.toInt + o.radius.toInt)

def aoiPredBox (b : AoiBox) (o : AoiObject) : Bool :=
  aoiDistWithin (o.posX.toInt - (aoiClamp o.posX b.minX b.maxX).toInt)
    (o.posY.toInt - (aoiClamp o.posY b.minY b.maxY).toInt)
    (o.posZ.toInt - (aoiClamp o.posZ b.minZ b.maxZ).toInt) o.radius.toInt

end Predicates

section Queries

/-- The cells from `lo` to `hi` on each axis. -/
structure Region where
  lo : CellCoord
  hi : CellCoord

def aoiRegionCell (endpoint : Int) (cellSize : Int64) : Int := saturatedCell endpoint cellSize.toInt

def aoiRegionSphere (a : KithAoi) (s : AoiSphere) : Region :=
  let reach := s.radius.toInt + a.maxRadius.toInt
  ⟨⟨aoiRegionCell (s.cx.toInt - reach) a.cellSize, aoiRegionCell (s.cy.toInt - reach) a.cellSize,
      aoiRegionCell (s.cz.toInt - reach) a.cellSize⟩,
    ⟨aoiRegionCell (s.cx.toInt + reach) a.cellSize, aoiRegionCell (s.cy.toInt + reach) a.cellSize,
      aoiRegionCell (s.cz.toInt + reach) a.cellSize⟩⟩

def aoiRegionBox (a : KithAoi) (b : AoiBox) : Region :=
  let m := a.maxRadius.toInt
  ⟨⟨aoiRegionCell (b.minX.toInt - m) a.cellSize, aoiRegionCell (b.minY.toInt - m) a.cellSize,
      aoiRegionCell (b.minZ.toInt - m) a.cellSize⟩,
    ⟨aoiRegionCell (b.maxX.toInt + m) a.cellSize, aoiRegionCell (b.maxY.toInt + m) a.cellSize,
      aoiRegionCell (b.maxZ.toInt + m) a.cellSize⟩⟩

/-- Why a query ends before its last cell: the visitor stopped it, which is a return of 0,
or a counter was raised past `INT32_MAX`. -/
inductive Leave (σ : Type) where
  | stopped (user : σ)
  | overflow (user : σ)
  deriving DecidableEq

variable {σ : Type}

abbrev Visitor (σ : Type) := σ → AoiObject → Bool × σ

def present (visit : Visitor σ) (user : σ) (o : AoiObject) : Except (Leave σ) σ :=
  match visit user o with
  | (true, user) => .ok user
  | (false, user) => .error (.stopped user)

variable (a : KithAoi)

/-- The body of the innermost loop. -/
def visitCell (pred : AoiObject → Bool) (visit : Visitor σ) (user : σ) (c : CellCoord) :
    Except (Leave σ) σ :=
  match aoiCellFind a c with
  | none => .ok user
  | some i =>
    (a.cells i).members.foldlM (fun user slot =>
      let o := (a.objs slot).obj
      if pred o then present visit user o else .ok user) user

def aoiVisitRegion (region : Region) (pred : AoiObject → Bool) (visit : Visitor σ)
    (user : σ) : Except (Leave σ) σ :=
  let past := fun user => .error (.overflow user)
  loop int32Max past (fun user cz =>
    loop int32Max past (fun user cy =>
      loop int32Max past (fun user cx => visitCell a pred visit user ⟨cx, cy, cz⟩)
        region.lo.x region.hi.x user) region.lo.y region.hi.y user) region.lo.z region.hi.z user

def kithAoiQuerySphere (s : AoiSphere) (visit : Visitor σ) (user : σ) : Except (Leave σ) σ :=
  aoiVisitRegion a (aoiRegionSphere a s) (aoiPredSphere s) visit user

def kithAoiQueryBox (b : AoiBox) (visit : Visitor σ) (user : σ) : Except (Leave σ) σ :=
  aoiVisitRegion a (aoiRegionBox a b) (aoiPredBox b) visit user

end Queries

section Saturation

variable {pos pos' size : Int}

variable (positive : 0 < size)
include positive

theorem saturatedCell_eq : saturatedCell pos size = max int32Min (min int32Max (pos / size)) := by
  have floor : (if pos.tmod size < 0 then pos.tdiv size - 1 else pos.tdiv size) = pos / size := by
    have low := Int.emod_nonneg pos (Int.ne_of_gt positive)
    have high := Int.emod_lt_of_pos pos positive
    rw [Int.tdiv_eq_ediv, Int.sign_eq_one_of_pos positive]
    rw [Int.tmod_eq_emod]
    by_cases exact_or_up : 0 ≤ pos ∨ size ∣ pos
    · simp only [exact_or_up, if_true]
      omega
    · simp only [exact_or_up, if_false]
      omega
  simp only [saturatedCell, floor]
  have order : int32Min < int32Max := by decide
  split
  · omega
  · split <;> omega

theorem saturatedCell_mono (le : pos ≤ pos') :
    saturatedCell pos size ≤ saturatedCell pos' size := by
  have floors := Int.ediv_le_ediv positive le
  rw [saturatedCell_eq positive, saturatedCell_eq positive]
  omega

theorem saturatedCell_le : saturatedCell pos size ≤ int32Max := by
  have order : int32Min < int32Max := by decide
  rw [saturatedCell_eq positive]
  omega

theorem saturatedCell_lt_iff : saturatedCell pos size < int32Max ↔ pos < int32Max * size := by
  have order : int32Min < int32Max := by decide
  rw [saturatedCell_eq positive, ← Int.ediv_lt_iff_lt_mul positive]
  omega

end Saturation

section Covering

variable (r : Region)

def Region.Covers (c : CellCoord) : Prop :=
  (r.lo.x ≤ c.x ∧ c.x ≤ r.hi.x) ∧ (r.lo.y ≤ c.y ∧ c.y ≤ r.hi.y) ∧ r.lo.z ≤ c.z ∧ c.z ≤ r.hi.z

/-- The cells of a region in the order of the loops. -/
def Region.cells : List CellCoord :=
  (upTo r.lo.z r.hi.z).flatMap fun z => (upTo r.lo.y r.hi.y).flatMap fun y =>
    (upTo r.lo.x r.hi.x).map fun x => ⟨x, y, z⟩

/-- No counter that is used reaches the greatest value. -/
def Region.Below : Prop :=
  r.hi.z < int32Max ∧ (r.lo.z ≤ r.hi.z → r.hi.y < int32Max ∧
    (r.lo.y ≤ r.hi.y → r.hi.x < int32Max))

def Region.Saturated : Prop :=
  (r.lo.x ≤ int32Max ∧ r.hi.x ≤ int32Max) ∧ (r.lo.y ≤ int32Max ∧ r.hi.y ≤ int32Max) ∧
    r.lo.z ≤ int32Max ∧ r.hi.z ≤ int32Max

variable {a : KithAoi} {r : Region} {c : CellCoord} {pred : AoiObject → Bool} {σ : Type}
    {lo hi : Int}

theorem mem_cells : c ∈ r.cells ↔ r.Covers c := by
  simp only [Region.cells, mem_flatMap, mem_map, mem_upTo, Region.Covers]
  constructor
  · rintro ⟨z, insideZ, y, insideY, x, insideX, rfl⟩
    exact ⟨insideX, insideY, insideZ⟩
  · rintro ⟨insideX, insideY, insideZ⟩
    exact ⟨c.z, insideZ, c.y, insideY, c.x, insideX, rfl⟩

theorem nodup_cells (r : Region) : r.cells.Nodup := by
  refine nodup_flatMap.mpr ⟨?_, (nodup_upTo _ _).imp ?_⟩
  · intro z _
    refine nodup_flatMap.mpr ⟨?_, (nodup_upTo _ _).imp ?_⟩
    · intro y _
      refine (nodup_upTo _ _).map ?_
      intro x x' same
      exact congrArg CellCoord.x same
    · intro y y' other c left right
      obtain ⟨x, _, rfl⟩ := mem_map.mp left
      obtain ⟨x', _, same⟩ := mem_map.mp right
      exact other (congrArg CellCoord.y same).symm
  · intro z z' other c left right
    simp only [mem_flatMap, mem_map] at left right
    obtain ⟨y, _, x, _, rfl⟩ := left
    obtain ⟨y', _, x', _, same⟩ := right
    exact other (congrArg CellCoord.z same).symm

theorem foldlM_upTo_congr {f g : σ → Int → Except (Leave σ) σ}
    (same : lo ≤ hi → ∀ s c, f s c = g s c) (s : σ) :
    (upTo lo hi).foldlM f s = (upTo lo hi).foldlM g s := by
  by_cases inside : lo ≤ hi
  · have equal : f = g := by
      funext s c
      exact same inside s c
    rw [equal]
  · have nothing : upTo lo hi = [] := by
      apply eq_nil_iff_forall_not_mem.mpr
      intro c member
      have bounds := mem_upTo.mp member
      omega
    rw [nothing]
    rfl

/-- A region below the greatest coordinate is walked cell by cell. -/
theorem aoiVisitRegion_below (below : r.Below) (visit : Visitor σ) (user : σ) :
    aoiVisitRegion a r pred visit user = r.cells.foldlM (visitCell a pred visit) user := by
  rw [aoiVisitRegion, loop_below below.1, Region.cells, foldlM_flatMap]
  refine foldlM_upTo_congr (fun insideZ user z => ?_) user
  rw [loop_below (below.2 insideZ).1, foldlM_flatMap]
  refine foldlM_upTo_congr (fun insideY user y => ?_) user
  rw [loop_below ((below.2 insideZ).2 insideY), foldlM_map]

def idle : Visitor Unit := fun user _ => (true, user)

theorem visitCell_idle : visitCell a pred idle () c = .ok () := by
  rw [visitCell]
  split
  · rfl
  · rename_i i _
    induction (a.cells i).members with
    | nil => rfl
    | cons slot slots ih =>
      rw [foldlM_cons]
      have one : (if pred (a.objs slot).obj = true then present idle () (a.objs slot).obj
          else .ok ()) = .ok () := by
        split
        · rfl
        · rfl
      simp only [one]
      exact ih

/-- Either the walk goes through, when `P` holds, or a counter is raised too far. -/
def Ends (P : Prop) (walk : Except (Leave Unit) Unit) : Prop :=
  (P → walk = .ok ()) ∧ (¬ P → walk = .error (.overflow ()))

theorem Ends.loop {P : Prop} (body : Unit → Int → Except (Leave Unit) Unit)
    (ends : ∀ c, Ends P (body () c)) (low : lo ≤ int32Max) (high : hi ≤ int32Max) :
    Ends (hi < int32Max ∧ (lo ≤ hi → P))
      (CountedLoop.loop int32Max (fun user => .error (.overflow user)) body lo hi ()) := by
  have walked : P → ∀ cs : List Int, cs.foldlM body () = .ok () := by
    intro goes cs
    induction cs with
    | nil => rfl
    | cons c cs ih =>
      rw [foldlM_cons, (ends c).1 goes]
      exact ih
  constructor
  · rintro ⟨below, goes⟩
    rw [loop_below below]
    by_cases inside : lo ≤ hi
    · exact walked (goes inside) _
    · have skipped : (upTo lo hi).foldlM body () = (upTo lo hi).foldlM (fun s _ => .ok s) () :=
        foldlM_upTo_congr (fun enters => absurd enters inside) ()
      rw [skipped]
      exact foldlM_pure
  · intro reached
    by_cases goes : P
    · have top : hi = int32Max := by
        by_contra below
        exact reached ⟨by omega, fun _ => goes⟩
      rw [top, loop_top low, walked goes]
      rfl
    · -- Then the range is not empty, and its first value leaves.
      obtain ⟨n, count⟩ : ∃ n : Nat, (hi + 1 - lo).toNat = n + 1 := ⟨(hi - lo).toNat, by omega⟩
      rw [CountedLoop.loop, count, loopFrom, (ends lo).2 goes]
      rfl

/-- With a visitor that does not stop, a counter is raised past the greatest value unless
the region is below it. -/
theorem aoiVisitRegion_idle (saturated : r.Saturated) :
    Ends r.Below (aoiVisitRegion a r pred idle ()) := by
  obtain ⟨⟨lowX, highX⟩, ⟨lowY, highY⟩, lowZ, highZ⟩ := saturated
  have cell : ∀ c, Ends True (visitCell a pred idle () c) := fun c =>
    ⟨fun _ => visitCell_idle, fun never => absurd trivial never⟩
  have below : r.Below ↔ r.hi.z < int32Max ∧ (r.lo.z ≤ r.hi.z → r.hi.y < int32Max ∧
      (r.lo.y ≤ r.hi.y → r.hi.x < int32Max ∧ (r.lo.x ≤ r.hi.x → True))) := by
    simp [Region.Below, and_true]
  rw [below, aoiVisitRegion]
  refine Ends.loop _ (fun z => ?_) lowZ highZ
  refine Ends.loop _ (fun y => ?_) lowY highY
  exact Ends.loop _ (fun x => cell ⟨x, y, z⟩) lowX highX

/-- The query returns: it looks at each cell of the region once and raises no counter past
its greatest value, whatever the visitor does. -/
def Returns (a : KithAoi) (r : Region) (pred : AoiObject → Bool)
    (query : ∀ {σ : Type}, Visitor σ → σ → Except (Leave σ) σ) : Prop :=
  ∃ cells : List CellCoord, cells.Nodup ∧ (∀ c, c ∈ cells ↔ r.Covers c) ∧
    ∀ (σ : Type) (visit : Visitor σ) (user : σ),
      query visit user = cells.foldlM (visitCell a pred visit) user ∧
        ∀ last, query visit user ≠ .error (.overflow last)

theorem foldlM_ne_overflow {ι : Type} {step : σ → ι → Except (Leave σ) σ}
    (stays : ∀ s x last, step s x ≠ .error (.overflow last)) (xs : List ι) (s last : σ) :
    xs.foldlM step s ≠ .error (.overflow last) := by
  induction xs generalizing s with
  | nil => exact fun equal => by cases equal
  | cons x xs ih =>
    rw [foldlM_cons]
    cases first : step s x with
    | ok s => exact ih s
    | error e =>
      intro equal
      cases equal
      exact stays s x last first

theorem visitCell_ne_overflow (visit : Visitor σ) (user : σ) (c : CellCoord) (last : σ) :
    visitCell a pred visit user c ≠ .error (.overflow last) := by
  rw [visitCell]
  split
  · exact fun equal => by cases equal
  · refine foldlM_ne_overflow ?_ _ user last
    intro user slot last
    dsimp only
    split
    · rw [present]
      split
      · exact fun equal => by cases equal
      · exact fun equal => by cases equal
    · exact fun equal => by cases equal

theorem aoiVisitRegion_returns_iff (saturated : r.Saturated) :
    Returns a r pred (aoiVisitRegion a r pred) ↔ r.Below := by
  constructor
  · rintro ⟨_, _, _, returns⟩
    by_contra reached
    exact (returns Unit idle ()).2 () ((aoiVisitRegion_idle saturated).2 reached)
  · intro below
    refine ⟨r.cells, nodup_cells r, fun _ => mem_cells, ?_⟩
    intro σ visit user
    have walked : aoiVisitRegion a r pred visit user = _ := aoiVisitRegion_below below visit user
    exact ⟨walked,
      fun last overflows => foldlM_ne_overflow (visitCell_ne_overflow visit) _ user last
      (walked.symm.trans overflows)⟩

end Covering

section Returning

/-- What the query spans on each axis ends before the last cell. An axis counts only when
the walk enters it: the ranges of the axes outside it are not empty. -/
def EndsInside (size : Int64) (x y z : Int × Int) : Prop :=
  z.2 < int32Max * size.toInt ∧ (aoiRegionCell z.1 size ≤ aoiRegionCell z.2 size →
    y.2 < int32Max * size.toInt ∧ (aoiRegionCell y.1 size ≤ aoiRegionCell y.2 size →
      x.2 < int32Max * size.toInt))

variable (a : KithAoi) (s : AoiSphere) (b : AoiBox)

theorem aoiRegionSphere_saturated : (aoiRegionSphere a s).Saturated :=
  ⟨⟨saturatedCell_le a.cellSize_pos, saturatedCell_le a.cellSize_pos⟩,
    ⟨saturatedCell_le a.cellSize_pos, saturatedCell_le a.cellSize_pos⟩,
    saturatedCell_le a.cellSize_pos, saturatedCell_le a.cellSize_pos⟩

theorem aoiRegionBox_saturated : (aoiRegionBox a b).Saturated :=
  ⟨⟨saturatedCell_le a.cellSize_pos, saturatedCell_le a.cellSize_pos⟩,
    ⟨saturatedCell_le a.cellSize_pos, saturatedCell_le a.cellSize_pos⟩,
    saturatedCell_le a.cellSize_pos, saturatedCell_le a.cellSize_pos⟩

/-- The queries return exactly when what they span ends before the last cell. -/
theorem queries_return_iff :
    (Returns a (aoiRegionSphere a s) (aoiPredSphere s) (kithAoiQuerySphere a s) ↔
      EndsInside a.cellSize
        (s.cx.toInt - (s.radius.toInt + a.maxRadius.toInt),
          s.cx.toInt + (s.radius.toInt + a.maxRadius.toInt))
        (s.cy.toInt - (s.radius.toInt + a.maxRadius.toInt),
          s.cy.toInt + (s.radius.toInt + a.maxRadius.toInt))
        (s.cz.toInt - (s.radius.toInt + a.maxRadius.toInt),
          s.cz.toInt + (s.radius.toInt + a.maxRadius.toInt))) ∧
    (Returns a (aoiRegionBox a b) (aoiPredBox b) (kithAoiQueryBox a b) ↔
      EndsInside a.cellSize
        (b.minX.toInt - a.maxRadius.toInt, b.maxX.toInt + a.maxRadius.toInt)
        (b.minY.toInt - a.maxRadius.toInt, b.maxY.toInt + a.maxRadius.toInt)
        (b.minZ.toInt - a.maxRadius.toInt, b.maxZ.toInt + a.maxRadius.toInt)) := by
  constructor
  · refine (aoiVisitRegion_returns_iff (aoiRegionSphere_saturated a s)).trans ?_
    simp [Region.Below, aoiRegionSphere, EndsInside, aoiRegionCell,
      saturatedCell_lt_iff a.cellSize_pos]
  · refine (aoiVisitRegion_returns_iff (aoiRegionBox_saturated a b)).trans ?_
    simp [Region.Below, aoiRegionBox, EndsInside, aoiRegionCell,
      saturatedCell_lt_iff a.cellSize_pos]

/-- A query at a far point of a default index, in which nothing is stored. -/
theorem far_query_overflows :
    ∃ a heap, kithAoiCreate none ⟨fun _ _ => true, 0⟩ = some (.ok a, heap) ∧
      kithAoiQuerySphere a ⟨0, 0, 0x8000000000000, 0⟩ idle () = .error (.overflow ()) := by
  refine ⟨aoiOfSize 12 0x100000 (by decide), _, rfl, ?_⟩
  apply (aoiVisitRegion_idle (aoiRegionSphere_saturated _ _)).2
  intro below
  exact absurd below.1 (by decide)

end Returning

end Kith.Aoi
