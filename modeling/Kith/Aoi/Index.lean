import Kith.Base
import Kith.Lib.LinearProbe
import Kith.Lib.SwapRemove

/-!
# The area-of-interest index

Objects lie in a hash by their identifier and in the member array of the cell that holds
their centre; a second hash finds the cells, which are made on demand and never dropped.
An object records its position in the member array, and a removal there swaps the last
member in.
-/

namespace Kith.Aoi

open LinearProbe SwapRemove

section Records

/-- `kith_aoi_object_t`. -/
structure AoiObject where
  id : UInt64
  posX : Int64
  posY : Int64
  posZ : Int64
  radius : Int64
  userPtr : UInt64
  deriving DecidableEq

structure CellCoord where
  x : Int
  y : Int
  z : Int
  deriving DecidableEq

/-- `struct aoi_obj_node`. -/
structure ObjNode where
  obj : AoiObject
  cell : CellCoord
  cellPos : Nat
  used : Bool
  deleted : Bool

/-- `struct aoi_cell_node`; the member count is the length of the list. -/
structure CellNode where
  members : List Nat
  memberCap : Nat
  cell : CellCoord
  used : Bool

inductive AoiSite where
  | handle | objs | cells | members
  deriving DecidableEq

/-- `struct kith_aoi`; both hashes have `2 ^ bucketLog` buckets from its creation on. -/
structure KithAoi where
  objs : Nat → ObjNode
  objCount : Nat
  cells : Nat → CellNode
  bucketLog : Nat
  cellSize : Int64
  cellSize_pos : 0 < cellSize.toInt
  maxRadius : Int64

def KithAoi.buckets (a : KithAoi) : Nat := 2 ^ a.bucketLog

end Records

section Hashing

def aoiObjHash (id : UInt64) : Nat :=
  let k := id
  let k := k ^^^ (k >>> 33)
  let k := k * 0xff51afd7ed558ccd
  let k := k ^^^ (k >>> 33)
  let k := k * 0xc4ceb9fe1a85ec53
  let k := k ^^^ (k >>> 33)
  k.toNat

/-- A coordinate as the hash reads it, through `uint32_t`. -/
def wordOf (v : Int) : UInt64 := UInt64.ofNat (v % 2 ^ 32).toNat

def aoiCellHash (c : CellCoord) : Nat :=
  let k : UInt64 := 0
  let k := k * 131 + wordOf c.x
  let k := k * 131 + wordOf c.y
  let k := k * 131 + wordOf c.z
  let k := k ^^^ (k >>> 33)
  let k := k * 0xff51afd7ed558ccd
  let k := k ^^^ (k >>> 33)
  k.toNat

def objLayout : Layout ObjNode UInt64 := ⟨ObjNode.used, ObjNode.deleted, fun n => n.obj.id⟩

/-- Cells are never deleted. -/
def cellLayout : Layout CellNode CellCoord := ⟨CellNode.used, fun _ => false, CellNode.cell⟩

end Hashing

section Cells

def int32Max : Int := 2 ^ 31 - 1
def int32Min : Int := -2 ^ 31

/-- The quotient rounded down, then moved into the range of the cell coordinates. -/
def saturatedCell (pos cellSize : Int) : Int :=
  let q := pos.tdiv cellSize
  let r := pos.tmod cellSize
  let q := if r < 0 then q - 1 else q
  if q > int32Max then int32Max else if q < int32Min then int32Min else q

def aoiCellOf (pos cellSize : Int64) : Int := saturatedCell pos.toInt cellSize.toInt

variable (a : KithAoi)

/-- `aoi_cell_of` on the three axes. -/
def KithAoi.cellOf (obj : AoiObject) : CellCoord :=
  ⟨aoiCellOf obj.posX a.cellSize, aoiCellOf obj.posY a.cellSize, aoiCellOf obj.posZ a.cellSize⟩

def aoiObjFind (id : UInt64) : Option Nat :=
  lookup objLayout a.buckets a.objs (aoiObjHash id) id

/-- The first tombstone passed, or the unused bucket that ended the probe. -/
def aoiObjSlotForInsert (id : UInt64) : Option Nat :=
  match place objLayout a.buckets a.objs (aoiObjHash id) with
  | .fresh i _ => some i
  | .full tomb => tomb

variable (c : CellCoord)

def aoiCellFind : Option Nat :=
  lookup cellLayout a.buckets a.cells (aoiCellHash c) c

def CellNode.fresh : CellNode := ⟨[], 0, c, true⟩

/-- The probe of `aoi_cell_find_or_create`: a bucket, and whether it is a new one. -/
def aoiCellProbe (n : Nat) (cells : Nat → CellNode) (h : Nat) (c : CellCoord) :
    List Nat → Option (Nat × Bool)
  | [] => none
  | p :: ps =>
    let i := bucket n h p
    if (cells i).used = false then some (i, true)
    else if (cells i).cell = c then some (i, false)
    else aoiCellProbe n cells h c ps

def KithAoi.setCell (i : Nat) (node : CellNode) : KithAoi :=
  { a with cells := Function.update a.cells i node }

def KithAoi.setObj (i : Nat) (node : ObjNode) : KithAoi :=
  { a with objs := Function.update a.objs i node }

def aoiCellFindOrCreate : Option Nat × KithAoi :=
  match aoiCellProbe a.buckets a.cells (aoiCellHash c) c (List.range a.buckets) with
  | none => (none, a)
  | some (i, true) => (some i, a.setCell i (CellNode.fresh c))
  | some (i, false) => (some i, a)

/-- `aoi_cell_attach` with `aoi_cell_grow`. -/
def aoiCellAttach (heap : Heap AoiSite) (i slot : Nat) : Rc × KithAoi × Heap AoiSite :=
  let cell := a.cells i
  if cell.members.length = cell.memberCap then
    match heap.request .members with
    | (false, heap) => (.err .enomem, a, heap)
    | (true, heap) =>
      (.ok, a.setCell i { cell with
        members := cell.members ++ [slot]
        memberCap := if cell.memberCap = 0 then 4 else cell.memberCap * 2 }, heap)
  else (.ok, a.setCell i { cell with members := cell.members ++ [slot] }, heap)

def aoiCellDetach (slot : Nat) : KithAoi :=
  let obj := a.objs slot
  match aoiCellFind a obj.cell with
  | none => a
  | some i =>
    let cell := a.cells i
    match cell.members[obj.cellPos]?, cell.members.getLast? with
    | some held, some last =>
      if held ≠ slot then a
      else
        let a := a.setCell i { cell with members := swapRemove cell.members obj.cellPos }
        if obj.cellPos ≠ cell.members.length - 1 then
          a.setObj last { a.objs last with cellPos := obj.cellPos }
        else a
    | _, _ => a

end Cells

section Calls

variable (a : KithAoi)

/-- The radius bound grows only. -/
def KithAoi.noteRadius (obj : AoiObject) : KithAoi :=
  if obj.radius > a.maxRadius then { a with maxRadius := obj.radius } else a

def kithAoiInsert (heap : Heap AoiSite) (obj : AoiObject) : Rc × KithAoi × Heap AoiSite :=
  if (aoiObjFind a obj.id).isSome then (.err .eexist, a, heap)
  else if 2 ^ 64 ≤ a.objCount + 1 then (.err .eoverflow, a, heap)
  else
    match aoiObjSlotForInsert a obj.id with
    | none => (.err .ebusy, a, heap)
    | some slot =>
      let c := a.cellOf obj
      match aoiCellFindOrCreate a c with
      | (none, a) => (.err .ebusy, a, heap)
      | (some i, a) =>
        match aoiCellAttach a heap i slot with
        | (.err code, a, heap) => (.err code, a, heap)
        | (.ok, a, heap) =>
          let node : ObjNode := ⟨obj, c, (a.cells i).members.length - 1, true, false⟩
          (.ok, { a.setObj slot node with objCount := a.objCount + 1 }.noteRadius obj, heap)

def kithAoiUpdate (heap : Heap AoiSite) (obj : AoiObject) : Rc × KithAoi × Heap AoiSite :=
  match aoiObjFind a obj.id with
  | none => (.err .enoent, a, heap)
  | some slot =>
    let c := a.cellOf obj
    if c ≠ (a.objs slot).cell then
      match aoiCellFindOrCreate a c with
      | (none, a) => (.err .ebusy, a, heap)
      | (some i, a) =>
        match aoiCellAttach a heap i slot with
        | (.err code, a, heap) => (.err code, a, heap)
        | (.ok, a, heap) =>
          let a := aoiCellDetach a slot
          let node := { a.objs slot with
            cell := c
            cellPos := (a.cells i).members.length - 1
            obj := obj }
          (.ok, (a.setObj slot node).noteRadius obj, heap)
    else (.ok, (a.setObj slot { a.objs slot with obj := obj }).noteRadius obj, heap)

def kithAoiRemove (id : UInt64) : KithAoi :=
  match aoiObjFind a id with
  | none => a
  | some slot =>
    let a := aoiCellDetach a slot
    { a.setObj slot { a.objs slot with deleted := true } with
      objCount := if a.objCount > 0 then a.objCount - 1 else a.objCount }

end Calls

section Create

/-- `kith_aoi_params_t`; `size` and `abiVersion` are checked against 88 and 1. -/
structure AoiParams where
  size : UInt32
  abiVersion : UInt32
  cellSize : Int64
  bucketCount : UInt32

def aoiParamsValidate (p : AoiParams) : Except KithError Unit :=
  if p.size < 88 then .error .esize
  else if p.abiVersion ≠ 1 then .error .eabiver
  else if p.cellSize < 0 then .error .einval
  else if p.bucketCount > 0x80000000 then .error .einval
  else .ok ()

/-- The cell size, 16 world units when it is 0. -/
def aoiResolveCellSize (p : AoiParams) : Int64 :=
  if p.cellSize = 0 then (16 : Int64) <<< 16 else p.cellSize

def aoiResolveBuckets (requested : UInt32) : Option UInt32 :=
  (nextPow2Loop requested 33 1).map fun b => if b < 16 then 16 else b

def aoiOfSize (bucketLog : Nat) (cellSize : Int64) (positive : 0 < cellSize.toInt) : KithAoi where
  objs := fun _ => ⟨⟨0, 0, 0, 0, 0, 0⟩, ⟨0, 0, 0⟩, 0, false, false⟩
  objCount := 0
  cells := fun _ => ⟨[], 0, ⟨0, 0, 0⟩, false⟩
  bucketLog := bucketLog
  cellSize := cellSize
  cellSize_pos := positive
  maxRadius := 0

theorem aoiResolveCellSize_pos {p : AoiParams} (valid : aoiParamsValidate p = .ok ()) :
    0 < (aoiResolveCellSize p).toInt := by
  rw [aoiParamsValidate] at valid
  repeat (split at valid; · cases valid)
  rename_i positive _
  rw [Int64.lt_iff_toInt_lt] at positive
  rw [aoiResolveCellSize]
  split
  · decide
  · rename_i nonzero
    have apart : p.cellSize.toInt ≠ (0 : Int64).toInt :=
      fun same => nonzero (Int64.toInt_inj.mp same)
    have zero : (0 : Int64).toInt = 0 := rfl
    omega

/-- No parameters are the default ones, which are valid. -/
def kithAoiCreate (params : Option AoiParams) (heap : Heap AoiSite) :
    Option (Except KithError KithAoi × Heap AoiSite) :=
  let p := params.getD ⟨88, 1, 0, 0⟩
  match valid : aoiParamsValidate p with
  | .error code => some (.error code, heap)
  | .ok () =>
    match heap.request .handle with
    | (false, heap) => some (.error .enomem, heap)
    | (true, heap) =>
      (aoiResolveBuckets (if p.bucketCount = 0 then 4096 else p.bucketCount)).map fun buckets =>
        match heap.request .objs with
        | (false, heap) => (.error .enomem, heap)
        | (true, heap) =>
          match heap.request .cells with
          | (false, heap) => (.error .enomem, heap)
          | (true, heap) =>
            (.ok (aoiOfSize buckets.toNat.log2 (aoiResolveCellSize p)
              (aoiResolveCellSize_pos valid)), heap)

end Create

end Kith.Aoi
