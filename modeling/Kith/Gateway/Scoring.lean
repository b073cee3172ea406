import Mathlib.Algebra.Order.Ring.Abs
import Kith.Gateway.Cache
import Kith.Gateway.Delivery

/-!
# How the composer scores a candidate

Candidates are ranked by whether they were in the prior view and by squared
distance, and a selected one gets its level from the distance of its cell. Both
are computed in machine words that wrap around. The rank is the true one as long
as the squared distances fit their word, the level as long as the cells are less
than half the coordinate range apart.
-/

namespace Kith.Gateway

/-- `struct gateway_compose_entry`; the artifact and the cell are borrowed there. -/
structure ComposeEntry where
  artifact : Artifact
  cell : CellKey
  distSq : Int64
  wasPrior : Bool
  deriving DecidableEq

section Scores

def gatewayViewDistSq (x y z : Int64) (sub : Artifact) : Int64 :=
  let dx := x - sub.posX
  let dy := y - sub.posY
  let dz := z - sub.posZ
  dx * dx + dy * dy + dz * dz

def ComposeEntry.of (sub : Artifact) (prior : UInt64 → Bool) (cell : CellKey) (a : Artifact) :
    ComposeEntry :=
  ⟨a, cell, gatewayViewDistSq a.posX a.posY a.posZ sub, prior a.actorId⟩

def gatewayEntryBetter (a b : ComposeEntry) : Bool :=
  if a.wasPrior ≠ b.wasPrior then a.wasPrior else a.distSq < b.distSq

def gatewayCellChebyshev (a b : CellKey) : Int32 :=
  let dx := a.cellX - b.cellX
  let dy := a.cellY - b.cellY
  let dz := a.cellZ - b.cellZ
  let dx := if dx < 0 then -dx else dx
  let dy := if dy < 0 then -dy else dy
  let dz := if dz < 0 then -dz else dz
  let m := dx
  let m := if dy > m then dy else m
  if dz > m then dz else m

def gatewayViewAssignTier (s : ViewSubject) (cand : ComposeEntry) (subCell : CellKey) :
    ViewSubject :=
  if gatewayCellChebyshev cand.cell subCell ≤ 1 ∧ cand.cell.zone = subCell.zone then
    { s with level := .full }
  else { s with level := .reduced, inputTick := 0, updateSeq := 0 }

end Scores

section Distance

def squaredDistance (a sub : Artifact) : Int :=
  (a.posX.toInt - sub.posX.toInt) ^ 2 + (a.posY.toInt - sub.posY.toInt) ^ 2 +
    (a.posZ.toInt - sub.posZ.toInt) ^ 2

theorem bmod_word {x : Int} (low : -2 ^ 63 ≤ x) (high : x < 2 ^ 63) : x.bmod (2 ^ 64) = x :=
  Int.bmod_eq_of_le_mul_two (by omega) (by omega)

theorem toInt_square {x y : Int64} (fits : (x.toInt - y.toInt) ^ 2 < 2 ^ 63) :
    ((x - y) * (x - y)).toInt = (x.toInt - y.toInt) ^ 2 := by
  have small : |x.toInt - y.toInt| < 2 ^ 32 := by
    refine abs_lt_of_sq_lt_sq (lt_trans fits ?_) ?_
    · decide
    · decide
  rw [abs_lt] at small
  have difference : (x - y).toInt = x.toInt - y.toInt := by
    rw [Int64.toInt_sub]
    exact bmod_word (by omega) (by omega)
  have positive := sq_nonneg (x.toInt - y.toInt)
  rw [Int64.toInt_mul, difference, ← sq]
  exact bmod_word (by omega) fits

theorem toInt_distSq {a sub : Artifact} (fits : squaredDistance a sub < 2 ^ 63) :
    (gatewayViewDistSq a.posX a.posY a.posZ sub).toInt = squaredDistance a sub := by
  have x := sq_nonneg (a.posX.toInt - sub.posX.toInt)
  have y := sq_nonneg (a.posY.toInt - sub.posY.toInt)
  have z := sq_nonneg (a.posZ.toInt - sub.posZ.toInt)
  unfold squaredDistance at fits ⊢
  have plane : ((a.posX - sub.posX) * (a.posX - sub.posX) +
      (a.posY - sub.posY) * (a.posY - sub.posY)).toInt =
        (a.posX.toInt - sub.posX.toInt) ^ 2 + (a.posY.toInt - sub.posY.toInt) ^ 2 := by
    rw [Int64.toInt_add, toInt_square (by omega), toInt_square (by omega)]
    exact bmod_word (by omega) (by omega)
  simp only [gatewayViewDistSq]
  rw [Int64.toInt_add, plane, toInt_square (by omega)]
  exact bmod_word (by omega) fits

end Distance

section Level

/-- The coordinates of two cells are less than half their range apart. -/
def Comparable (a b : CellKey) : Prop :=
  |a.cellX.toInt - b.cellX.toInt| < 2 ^ 31 ∧ |a.cellY.toInt - b.cellY.toInt| < 2 ^ 31 ∧
    |a.cellZ.toInt - b.cellZ.toInt| < 2 ^ 31

def Adjacent (a b : CellKey) : Prop :=
  |a.cellX.toInt - b.cellX.toInt| ≤ 1 ∧ |a.cellY.toInt - b.cellY.toInt| ≤ 1 ∧
    |a.cellZ.toInt - b.cellZ.toInt| ≤ 1

theorem toInt_distance {x y : Int32} (apart : |x.toInt - y.toInt| < 2 ^ 31) :
    (if x - y < 0 then -(x - y) else x - y).toInt = |x.toInt - y.toInt| := by
  rw [abs_lt] at apart
  have difference : (x - y).toInt = x.toInt - y.toInt := by
    rw [Int32.toInt_sub]
    exact Int.bmod_eq_of_le_mul_two (by omega) (by omega)
  have sign : x - y < 0 ↔ x.toInt - y.toInt < 0 := by
    rw [Int32.lt_iff_toInt_lt, difference]
    rfl
  split
  · rename_i negative
    have negative := sign.mp negative
    rw [Int32.toInt_neg, difference, abs_of_neg negative]
    exact Int.bmod_eq_of_le_mul_two (by omega) (by omega)
  · rename_i positive
    rw [difference, abs_of_nonneg (not_lt.mp (mt sign.mpr positive))]

theorem max_le_one {a b : Int32} : (if b > a then b else a) ≤ 1 ↔ a ≤ 1 ∧ b ≤ 1 := by
  simp only [Int32.le_iff_toInt_le]
  split
  · rename_i larger
    have larger := Int32.lt_iff_toInt_lt.mp larger
    omega
  · rename_i smaller
    have smaller := mt Int32.lt_iff_toInt_lt.mpr smaller
    omega

theorem chebyshev_le_one {a b : CellKey} (apart : Comparable a b) :
    gatewayCellChebyshev a b ≤ 1 ↔ Adjacent a b := by
  have word : ∀ {x y : Int32}, |x.toInt - y.toInt| < 2 ^ 31 →
      ((if x - y < 0 then -(x - y) else x - y) ≤ 1 ↔ |x.toInt - y.toInt| ≤ 1) := by
    intro x y apart
    rw [Int32.le_iff_toInt_le, toInt_distance apart]
    rfl
  simp only [gatewayCellChebyshev]
  rw [max_le_one, max_le_one, word apart.1, word apart.2.1, word apart.2.2, and_assoc]
  rfl

end Level

/-- Two candidates of equal prior status are ranked by their distances if those fit the word,
and a candidate is given the full level exactly next to the subscriber's cell if the cells
are comparable. -/
theorem scoring_exact (sub a b : Artifact) (prior : UInt64 → Bool) (cellA cellB subCell : CellKey)
    (s : ViewSubject) (alike : prior a.actorId = prior b.actorId) :
    (squaredDistance a sub < 2 ^ 63 → squaredDistance b sub < 2 ^ 63 →
      (gatewayEntryBetter (.of sub prior cellA a) (.of sub prior cellB b) = true ↔
        squaredDistance a sub < squaredDistance b sub)) ∧
    (Comparable cellA subCell →
      ((gatewayViewAssignTier s (.of sub prior cellA a) subCell).level = .full ↔
        cellA.zone = subCell.zone ∧ Adjacent cellA subCell)) := by
  constructor
  · intro fits_a fits_b
    have equal : ¬ ((ComposeEntry.of sub prior cellA a).wasPrior ≠
        (ComposeEntry.of sub prior cellB b).wasPrior) := not_not.mpr alike
    rw [gatewayEntryBetter, if_neg equal, decide_eq_true_iff, Int64.lt_iff_toInt_lt]
    simp only [ComposeEntry.of, toInt_distSq fits_a, toInt_distSq fits_b]
  · intro apart
    have near := chebyshev_le_one apart
    unfold gatewayViewAssignTier
    split
    · rename_i full
      exact iff_of_true rfl ⟨full.2, near.mp full.1⟩
    · rename_i reduced
      refine iff_of_false (fun same => by cases same) fun both => ?_
      exact reduced ⟨near.mpr both.2, both.1⟩

section Instances

def artifactAt (id : UInt64) (x : Int64) : Artifact := ⟨id, x, 0, 0, 0, 0, 0, 0, 0⟩

def cellAt (x : Int32) : CellKey := ⟨0, x, 0, 0, 0⟩

def blankSubject : ViewSubject := ⟨0, 0, 0, 0, 0, 0, 0, 0, 0, .full, .actor, false, false⟩

theorem scoring_exact_near :
    gatewayEntryBetter (.of (artifactAt 1 0) (fun _ => false) (cellAt 0) (artifactAt 2 3))
        (.of (artifactAt 1 0) (fun _ => false) (cellAt 2) (artifactAt 3 4)) = true ∧
      (gatewayViewAssignTier blankSubject
        (.of (artifactAt 1 0) (fun _ => false) (cellAt 0) (artifactAt 2 3)) (cellAt 1)).level =
          .full := by
  obtain ⟨rank, level⟩ := scoring_exact (artifactAt 1 0) (artifactAt 2 3) (artifactAt 3 4)
    (fun _ => false) (cellAt 0) (cellAt 2) (cellAt 1) blankSubject rfl
  refine ⟨(rank (by decide) (by decide)).mpr (by decide), (level ?_).mpr ⟨rfl, ?_⟩⟩
  · exact ⟨by decide, by decide, by decide⟩
  · exact ⟨by decide, by decide, by decide⟩

/-- A candidate at 2^32 ranks before one at 1, and the cells at the two ends of the range pass
for neighbours. -/
theorem far_ends_pass_for_near :
    gatewayEntryBetter (.of (artifactAt 1 0) (fun _ => false) (cellAt 0) (artifactAt 2 4294967296))
        (.of (artifactAt 1 0) (fun _ => false) (cellAt 0) (artifactAt 3 1)) = true ∧
      squaredDistance (artifactAt 3 1) (artifactAt 1 0) <
        squaredDistance (artifactAt 2 4294967296) (artifactAt 1 0) ∧
      (gatewayViewAssignTier blankSubject
        (.of (artifactAt 1 0) (fun _ => false) (cellAt 2147483647) (artifactAt 2 0))
        (cellAt (-2147483648))).level = .full ∧
      ¬ Adjacent (cellAt 2147483647) (cellAt (-2147483648)) := by
  refine ⟨by decide, by decide, by decide, fun near => ?_⟩
  exact absurd near.1 (by decide)

end Instances

end Kith.Gateway
