import Kith.Base
import Mathlib.Logic.Relation
import Mathlib.Algebra.Ring.Int.Defs
import Mathlib.Data.Int.Order.Basic

/-!
# The physics step

The velocity of an actor is ramped towards the target of its input and its position is
integrated, in Q16.16 and signed 64-bit arithmetic. Only the addition to the position is
checked for overflow; any other operation that overflows has no meaning and ends the run.
-/

namespace Kith.Sim

open Relation Option

/-- The result of a signed 64-bit operation; `none` when it overflows. -/
def i64 (x : Int) : Option Int := if -2 ^ 63 ≤ x ∧ x < 2 ^ 63 then some x else none

def simToFix (v : UInt32) : Nat := v.toNat * 65536

def simAbsFix (v : Int) : Option Int := if v < 0 then i64 (-v) else some v

structure SimPhysics where
  baseSpeedFix : Int
  runSpeedFix : Int
  accelFix : Int
  decelFix : Int
  moveEpsFix : Int

def SimPhysics.ofConfig (baseSpeed runSpeed accel decel : UInt32) (moveEpsFix : Int) : SimPhysics :=
  ⟨simToFix baseSpeed, simToFix runSpeed, simToFix accel, simToFix decel, moveEpsFix⟩

/-- What a step reads of `kith_sim_input_t`. -/
structure SimInput where
  moveX : Int16
  moveY : Int16
  flags : UInt8

/-- What a step reads and writes of `kith_sim_actor_t`. -/
structure Body where
  posX : Int
  posY : Int
  velX : Int
  velY : Int
  deriving DecidableEq

def simRampAxis (current target accel decel : Int) : Option Int := do
  let delta ← i64 (target - current)
  if delta = 0 then some current
  else
    let absTarget ← simAbsFix target
    let absCurrent ← simAbsFix current
    let rate := if absTarget > absCurrent then accel else decel
    let absDelta ← simAbsFix delta
    if absDelta ≤ rate then some target
    else if delta > 0 then i64 (current + rate)
    else (i64 (-rate)).bind fun back => i64 (current + back)

variable (p : SimPhysics)

/-- The velocity towards which an axis is ramped. -/
def simTarget (input : Option SimInput) (move : SimInput → Int16) : Option Int :=
  match input with
  | none => some 0
  | some i =>
    let speed := if i.flags &&& 1 ≠ 0 then p.runSpeedFix else p.baseSpeedFix
    (i64 ((move i).toInt * speed)).map fun scaled => scaled.tdiv 32767

def simStill (eps velX velY : Int) : Option Bool :=
  (simAbsFix velX).bind fun absX =>
    if absX < eps then (simAbsFix velY).map fun absY => absY < eps else some false

/-- The first half of `sim_physics_step`, which stores the velocities. -/
def simAccelerate (a : Body) (input : Option SimInput) : Option Body := do
  let targetVx ← simTarget p input SimInput.moveX
  let targetVy ← simTarget p input SimInput.moveY
  let velX ← simRampAxis a.velX targetVx p.accelFix p.decelFix
  let velY ← simRampAxis a.velY targetVy p.accelFix p.decelFix
  let still ← simStill p.moveEpsFix velX velY
  some { a with velX := bif still then 0 else velX, velY := bif still then 0 else velY }

/-- The second half; a step past the 64-bit positions leaves the actor where it is. -/
def simIntegrate (dtMs : UInt32) (a : Body) : Option Body := do
  let stepVx ← i64 (a.velX * dtMs.toNat)
  let stepVy ← i64 (a.velY * dtMs.toNat)
  match i64 (a.posX + stepVx.tdiv 50), i64 (a.posY + stepVy.tdiv 50) with
  | some newX, some newY => some { a with posX := newX, posY := newY }
  | _, _ => some a

def simPhysicsStep (a : Body) (input : Option SimInput) (dtMs : UInt32) : Option Body :=
  (simAccelerate p a input).bind (simIntegrate dtMs)

section Step

theorem i64_of_small {x : Int} (small : x.natAbs < 2 ^ 63) : i64 x = some x :=
  if_pos (by omega)

theorem simAbsFix_of_small {v : Int} (small : v.natAbs < 2 ^ 63) :
    simAbsFix v = some (v.natAbs : Int) := by
  unfold simAbsFix
  split
  · rw [i64_of_small (by omega)]
    congr
    omega
  · congr
    omega

theorem simRampAxis_within {current target accel decel : Int} {limit : Nat} (small : limit < 2 ^ 60)
    (here : current.natAbs ≤ limit) (there : target.natAbs ≤ limit)
    (speeding : 0 ≤ accel ∧ accel < 2 ^ 60) (slowing : 0 ≤ decel ∧ decel < 2 ^ 60) :
    ∃ v, simRampAxis current target accel decel = some v ∧ v.natAbs ≤ limit := by
  unfold simRampAxis
  simp only [i64_of_small (x := target - current) (by omega), bind_eq_bind, bind_some]
  split
  · exact ⟨current, rfl, here⟩
  · simp only [simAbsFix_of_small (v := target) (by omega),
      simAbsFix_of_small (v := current) (by omega),
      simAbsFix_of_small (v := target - current) (by omega), bind_some]
    generalize rated : (if (target.natAbs : Int) > current.natAbs then accel else decel) = rate
    split
    · exact ⟨target, rfl, there⟩
    · split
      · exact ⟨_, i64_of_small (by omega), by omega⟩
      · rw [i64_of_small (by omega), bind_some]
        exact ⟨_, i64_of_small (by omega), by omega⟩

def Body.Slow (limit : Nat) (a : Body) : Prop := a.velX.natAbs ≤ limit ∧ a.velY.natAbs ≤ limit

theorem simIntegrate_slow {dtMs : UInt32} {a b : Body} {limit : Nat} (slow : a.Slow limit)
    (stepped : simIntegrate dtMs a = some b) : b.Slow limit := by
  obtain ⟨_, _, rest⟩ := bind_eq_some_iff.mp stepped
  obtain ⟨_, _, rest⟩ := bind_eq_some_iff.mp rest
  split at rest
  · cases rest
    exact slow
  · cases rest
    exact slow

/-- The largest velocity that moves up to the bound lead to. -/
def topSpeed (top : Nat) (base run : UInt32) : Nat :=
  top * max (simToFix base) (simToFix run) / 32767

theorem simToFix_lt (v : UInt32) : simToFix v < 2 ^ 48 := by
  have bound := v.toNat_lt
  unfold simToFix
  omega

variable (base run accel decel : UInt32) (eps : Int) {top : Nat} (range : top ≤ 32768)
  {input : Option SimInput}

include range

theorem scaled_lt : top * max (simToFix base) (simToFix run) < 2 ^ 63 :=
  calc top * max (simToFix base) (simToFix run)
    _ ≤ 32768 * max (simToFix base) (simToFix run) := Nat.mul_le_mul_right _ range
    _ < 32768 * 2 ^ 48 := by
      have first := simToFix_lt base
      have second := simToFix_lt run
      omega

theorem simTarget_within (move : SimInput → Int16)
    (moves : ∀ i ∈ input, (move i).toInt.natAbs ≤ top) :
    ∃ v, simTarget (.ofConfig base run accel decel eps) input move = some v ∧
      v.natAbs ≤ topSpeed top base run := by
  cases input with
  | none => exact ⟨0, rfl, Nat.zero_le _⟩
  | some i =>
    obtain ⟨speed, chosen, most⟩ : ∃ speed : Nat,
        (if i.flags &&& 1 ≠ 0 then (simToFix run : Int) else simToFix base) = speed ∧
          speed ≤ max (simToFix base) (simToFix run) := by
      split
      · exact ⟨_, rfl, le_max_right ..⟩
      · exact ⟨_, rfl, le_max_left ..⟩
    have scaled : ((move i).toInt * (speed : Int)).natAbs ≤
        top * max (simToFix base) (simToFix run) := by
      rw [Int.natAbs_mul]
      exact Nat.mul_le_mul (moves i rfl) most
    unfold simTarget SimPhysics.ofConfig
    dsimp only
    rw [chosen, i64_of_small (scaled.trans_lt (scaled_lt base run range))]
    refine ⟨_, rfl, ?_⟩
    rw [Int.natAbs_tdiv]
    exact Nat.div_le_div_right scaled

theorem simAccelerate_slow {a : Body} (slow : a.Slow (topSpeed top base run))
    (movesX : ∀ i ∈ input, i.moveX.toInt.natAbs ≤ top)
    (movesY : ∀ i ∈ input, i.moveY.toInt.natAbs ≤ top) :
    ∃ b, simAccelerate (.ofConfig base run accel decel eps) a input = some b ∧
      b.Slow (topSpeed top base run) := by
  have small : topSpeed top base run < 2 ^ 60 := by
    have scaled := scaled_lt base run range
    unfold topSpeed
    omega
  have rate : ∀ v : UInt32, 0 ≤ (simToFix v : Int) ∧ (simToFix v : Int) < 2 ^ 60 := by
    intro v
    have bound := simToFix_lt v
    omega
  obtain ⟨tx, targetX, farX⟩ := simTarget_within base run accel decel eps range _ movesX
  obtain ⟨ty, targetY, farY⟩ := simTarget_within base run accel decel eps range _ movesY
  obtain ⟨vx, rampX, nearX⟩ := simRampAxis_within small slow.1 farX (rate accel) (rate decel)
  obtain ⟨vy, rampY, nearY⟩ := simRampAxis_within small slow.2 farY (rate accel) (rate decel)
  obtain ⟨still, judged⟩ : ∃ still, simStill eps vx vy = some still := by
    rw [simStill, simAbsFix_of_small (by omega), simAbsFix_of_small (by omega), bind_some]
    split
    · exact ⟨_, rfl⟩
    · exact ⟨_, rfl⟩
  unfold simAccelerate
  rw [targetX, targetY]
  simp only [SimPhysics.ofConfig, bind_eq_bind, bind_some, rampX, rampY, judged]
  refine ⟨_, rfl, ?_⟩
  cases still with
  | true => exact ⟨Nat.zero_le _, Nat.zero_le _⟩
  | false => exact ⟨nearX, nearY⟩

end Step

section Runs

/-- The actors that steps with allowed inputs and times lead to. -/
def Reached (allowed : Option SimInput → UInt32 → Prop) : Body → Body → Prop :=
  ReflTransGen fun a b => ∃ input dtMs, allowed input dtMs ∧ simPhysicsStep p a input dtMs = some b

variable {base run accel decel : UInt32} {eps x y : Int} {s : Body}

theorem Reached.slow {top : Nat} (range : top ≤ 32768) {allowed : Option SimInput → UInt32 → Prop}
    (moves : ∀ input dtMs, allowed input dtMs → ∀ i ∈ input,
      i.moveX.toInt.natAbs ≤ top ∧ i.moveY.toInt.natAbs ≤ top)
    (reached : Reached (.ofConfig base run accel decel eps) allowed ⟨x, y, 0, 0⟩ s) :
    s.Slow (topSpeed top base run) := by
  induction reached with
  | refl => exact ⟨Nat.zero_le _, Nat.zero_le _⟩
  | tail _ step slow =>
    obtain ⟨input, dtMs, allows, stepped⟩ := step
    have within := moves input dtMs allows
    obtain ⟨b, stored, slow⟩ := simAccelerate_slow base run accel decel eps range slow
      (fun i given => (within i given).1) fun i given => (within i given).2
    rw [simPhysicsStep, stored] at stepped
    exact simIntegrate_slow slow stepped

/-- While no move component is the least of its type, which its documented range leaves out,
no velocity exceeds the larger of the two speeds. -/
theorem speed_limited
    (reached : Reached (.ofConfig base run accel decel eps)
      (fun input _ => ∀ i ∈ input, i.moveX ≠ -32768 ∧ i.moveY ≠ -32768) ⟨x, y, 0, 0⟩ s) :
    s.velX.natAbs ≤ max (simToFix base) (simToFix run) ∧
      s.velY.natAbs ≤ max (simToFix base) (simToFix run) := by
  have normalized : ∀ v : Int16, v ≠ -32768 → v.toInt.natAbs ≤ 32767 := by
    intro v other
    have low := v.le_toInt
    have high := v.toInt_lt
    have least : v.toInt ≠ -32768 := fun same => other (Int16.toInt_inj.mp same)
    omega
  have top : topSpeed 32767 base run = max (simToFix base) (simToFix run) :=
    Nat.mul_div_cancel_left _ (by decide)
  rw [← top]
  exact reached.slow (by decide) fun input _ allows i given =>
    ⟨normalized _ (allows i given).1, normalized _ (allows i given).2⟩

theorem speed_limited_once : (65536 : Int).natAbs ≤ max (simToFix 1) (simToFix 1) :=
  (@speed_limited 1 1 96 120 0 0 0 ⟨65536, 0, 65536, 0⟩ (.single
    ⟨some ⟨32767, 0, 0⟩, 50, by rintro i ⟨⟩; decide, by decide⟩)).1

/-- The least move component leads past the speed. -/
theorem least_move_too_fast :
    simPhysicsStep (.ofConfig 1 1 96 120 0) ⟨0, 0, 0, 0⟩ (some ⟨-32768, 0, 0⟩) 50 =
      some ⟨-65538, 0, -65538, 0⟩ ∧ max (simToFix 1) (simToFix 1) < (-65538 : Int).natAbs := by
  decide

/-- While the largest velocity times the time of a step fits 64 bits, nothing overflows. -/
theorem physics_without_overflow
    (reached : Reached (.ofConfig base run accel decel eps)
      (fun _ dtMs => topSpeed 32768 base run * dtMs.toNat < 2 ^ 63) ⟨x, y, 0, 0⟩ s)
    (input : Option SimInput) (dtMs : UInt32)
    (short : topSpeed 32768 base run * dtMs.toNat < 2 ^ 63) :
    simPhysicsStep (.ofConfig base run accel decel eps) s input dtMs ≠ none := by
  have move : ∀ v : Int16, v.toInt.natAbs ≤ 32768 := by
    intro v
    have low := v.le_toInt
    have high := v.toInt_lt
    omega
  have slow := reached.slow le_rfl fun _ _ _ i _ => ⟨move i.moveX, move i.moveY⟩
  obtain ⟨b, stored, slowX, slowY⟩ := simAccelerate_slow base run accel decel eps le_rfl slow
    (fun i (_ : i ∈ input) => move i.moveX) fun i _ => move i.moveY
  have fits : ∀ v : Int, v.natAbs ≤ topSpeed 32768 base run →
      i64 (v * dtMs.toNat) = some (v * dtMs.toNat) := by
    intro v bound
    apply i64_of_small
    rw [Int.natAbs_mul]
    exact (Nat.mul_le_mul_right _ bound).trans_lt short
  rw [simPhysicsStep, stored, bind_some, simIntegrate, fits _ slowX, fits _ slowY]
  dsimp only [bind_eq_bind, bind_some]
  split <;> exact some_ne_none _

/-- The second step of a run. -/
theorem physics_without_overflow_again :
    simPhysicsStep (.ofConfig 1 1 96 120 0) ⟨65536, 0, 65536, 0⟩ (some ⟨32767, -32768, 1⟩) 50 ≠
      none :=
  @physics_without_overflow 1 1 96 120 0 0 0 _ (.single
    ⟨some ⟨32767, 0, 0⟩, 50, by decide, by decide⟩) _ _ (by decide)

/-- The fastest configuration overflows in a step of the longest time. -/
theorem fastest_step_overflows :
    simPhysicsStep (.ofConfig 4294967295 4294967295 4294967295 4294967295 0) ⟨0, 0, 0, 0⟩
      (some ⟨32767, 0, 0⟩) 4294967295 = none := by
  decide

end Runs

end Kith.Sim
