import Mathlib.Algebra.Order.Group.Nat
import Mathlib.Logic.Function.Basic

/-!
# Error codes, scripted allocators and cell keys

Return codes follow `kith/types.h`. An allocator is a script: call number and
call site decide whether a request is granted, so a statement over every script
is a statement over every pattern of allocation failures.
-/

namespace Kith

inductive KithError where
  | einval | enomem | enosys | enoent | eexist | ebusy | eagain | eperm | erange
  | eoverflow | efault | eio | etimedout | econnreset | eshutdown | estate | eproto
  | esize | eabiver
  deriving DecidableEq

/-- An `int` result: 0, or `kith_error_return` of a code. -/
inductive Rc where
  | ok
  | err (code : KithError)
  deriving DecidableEq

structure Heap (Site : Type) where
  grant : Site → Nat → Bool
  calls : Nat

def Heap.request {Site : Type} (heap : Heap Site) (site : Site) : Bool × Heap Site :=
  (heap.grant site heap.calls, { heap with calls := heap.calls + 1 })

/-- `kith_alloc_zero` has calloc semantics: a product of count and size that does
not fit a `size_t` is refused. -/
def Heap.requestZeroed {Site : Type} (heap : Heap Site) (site : Site) (count size : Nat) :
    Bool × Heap Site :=
  if 2 ^ 64 ≤ count * size then (false, heap) else heap.request site

def Heap.requests {Site : Type} (heap : Heap Site) (site : Site) : Nat → Bool × Heap Site
  | 0 => (true, heap)
  | n + 1 =>
    match heap.request site with
    | (false, heap) => (false, heap)
    | (true, heap) => Heap.requests heap site n

/-- `kith_fabric_cell_key_t`; the padding bytes are always zero and carry nothing. -/
structure CellKey where
  zone : UInt32
  cellX : Int32
  cellY : Int32
  cellZ : Int32
  lod : UInt8
  deriving DecidableEq

/-- The 64-bit mix of the five key components; coord and fabric share it. -/
def cellMix (key : CellKey) : UInt64 :=
  let k := key.zone.toUInt64
  let k := k * 131 + key.cellX.toUInt32.toUInt64
  let k := k * 131 + key.cellY.toUInt32.toUInt64
  let k := k * 131 + key.cellZ.toUInt32.toUInt64
  let k := k * 131 + key.lod.toUInt64
  let k := k ^^^ (k >>> 33)
  let k := k * 0xff51afd7ed558ccd
  k ^^^ (k >>> 33)

/-- The coord and the sim spread zones over sixteen shards. -/
theorem zone_shard_lt (zone : UInt32) : zone.toNat % 16 < 16 :=
  Nat.mod_lt _ (by decide)

section Rounding

/-- The doubling loop with which the coord and the fabric round bucket counts;
`none` is a loop that does not end, which 33 rounds show. -/
def nextPow2Loop (v : UInt32) : Nat → UInt32 → Option UInt32
  | 0, _ => none
  | fuel + 1, r => if r < v then nextPow2Loop v fuel (r <<< 1) else some r

variable {v r b : UInt32} {fuel k : Nat}

theorem toNat_double (hr : r.toNat = 2 ^ k % 2 ^ 32) : (r <<< 1).toNat = 2 ^ (k + 1) % 2 ^ 32 := by
  simp [UInt32.toNat_shiftLeft, hr, Nat.shiftLeft_eq, Nat.pow_succ]

theorem nextPow2Loop_of_le (small : v.toNat ≤ 2 ^ 31) (inside : k < 32)
    (hr : r.toNat = 2 ^ k % 2 ^ 32) (enough : 31 < k + fuel) :
    ∃ b, ∃ j < 32, nextPow2Loop v fuel r = some b ∧ b.toNat = 2 ^ j ∧ v ≤ b := by
  induction fuel generalizing r k with
  | zero => omega
  | succ fuel ih =>
    have value : r.toNat = 2 ^ k :=
      hr.trans (Nat.mod_eq_of_lt (Nat.pow_lt_pow_right (by decide) inside))
    rw [nextPow2Loop]
    split
    · rename_i below
      rw [UInt32.lt_iff_toNat_lt, value] at below
      have under : k < 31 := (Nat.pow_lt_pow_iff_right (by decide)).mp (below.trans_le small)
      exact ih (by omega) (toNat_double hr) (by omega)
    · rename_i above
      exact ⟨r, k, inside, rfl, value, UInt32.not_lt.mp above⟩

/-- Beyond 2^31 the loop passes every power of two, wraps to zero and does not end. -/
theorem nextPow2Loop_of_gt (large : 2 ^ 31 < v.toNat) (hr : r.toNat = 2 ^ k % 2 ^ 32) :
    nextPow2Loop v fuel r = none := by
  induction fuel generalizing r k with
  | zero => rfl
  | succ fuel ih =>
    have most : 2 ^ k % 2 ^ 32 ≤ 2 ^ 31 := by
      by_cases inside : k < 32
      · rw [Nat.mod_eq_of_lt (Nat.pow_lt_pow_right (by decide) inside)]
        exact Nat.pow_le_pow_right (by decide) (by omega)
      · rw [Nat.mod_eq_zero_of_dvd (Nat.pow_dvd_pow 2 (Nat.not_lt.mp inside))]
        exact Nat.zero_le _
    rw [nextPow2Loop, if_pos, ih (toNat_double hr)]
    rw [UInt32.lt_iff_toNat_lt, hr]
    exact most.trans_lt large

theorem nextPow2Loop_pow (found : nextPow2Loop v 33 1 = some b) : ∃ k < 32, b.toNat = 2 ^ k := by
  have one : (1 : UInt32).toNat = 2 ^ 0 % 2 ^ 32 := rfl
  by_cases small : v.toNat ≤ 2 ^ 31
  · obtain ⟨_, k, inside, ended, pow, _⟩ :=
      nextPow2Loop_of_le small (by decide) one (by decide : 31 < 0 + 33)
    cases found.symm.trans ended
    exact ⟨k, inside, pow⟩
  · rw [nextPow2Loop_of_gt (Nat.lt_of_not_le small) one] at found
    cases found

end Rounding

theorem ofNat_succ (n : Nat) : UInt64.ofNat (n + 1) = .ofNat n + 1 := by
  rw [UInt64.ofNat_add]
  rfl

end Kith
