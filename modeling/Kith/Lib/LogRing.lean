import Mathlib.Data.List.Basic
import Mathlib.Logic.Function.Basic

/-!
# The last part of a log in a ring

A producer appends entries to a log, of which only the part from `low` on is kept:
entry `m` stands in cell `m % cap`. Readers have positions in the log between `low`
and its end. As long as less than a lap is kept, a cell determines the entry, and
the distance of two cells determines the distance of two positions.
-/

namespace LogRing

open Function List

variable {α : Type} {cap : Nat} {cells : Nat → α} {log : List α} {low p q : Nat}

structure Holds (cap : Nat) (cells : Nat → α) (log : List α) (low : Nat) : Prop where
  le : low ≤ log.length
  room : log.length < low + cap
  cell : ∀ m (h : m < log.length), low ≤ m → cells (m % cap) = log[m]

section

variable (near : p ≤ q) (lap : q < p + cap)
include near lap

theorem lap_cases : q / cap = p / cap ∨ q / cap = p / cap + 1 := by
  have hcap : 0 < cap := by omega
  have below : p / cap ≤ q / cap := Nat.div_le_div_right near
  have above : q / cap ≤ (p + cap) / cap := Nat.div_le_div_right (Nat.le_of_lt lap)
  rw [Nat.add_div_right _ hcap] at above
  omega

theorem distance_eq : (q % cap + cap - p % cap) % cap = q - p := by
  have hp := Nat.div_add_mod p cap
  have hq := Nat.div_add_mod q cap
  rcases lap_cases near lap with same | next
  · rw [same] at hq
    have back : q % cap + cap - p % cap = q - p + cap := by omega
    rw [back, Nat.add_mod_right, Nat.mod_eq_of_lt (by omega)]
  · rw [next, Nat.mul_add, Nat.mul_one] at hq
    have back : q % cap + cap - p % cap = q - p := by omega
    rw [back, Nat.mod_eq_of_lt (by omega)]

theorem eq_of_cell_eq (same : p % cap = q % cap) : p = q := by
  have apart := distance_eq near lap
  rw [same, Nat.add_sub_cancel_left, Nat.mod_self] at apart
  omega

end

variable (holds : Holds cap cells log low)
include holds

theorem Holds.full_iff : (log.length + 1) % cap = low % cap ↔ log.length + 1 = low + cap := by
  have hle := holds.le
  have room := holds.room
  constructor
  · intro same
    by_contra open_
    have := eq_of_cell_eq (Nat.le_succ_of_le hle) (by omega) same.symm
    omega
  · intro full
    rw [full, Nat.add_mod_right]

theorem Holds.append (room : log.length + 1 < low + cap) (a : α) :
    Holds cap (update cells (log.length % cap) a) (log ++ [a]) low where
  le := by
    rw [length_append]
    have := holds.le
    omega
  room := by simpa using room
  cell m hm hlow := by
    rw [length_append, length_singleton] at hm
    by_cases last : m = log.length
    · subst last
      rw [update_self, getElem_concat_length rfl]
    · have apart : m % cap ≠ log.length % cap := by
        intro same
        exact last (eq_of_cell_eq (by omega) (by omega) same)
      rw [update_of_ne apart, holds.cell m (by omega) hlow, getElem_append_left (by omega)]

theorem Holds.release (forward : low ≤ q) (hq : q ≤ log.length) : Holds cap cells log q where
  le := hq
  room := by
    have := holds.room
    omega
  cell m hm hlow := holds.cell m hm (Nat.le_trans forward hlow)

end LogRing
