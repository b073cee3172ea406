import Mathlib.Data.List.Basic
import Mathlib.Algebra.Order.Group.Nat

/-!
# Windows of a ring of cells

A ring is an array of `n` cells read and written modulo `n`. The window of
length `len` from `start` is the sequence of cells met from there on; a copy in
or out takes one piece when the window does not cross the end of the array and
two pieces when it does. The laws say that the pieces are the window.
-/

namespace Cyclic

open List

universe u

variable {α : Type u}

def slice (buf : Nat → α) (start len : Nat) : List α :=
  (List.range len).map fun i => buf (start + i)

def window (n : Nat) (buf : Nat → α) (start len : Nat) : List α :=
  (List.range len).map fun i => buf ((start + i) % n)

/-- The array with `data` copied to position `pos`. -/
def blit (buf : Nat → α) (pos : Nat) (data : List α) : Nat → α := fun i =>
  if pos ≤ i then (data[i - pos]?).getD (buf i) else buf i

/-- The copy out of the ring, in one piece or in two; `pos` is a cell of the array. -/
def gather (n : Nat) (buf : Nat → α) (pos len : Nat) : List α :=
  if pos + len ≤ n then slice buf pos len
  else slice buf pos (n - pos) ++ slice buf 0 (len - (n - pos))

/-- The copy into the ring, in one piece or in two. -/
def scatter (n : Nat) (buf : Nat → α) (pos : Nat) (data : List α) : Nat → α :=
  if data.length ≤ n - pos then blit buf pos data
  else blit (blit buf pos (data.take (n - pos))) 0 (data.drop (n - pos))

section Windows

variable {n : Nat} {buf : Nat → α} {start len k start' : Nat}

@[simp] theorem length_slice (start len : Nat) : (slice buf start len).length = len := by
  simp [slice]

@[simp] theorem length_window (start len : Nat) : (window n buf start len).length = len := by
  simp [window]

theorem window_add (start a b : Nat) :
    window n buf start (a + b) = window n buf start a ++ window n buf (start + a) b := by
  simp [window, range_add, Function.comp_def, Nat.add_assoc]

theorem window_take (hk : k ≤ len) : (window n buf start len).take k = window n buf start k := by
  obtain ⟨r, rfl⟩ := Nat.exists_eq_add_of_le hk
  rw [window_add, take_left' (length_window ..)]

theorem window_drop (hk : k ≤ len) :
    (window n buf start len).drop k = window n buf (start + k) (len - k) := by
  obtain ⟨r, rfl⟩ := Nat.exists_eq_add_of_le hk
  rw [window_add, drop_left' (length_window ..), Nat.add_sub_cancel_left]

theorem window_congr {buf' : Nat → α}
    (same : ∀ i < len, buf' ((start' + i) % n) = buf ((start + i) % n)) :
    window n buf' start' len = window n buf start len := by
  apply map_congr_left
  intro i hi
  exact same i (mem_range.mp hi)

theorem window_mod (same : start' % n = start % n) (len : Nat) :
    window n buf start' len = window n buf start len := by
  apply window_congr
  intro i _
  rw [Nat.add_mod, same, ← Nat.add_mod]

theorem window_eq_slice (inside : start + len ≤ n) :
    window n buf start len = slice buf start len := by
  apply map_congr_left
  intro i hi
  have := mem_range.mp hi
  rw [Nat.mod_eq_of_lt (by omega)]

theorem gather_eq_window {pos : Nat} (hpos : pos < n) (fits : len ≤ n) :
    gather n buf pos len = window n buf pos len := by
  rw [gather]
  split
  · rename_i inside
    exact (window_eq_slice inside).symm
  · rename_i wraps
    obtain ⟨r, hr⟩ : ∃ r, len = (n - pos) + r := ⟨len - (n - pos), by omega⟩
    have start : (pos + (n - pos)) % n = 0 % n := by
      rw [show pos + (n - pos) = n by omega, Nat.mod_self, Nat.zero_mod]
    rw [hr, window_add, window_eq_slice (by omega), window_mod start, Nat.add_sub_cancel_left,
      window_eq_slice (by omega)]

end Windows

section Writes

variable {n : Nat} {buf : Nat → α} {pos i : Nat} {data : List α}

theorem blit_outside (hi : i < pos ∨ pos + data.length ≤ i) : blit buf pos data i = buf i := by
  rcases hi with before | after
  · rw [blit, if_neg (by omega)]
  · rw [blit, getElem?_eq_none (by omega)]
    simp

theorem window_blit_zero (buf : Nat → α) (fits : data.length ≤ n) :
    window n (blit buf 0 data) 0 data.length = data := by
  rw [window_eq_slice (by omega)]
  apply ext_get (by simp)
  intro i h₁ h₂
  simp [slice, blit, h₂]

theorem add_mod_split (hpos : pos < n) (hi : i < n) :
    (pos + i) % n = if pos + i < n then pos + i else pos + i - n := by
  split
  · rename_i h
    exact Nat.mod_eq_of_lt h
  · rw [Nat.mod_eq_sub_mod (by omega), Nat.mod_eq_of_lt (by omega)]

theorem scatter_cell (hpos : pos < n) (fits : data.length ≤ n) (hi : i < n) :
    scatter n buf pos data ((pos + i) % n) = (data[i]?).getD (buf ((pos + i) % n)) := by
  rw [add_mod_split hpos hi, scatter]
  by_cases whole : data.length ≤ n - pos
  · rw [if_pos whole]
    split
    · simp [blit]
    · rw [blit_outside (by omega), getElem?_eq_none (by omega)]
      rfl
  · rw [if_neg whole]
    have taken : (data.take (n - pos)).length = n - pos := by
      rw [length_take]
      omega
    split
    · rw [blit_outside (by right; rw [length_drop]; omega), blit, if_pos (by omega),
        Nat.add_sub_cancel_left, getElem?_take_of_lt (by omega)]
    · rw [blit, if_pos (Nat.zero_le _), blit_outside (.inl (by omega)), getElem?_drop]
      congr 2
      omega

theorem window_scatter {start len : Nat} (hn : 0 < n) (fits : len + data.length ≤ n) :
    window n (scatter n buf ((start + len) % n) data) start (len + data.length) =
      window n buf start len ++ data := by
  have hpos : (start + len) % n < n := Nat.mod_lt _ hn
  have cell : ∀ i < n, scatter n buf ((start + len) % n) data ((start + len + i) % n) =
      (data[i]?).getD (buf ((start + len + i) % n)) := by
    intro i hi
    rw [← Nat.mod_add_mod (start + len) n i]
    exact scatter_cell hpos (by omega) hi
  rw [window_add]
  congr 1
  · apply window_congr
    intro i hi
    -- Cell `i` of the old window is cell `n - len + i` after its end.
    have before := cell (n - len + i) (by omega)
    rw [show start + len + (n - len + i) = start + i + n by omega, Nat.add_mod_right,
      getElem?_eq_none (by omega)] at before
    exact before
  · apply ext_get (by simp)
    intro i h₁ h₂
    simp only [window, get_eq_getElem, getElem_map, getElem_range]
    rw [cell i (by omega), getElem?_eq_getElem h₂]
    rfl

end Writes

end Cyclic
