import Mathlib.Data.Nat.Digits.Lemmas

/-!
# Fixed-width words as byte strings

A little-endian word lists the base-256 digits of its value, byte `i` being the
value shifted right by `8 * i`; a big-endian word is the reversed string.
-/

namespace Bytes

open List

variable (bs : List UInt8)

def leValue : Nat := Nat.ofDigits 256 (bs.map UInt8.toNat)

def leBytes (w x : Nat) : List UInt8 := (List.range w).map fun i => UInt8.ofNat (x / 256 ^ i)

def beValue : Nat := leValue bs.reverse

variable (w x : Nat)

def beBytes : List UInt8 := (leBytes w x).reverse

@[simp] theorem length_leBytes : (leBytes w x).length = w := by
  simp [leBytes]

@[simp] theorem length_beBytes : (beBytes w x).length = w := by
  simp [beBytes]

theorem leValue_leBytes : leValue (leBytes w x) = x % 256 ^ w := by
  induction w with
  | zero => simp [leBytes, leValue, Nat.mod_one]
  | succ w ih =>
    have digit : (UInt8.ofNat (x / 256 ^ w)).toNat = x / 256 ^ w % 256 := by simp
    have lower : Nat.ofDigits 256 ((leBytes w x).map UInt8.toNat) = x % 256 ^ w := ih
    rw [leValue, leBytes, range_succ, map_append, map_append, Nat.ofDigits_append]
    change Nat.ofDigits 256 ((leBytes w x).map UInt8.toNat) + _ = _
    rw [lower, length_map, length_map, length_range]
    simp only [map_cons, map_nil, Nat.ofDigits_singleton, digit]
    rw [Nat.pow_succ, Nat.mod_mul]

variable {w x : Nat}

theorem leValue_leBytes_of_lt (fits : x < 256 ^ w) : leValue (leBytes w x) = x := by
  rw [leValue_leBytes, Nat.mod_eq_of_lt fits]

theorem beValue_beBytes_of_lt (fits : x < 256 ^ w) : beValue (beBytes w x) = x := by
  rw [beValue, beBytes, reverse_reverse, leValue_leBytes_of_lt fits]

theorem leValue_lt : leValue bs < 256 ^ bs.length := by
  have bound : ∀ d ∈ bs.map UInt8.toNat, d < 256 := by
    intro d hd
    obtain ⟨b, _, rfl⟩ := mem_map.mp hd
    exact b.toNat_lt
  simpa [leValue] using Nat.ofDigits_lt_base_pow_length (by omega) bound

theorem beValue_lt : beValue bs < 256 ^ bs.length := by
  simpa [beValue] using leValue_lt bs.reverse

theorem leValue_cons (b : UInt8) (bs : List UInt8) :
    leValue (b :: bs) = b.toNat + 256 * leValue bs := by
  simp [leValue, Nat.ofDigits_cons]

theorem leBytes_succ (w x : Nat) : leBytes (w + 1) x = UInt8.ofNat x :: leBytes w (x / 256) := by
  simp [leBytes, range_succ_eq_map, Nat.pow_succ', Nat.div_div_eq_div_mul, Function.comp_def]

theorem leBytes_leValue : leBytes bs.length (leValue bs) = bs := by
  induction bs with
  | nil => rfl
  | cons b bs ih =>
    have low : UInt8.ofNat (b.toNat + 256 * leValue bs) = b := by
      apply UInt8.toNat_inj.mp
      have small := b.toNat_lt
      rw [UInt8.toNat_ofNat']
      omega
    have high : (b.toNat + 256 * leValue bs) / 256 = leValue bs := by
      have small := b.toNat_lt
      omega
    rw [leValue_cons, length_cons, leBytes_succ, low, high, ih]

theorem beBytes_beValue : beBytes bs.length (beValue bs) = bs := by
  rw [beBytes, beValue, ← length_reverse, leBytes_leValue, reverse_reverse]

theorem beValue_append (b : UInt8) : beValue (bs ++ [b]) = 256 * beValue bs + b.toNat := by
  rw [beValue, reverse_append, reverse_singleton, singleton_append, leValue_cons,
    ← beValue, Nat.add_comm]

end Bytes
