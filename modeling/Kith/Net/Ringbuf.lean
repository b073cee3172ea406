import Kith.Base
import Kith.Lib.Cyclic

/-!
# The input ring of a connection

A growable ring of bytes whose size is a power of two. `head` and `tail` run
freely and wrap at 64 bits, and a size that divides `2 ^ 64` keeps the masked
positions continuous over the wrap. The contents of the ring are the bytes from
the tail to the head; growing and shrinking move them to the start of a fresh
array.
-/

namespace Kith.Net

open Cyclic List Option

inductive NetSite where
  | conn | ring | lock | gather | outItem
  deriving DecidableEq

/-- `kith_ringbuf_t`; the mask is always `size - 1`. -/
structure Ringbuf where
  buf : Nat → UInt8
  size : Nat
  head : UInt64
  tail : UInt64
  initialSize : Nat
  maxSize : Nat

def Ringbuf.mask (rb : Ringbuf) : Nat := rb.size - 1

/-- The doubling loop on a `size_t`; `none` is a loop that does not end: after 64
rounds the size has wrapped to zero and stays there. -/
def sizeFrom (target : Nat) : Nat → Nat → Option Nat
  | 0, _ => none
  | fuel + 1, size => if size < target then sizeFrom target fuel (size * 2 % 2 ^ 64) else some size

def nextPow2 (x : Nat) : Option Nat := if x ≤ 1 then some 1 else sizeFrom x 65 1

/-- `none` when a doubling loop does not end; the inner `none` is the result -1. -/
def kithRingbufInit (heap : Heap NetSite) (initialSize maxSize : Nat) :
    Option (Option Ringbuf × Heap NetSite) :=
  if initialSize = 0 ∨ maxSize = 0 ∨ maxSize < initialSize then some (none, heap)
  else
    (nextPow2 initialSize).bind fun initialSize => (nextPow2 maxSize).map fun maxSize =>
      if maxSize < initialSize then (none, heap)
      else
        match heap.request .ring with
        | (false, heap) => (none, heap)
        | (true, heap) => (some ⟨fun _ => 0, initialSize, 0, 0, initialSize, maxSize⟩, heap)

variable (rb : Ringbuf)

def kithRingbufUsed : Nat := (rb.head - rb.tail).toNat

def kithRingbufSpace : Nat := rb.size - kithRingbufUsed rb

def Ringbuf.idx : Nat := rb.tail.toNat &&& rb.mask

def ringbufRealloc (heap : Heap NetSite) (newSize : Nat) : Bool × Ringbuf × Heap NetSite :=
  if rb.maxSize < newSize then (false, rb, heap)
  else
    match heap.request .ring with
    | (false, heap) => (false, rb, heap)
    | (true, heap) =>
      let used := kithRingbufUsed rb
      (true, { rb with
        buf := blit (fun _ => 0) 0 (gather rb.size rb.buf rb.idx used)
        size := newSize
        head := UInt64.ofNat used
        tail := 0 }, heap)

/-- The copy of the data behind the head, once there is room. -/
def Ringbuf.append (data : List UInt8) : Ringbuf :=
  { rb with
    buf := scatter rb.size rb.buf (rb.head.toNat &&& rb.mask) data
    head := rb.head + UInt64.ofNat data.length }

/-- `true` is the result 0, `false` the result -1. -/
def kithRingbufWrite (heap : Heap NetSite) (data : List UInt8) :
    Option (Bool × Ringbuf × Heap NetSite) :=
  if data = [] then some (true, rb, heap)
  else if kithRingbufSpace rb < data.length then
    (sizeFrom ((kithRingbufUsed rb + data.length) % 2 ^ 64) 65 rb.size).map fun newSize =>
      match ringbufRealloc rb heap newSize with
      | (false, rb, heap) => (false, rb, heap)
      | (true, rb, heap) => (true, rb.append data, heap)
  else some (true, rb.append data, heap)

/-- The next contiguous readable bytes. -/
def kithRingbufPeek : List UInt8 :=
  let used := kithRingbufUsed rb
  if used = 0 then [] else slice rb.buf rb.idx (min (rb.size - rb.idx) used)

def kithRingbufConsume (len : Nat) : Ringbuf :=
  { rb with tail := rb.tail + UInt64.ofNat (min len (kithRingbufUsed rb)) }

def kithRingbufMaybeShrink (heap : Heap NetSite) : Option (Bool × Ringbuf × Heap NetSite) :=
  let used := kithRingbufUsed rb
  if rb.size ≤ rb.initialSize then some (true, rb, heap)
  else if rb.size / 4 < used then some (true, rb, heap)
  else
    (sizeFrom (used * 2 % 2 ^ 64) 65 rb.initialSize).map fun newSize =>
      if rb.size ≤ newSize then (true, rb, heap) else ringbufRealloc rb heap newSize

/-- Up to `cap` of the leading readable bytes, gathered over the wrap. -/
def kithRingbufCopy (cap : Nat) : List UInt8 :=
  let used := kithRingbufUsed rb
  if cap = 0 ∨ used = 0 then [] else gather rb.size rb.buf rb.idx (min used cap)

section Sizes

theorem sizeFrom_spec {target b : Nat} (small : target ≤ 2 ^ 63) (fuel : Nat)
    (enough : 64 ≤ fuel + b) (hb : b < 64) :
    ∃ c, sizeFrom target fuel (2 ^ b) = some (2 ^ c) ∧ target ≤ 2 ^ c ∧ b ≤ c ∧
      ∀ m, b ≤ m → target ≤ 2 ^ m → c ≤ m := by
  induction fuel generalizing b with
  | zero => omega
  | succ fuel ih =>
    rw [sizeFrom]
    by_cases below : 2 ^ b < target
    · have hb63 : b + 1 < 64 := by
        by_contra last
        have : b = 63 := by omega
        subst this
        omega
      have double : 2 ^ b * 2 % 2 ^ 64 = 2 ^ (b + 1) := by
        rw [← Nat.pow_succ]
        exact Nat.mod_eq_of_lt (Nat.pow_lt_pow_right (by omega) hb63)
      rw [if_pos below, double]
      obtain ⟨c, found, above, hbc, least⟩ := ih (by omega) hb63
      refine ⟨c, found, above, by omega, fun m hm ht => least m ?_ ht⟩
      by_contra short
      have : m = b := by omega
      subst this
      omega
    · rw [if_neg below]
      exact ⟨b, rfl, by omega, le_refl b, fun m hm _ => hm⟩

/-- Above `2 ^ 63` the doubling passes every target by wrapping to zero. -/
theorem sizeFrom_none {target size : Nat} (large : 2 ^ 63 < target)
    (reached : size = 0 ∨ ∃ b < 64, size = 2 ^ b) (fuel : Nat) :
    sizeFrom target fuel size = none := by
  induction fuel generalizing size with
  | zero => rfl
  | succ fuel ih =>
    rw [sizeFrom]
    rcases reached with rfl | ⟨b, hb, rfl⟩
    · rw [if_pos (by omega)]
      exact ih (.inl rfl)
    · have below : 2 ^ b ≤ 2 ^ 63 := Nat.pow_le_pow_right (by omega) (by omega)
      rw [if_pos (by omega)]
      apply ih
      by_cases last : b = 63
      · subst last
        exact .inl rfl
      · refine .inr ⟨b + 1, by omega, ?_⟩
        have double : 2 ^ (b + 1) < 2 ^ 64 := Nat.pow_lt_pow_right (by omega) (by omega)
        exact Nat.mod_eq_of_lt double

theorem nextPow2_spec {x : Nat} (small : x ≤ 2 ^ 63) :
    ∃ c, nextPow2 x = some (2 ^ c) ∧ x ≤ 2 ^ c ∧ ∀ m, x ≤ 2 ^ m → c ≤ m := by
  rw [nextPow2]
  split
  · exact ⟨0, rfl, by omega, fun _ _ => Nat.zero_le _⟩
  · obtain ⟨c, found, above, _, least⟩ :=
      sizeFrom_spec (b := 0) small 65 (by omega) (by omega)
    exact ⟨c, found, above, fun m => least m (Nat.zero_le m)⟩

theorem le_of_nextPow2 {x p : Nat} (found : nextPow2 x = some p) : x ≤ 2 ^ 63 := by
  by_contra large
  have endless : sizeFrom x 65 1 = none := sizeFrom_none (by omega) (.inr ⟨0, by omega, rfl⟩) 65
  rw [nextPow2, if_neg (by omega), endless] at found
  cases found

end Sizes

structure Ringbuf.Wf (rb : Ringbuf) : Prop where
  size : ∃ b, rb.size = 2 ^ b
  initial : ∃ b, rb.initialSize = 2 ^ b
  max : ∃ b ≤ 63, rb.maxSize = 2 ^ b
  above : rb.initialSize ≤ rb.size
  below : rb.size ≤ rb.maxSize
  fits : kithRingbufUsed rb ≤ rb.size

/-- A ring whose ceiling is far from the range of `size_t`, as a connection's is. -/
structure Ringbuf.Valid (rb : Ringbuf) : Prop extends rb.Wf where
  ceiling : rb.maxSize ≤ 2 ^ 62

def Ringbuf.contents (rb : Ringbuf) : List UInt8 :=
  window rb.size rb.buf rb.tail.toNat (kithRingbufUsed rb)

variable {rb : Ringbuf}

@[simp] theorem length_contents (rb : Ringbuf) : rb.contents.length = kithRingbufUsed rb := by
  simp [Ringbuf.contents]

theorem Ringbuf.Valid.keep {rb' : Ringbuf} (valid : rb.Valid) (wf : rb'.Wf)
    (same : rb'.maxSize = rb.maxSize) : rb'.Valid :=
  ⟨wf, same ▸ valid.ceiling⟩

section Positions

variable (wf : rb.Wf)
include wf

theorem Ringbuf.Wf.pow : ∃ b ≤ 63, rb.size = 2 ^ b := by
  obtain ⟨b, hb⟩ := wf.size
  obtain ⟨m, hm, hmax⟩ := wf.max
  refine ⟨b, ?_, hb⟩
  have below := wf.below
  rw [hb, hmax] at below
  exact le_trans ((Nat.pow_le_pow_iff_right (by omega)).mp below) hm

theorem Ringbuf.Wf.size_pos : 0 < rb.size := by
  obtain ⟨b, hb⟩ := wf.size
  rw [hb]
  exact Nat.two_pow_pos b

theorem Ringbuf.Wf.max_le : rb.maxSize ≤ 2 ^ 63 := by
  obtain ⟨m, hm, hmax⟩ := wf.max
  rw [hmax]
  exact Nat.pow_le_pow_right (by omega) hm

theorem Ringbuf.Wf.dvd : rb.size ∣ 2 ^ 64 := by
  obtain ⟨b, hb, hsize⟩ := wf.pow
  rw [hsize]
  exact Nat.pow_dvd_pow 2 (by omega)

theorem Ringbuf.Wf.and_mask (i : Nat) : i &&& rb.mask = i % rb.size := by
  obtain ⟨b, hb⟩ := wf.size
  rw [Ringbuf.mask, hb, Nat.and_two_pow_sub_one_eq_mod]

theorem Ringbuf.Wf.idx_eq : rb.idx = rb.tail.toNat % rb.size :=
  wf.and_mask _

theorem Ringbuf.Wf.idx_lt : rb.idx < rb.size := by
  rw [wf.idx_eq]
  exact Nat.mod_lt _ wf.size_pos

theorem Ringbuf.Wf.add_mod (x : UInt64) (k : Nat) :
    (x + UInt64.ofNat k).toNat % rb.size = (x.toNat + k) % rb.size := by
  rw [UInt64.toNat_add, UInt64.toNat_ofNat', Nat.add_mod_mod, Nat.mod_mod_of_dvd _ wf.dvd]

theorem Ringbuf.Wf.head_mod :
    rb.head.toNat % rb.size = (rb.tail.toNat + kithRingbufUsed rb) % rb.size := by
  have sum : rb.head = rb.tail + UInt64.ofNat (kithRingbufUsed rb) := by
    rw [kithRingbufUsed, UInt64.ofNat_toNat, UInt64.add_comm, UInt64.sub_add_cancel]
  conv_lhs => rw [sum]
  exact wf.add_mod _ _

theorem Ringbuf.Wf.gather_eq {len : Nat} (short : len ≤ kithRingbufUsed rb) :
    gather rb.size rb.buf rb.idx len = rb.contents.take len := by
  rw [gather_eq_window wf.idx_lt (le_trans short wf.fits), Ringbuf.contents, window_take short]
  apply window_mod
  rw [wf.idx_eq, Nat.mod_mod]

end Positions

section Reads

theorem kithRingbufPeek_eq (wf : rb.Wf) :
    ∃ k, kithRingbufPeek rb = rb.contents.take k ∧ (rb.contents ≠ [] → 0 < k) := by
  simp only [kithRingbufPeek]
  split
  · rename_i empty
    exact ⟨0, by simp, fun h => absurd (length_eq_zero_iff.mp (by simp [empty])) h⟩
  · have inside := wf.idx_lt
    refine ⟨min (rb.size - rb.idx) (kithRingbufUsed rb), ?_, fun _ => by omega⟩
    rw [← wf.gather_eq (Nat.min_le_right ..), gather, if_pos (by omega)]

theorem kithRingbufCopy_eq (wf : rb.Wf) (cap : Nat) :
    kithRingbufCopy rb cap = rb.contents.take cap := by
  simp only [kithRingbufCopy]
  split
  · rename_i none_read
    rcases none_read with rfl | empty
    · simp
    · have : rb.contents = [] := length_eq_zero_iff.mp (by simp [empty])
      simp [this]
  · rw [wf.gather_eq (Nat.min_le_left ..)]
    rw [take_eq_take_iff, length_contents]
    omega

end Reads

section Writes

variable {data : List UInt8} {heap heap' : Heap NetSite} {initialSize maxSize : Nat}

theorem used_append (rb : Ringbuf) (fits : kithRingbufUsed rb + data.length < 2 ^ 64) :
    kithRingbufUsed (rb.append data) = kithRingbufUsed rb + data.length := by
  simp only [kithRingbufUsed, Ringbuf.append, UInt64.toNat_sub, UInt64.toNat_add,
    UInt64.toNat_ofNat'] at *
  omega

theorem used_consume (len : Nat) : kithRingbufUsed (kithRingbufConsume rb len) =
    kithRingbufUsed rb - min len (kithRingbufUsed rb) := by
  have ht := rb.tail.toNat_lt
  simp only [kithRingbufUsed, kithRingbufConsume, UInt64.toNat_sub, UInt64.toNat_add,
    UInt64.toNat_ofNat']
  omega

section

variable (wf : rb.Wf)
include wf

theorem kithRingbufConsume_spec (len : Nat) : (kithRingbufConsume rb len).Wf ∧
    (kithRingbufConsume rb len).contents = rb.contents.drop len := by
  have used := @used_consume rb len
  refine ⟨{ wf with fits := ?_ }, ?_⟩
  · have fits := wf.fits
    rw [used]
    exact le_trans (Nat.sub_le ..) fits
  · have dropped : rb.contents.drop len = rb.contents.drop (min len (kithRingbufUsed rb)) := by
      rcases Nat.le_total len (kithRingbufUsed rb) with h | h
      · rw [Nat.min_eq_left h]
      · rw [Nat.min_eq_right h, drop_of_length_le (by simpa using h), drop_of_length_le (by simp)]
    rw [dropped, Ringbuf.contents, Ringbuf.contents, used, window_drop (Nat.min_le_right ..)]
    exact window_mod (wf.add_mod rb.tail _) _

theorem append_spec (fits : kithRingbufUsed rb + data.length ≤ rb.size) :
    (rb.append data).Wf ∧ (rb.append data).contents = rb.contents ++ data := by
  have small : rb.size ≤ 2 ^ 63 := le_trans wf.below wf.max_le
  have used : kithRingbufUsed (rb.append data) = kithRingbufUsed rb + data.length :=
    used_append rb (by omega)
  refine ⟨{ wf with fits := ?_ }, ?_⟩
  · rw [used]
    exact fits
  · rw [Ringbuf.contents, used, Ringbuf.contents]
    simp only [Ringbuf.append]
    rw [wf.and_mask, wf.head_mod]
    exact window_scatter wf.size_pos fits

/-- A reallocation keeps the contents, whether or not it happens. -/
structure ReallocSpec (rb : Ringbuf) (heap : Heap NetSite) (newSize : Nat)
    (r : Bool × Ringbuf × Heap NetSite) : Prop where
  wf : r.2.1.Wf
  contents : r.2.1.contents = rb.contents
  maxSize : r.2.1.maxSize = rb.maxSize
  grant : r.2.2.grant = heap.grant
  ok : r.1 = true ↔ newSize ≤ rb.maxSize ∧ heap.grant .ring heap.calls = true
  size : r.1 = true → r.2.1.size = newSize

variable (heap : Heap NetSite)

theorem ringbufRealloc_spec {b : Nat}
    (room : kithRingbufUsed rb ≤ 2 ^ b) (above : rb.initialSize ≤ 2 ^ b) :
    ReallocSpec rb heap (2 ^ b) (ringbufRealloc rb heap (2 ^ b)) := by
  rw [ringbufRealloc]
  by_cases excess : rb.maxSize < 2 ^ b
  · rw [if_pos excess]
    exact ⟨wf, rfl, rfl, rfl, by simp; omega, by simp⟩
  · rw [if_neg excess]
    simp only [Heap.request]
    cases granted : heap.grant .ring heap.calls with
    | false => exact ⟨wf, rfl, rfl, rfl, by simp [granted], by simp⟩
    | true =>
      have small := le_trans (le_trans wf.fits wf.below) wf.max_le
      have moved := wf.gather_eq (le_refl (kithRingbufUsed rb))
      have used : ∀ f : Nat → UInt8, kithRingbufUsed { rb with
          buf := f, size := 2 ^ b, head := UInt64.ofNat (kithRingbufUsed rb), tail := 0 } =
          kithRingbufUsed rb := by
        intro f
        rw [kithRingbufUsed, UInt64.sub_zero, UInt64.toNat_ofNat', Nat.mod_eq_of_lt (by omega)]
      refine ⟨⟨⟨b, rfl⟩, wf.initial, wf.max, above, by simpa using excess, ?_⟩, ?_, rfl, rfl,
        by simpa [granted] using excess, fun _ => rfl⟩
      · simp only [used]
        exact room
      · rw [Ringbuf.contents]
        simp only [used, moved]
        rw [take_of_length_le (by simp)]
        have short : rb.contents.length ≤ 2 ^ b := by simpa using room
        have placed := window_blit_zero (fun _ => (0 : UInt8)) short
        rwa [length_contents] at placed

/-- A write succeeds exactly when the bytes fit under the ceiling and a growth it
needs is granted; either way the ring stays well-formed, and a failure keeps it. -/
structure WriteSpec (rb : Ringbuf) (heap : Heap NetSite) (data : List UInt8)
    (r : Bool × Ringbuf × Heap NetSite) : Prop where
  wf : r.2.1.Wf
  contents : r.2.1.contents = if r.1 then rb.contents ++ data else rb.contents
  maxSize : r.2.1.maxSize = rb.maxSize
  grant : r.2.2.grant = heap.grant
  ok : r.1 = true ↔ kithRingbufUsed rb + data.length ≤ rb.maxSize ∧
    (kithRingbufUsed rb + data.length ≤ rb.size ∨ heap.grant .ring heap.calls = true)

theorem sizeFrom_write {target : Nat} (small : target ≤ 2 ^ 63) :
    ∃ c, sizeFrom target 65 rb.size = some (2 ^ c) ∧ target ≤ 2 ^ c ∧ rb.initialSize ≤ 2 ^ c ∧
      (2 ^ c ≤ rb.maxSize ↔ target ≤ rb.maxSize) := by
  obtain ⟨b, hb, hsize⟩ := wf.pow
  obtain ⟨m, hm, hmax⟩ := wf.max
  have below := wf.below
  obtain ⟨c, found, above, hbc, least⟩ := sizeFrom_spec (b := b) small 65 (by omega) (by omega)
  refine ⟨c, hsize ▸ found, above, ?_, ?_⟩
  · refine le_trans wf.above ?_
    rw [hsize]
    exact Nat.pow_le_pow_right (by omega) hbc
  · constructor
    · exact fun h => le_trans above h
    · intro h
      rw [hmax] at h ⊢
      have hbm : b ≤ m := by
        rw [hsize, hmax] at below
        exact (Nat.pow_le_pow_iff_right (by omega)).mp below
      exact Nat.pow_le_pow_right (by omega) (least m hbm h)

theorem kithRingbufWrite_spec (data : List UInt8)
    (small : kithRingbufUsed rb + data.length ≤ 2 ^ 63) :
    ∃ r, kithRingbufWrite rb heap data = some r ∧ WriteSpec rb heap data r := by
  have fits := wf.fits
  have below := wf.below
  rw [kithRingbufWrite]
  by_cases empty : data = []
  · subst empty
    exact ⟨_, if_pos rfl, wf, by simp, rfl, rfl, by simp; omega⟩
  rw [if_neg empty]
  by_cases tight : kithRingbufSpace rb < data.length
  · rw [if_pos tight]
    rw [kithRingbufSpace] at tight
    obtain ⟨c, found, above, wide, grows⟩ := sizeFrom_write wf small
    have target : (kithRingbufUsed rb + data.length) % 2 ^ 64 = kithRingbufUsed rb + data.length :=
      Nat.mod_eq_of_lt (by omega)
    rw [target, found, map_some]
    have spec := ringbufRealloc_spec wf heap (b := c) (by omega) wide
    refine ⟨_, rfl, ?_⟩
    rcases moved : ringbufRealloc rb heap (2 ^ c) with ⟨done, rb', heap'⟩
    rw [moved] at spec
    have used : kithRingbufUsed rb' = kithRingbufUsed rb := by
      rw [← length_contents, spec.contents, length_contents]
    have ok := spec.ok
    rw [grows] at ok
    cases done with
    | false =>
      refine ⟨spec.wf, by simp [spec.contents], spec.maxSize, spec.grant, ?_⟩
      simp only [Bool.false_eq_true, false_iff] at ok ⊢
      rintro ⟨under, inside | granted⟩
      · omega
      · exact ok ⟨under, granted⟩
    | true =>
      obtain ⟨under, granted⟩ := ok.mp rfl
      have room : kithRingbufUsed rb' + data.length ≤ rb'.size := by
        rw [used, show rb'.size = 2 ^ c from spec.size rfl]
        exact above
      obtain ⟨after, extended⟩ := append_spec spec.wf room
      exact ⟨after, by simp [extended, spec.contents], spec.maxSize, spec.grant,
        by simp [under, granted]⟩
  · rw [if_neg tight]
    rw [kithRingbufSpace] at tight
    have room : kithRingbufUsed rb + data.length ≤ rb.size := by omega
    obtain ⟨after, extended⟩ := append_spec wf room
    exact ⟨_, rfl, after, by simp [extended], rfl, rfl, by simp; omega⟩

theorem kithRingbufMaybeShrink_spec :
    ∃ r, kithRingbufMaybeShrink rb heap = some r ∧ r.2.1.Wf ∧ r.2.1.contents = rb.contents ∧
      r.2.1.maxSize = rb.maxSize ∧ r.2.2.grant = heap.grant ∧
      (r.1 = false → heap.grant .ring heap.calls = false) := by
  simp only [kithRingbufMaybeShrink]
  split
  · exact ⟨_, rfl, wf, rfl, rfl, rfl, by simp⟩
  split
  · exact ⟨_, rfl, wf, rfl, rfl, rfl, by simp⟩
  · have bound := le_trans wf.below wf.max_le
    obtain ⟨k, hk⟩ := wf.initial
    obtain ⟨b, hb, hsize⟩ := wf.pow
    have hkb : k ≤ b := by
      have above := wf.above
      rw [hk, hsize] at above
      exact (Nat.pow_le_pow_iff_right (by omega)).mp above
    rw [Nat.mod_eq_of_lt (by omega), hk]
    have small : kithRingbufUsed rb * 2 ≤ 2 ^ 63 := by omega
    obtain ⟨c, found, above, hkc, _⟩ := sizeFrom_spec (b := k) small 65 (by omega) (by omega)
    rw [found, map_some]
    refine ⟨_, rfl, ?_⟩
    split
    · exact ⟨wf, rfl, rfl, rfl, by simp⟩
    · have wide : rb.initialSize ≤ 2 ^ c := by
        rw [hk]
        exact Nat.pow_le_pow_right (by omega) hkc
      have spec := ringbufRealloc_spec wf heap (b := c) (by omega) wide
      refine ⟨spec.wf, spec.contents, spec.maxSize, spec.grant, ?_⟩
      intro failed
      have below := wf.below
      have ok := spec.ok
      rw [failed] at ok
      by_contra granted
      rw [Bool.not_eq_false] at granted
      exact absurd (ok.mpr ⟨by omega, granted⟩) (by simp)

end

/-- A ring that `kith_ringbuf_init` sets up is well-formed and empty. -/
theorem kithRingbufInit_wf
    (created : kithRingbufInit heap initialSize maxSize = some (some rb, heap')) :
    rb.Wf ∧ rb.contents = [] ∧ nextPow2 maxSize = some rb.maxSize ∧ heap'.grant = heap.grant := by
  rw [kithRingbufInit] at created
  split at created
  · simp at created
  · cases top : nextPow2 maxSize with
    | none => cases bottom : nextPow2 initialSize <;> simp [top, bottom] at created
    | some p =>
      have small := le_of_nextPow2 top
      obtain ⟨i, found, _, _⟩ := nextPow2_spec (x := initialSize) (by omega)
      obtain ⟨m, found', _, least⟩ := nextPow2_spec small
      have hm : m ≤ 63 := least 63 small
      rw [top] at found'
      cases found'
      rw [found, top] at created
      simp only [bind_some, map_some, some.injEq, Heap.request] at created
      split at created
      · simp at created
      · rename_i order
        split at created
        · simp at created
        · rename_i granted
          simp only [Prod.mk.injEq, some.injEq] at granted created
          obtain ⟨rfl, rfl⟩ := created
          refine ⟨⟨⟨i, rfl⟩, ⟨i, rfl⟩, ⟨m, hm, rfl⟩, le_refl _, by simpa using order,
            by simp [kithRingbufUsed]⟩, length_eq_zero_iff.mp (by simp [kithRingbufUsed]), rfl, ?_⟩
          rw [← granted.2]

theorem kithRingbufInit_spec (small : maxSize ≤ 2 ^ 32)
    (created : kithRingbufInit heap initialSize maxSize = some (some rb, heap')) :
    rb.Valid ∧ rb.contents = [] ∧ nextPow2 maxSize = some rb.maxSize ∧ maxSize ≤ rb.maxSize := by
  obtain ⟨wf, empty, top, _⟩ := kithRingbufInit_wf created
  obtain ⟨m, found, above, least⟩ := nextPow2_spec (x := maxSize) (by omega)
  rw [top] at found
  have rounded : rb.maxSize = 2 ^ m := some.inj found
  have low : 2 ^ m ≤ 2 ^ 32 := Nat.pow_le_pow_right (by omega) (least 32 small)
  exact ⟨⟨wf, by omega⟩, empty, top, by omega⟩

/-- With its allocation granted, the set-up succeeds for a non-zero initial size
that is not above the maximum. -/
theorem kithRingbufInit_ok (heap : Heap NetSite) (pos : initialSize ≠ 0)
    (order : initialSize ≤ maxSize) (small : maxSize ≤ 2 ^ 32)
    (granted : ∀ n, heap.grant .ring n = true) :
    ∃ rb heap', kithRingbufInit heap initialSize maxSize = some (some rb, heap') ∧
      heap'.grant = heap.grant := by
  obtain ⟨i, found, _, least⟩ := nextPow2_spec (x := initialSize) (by omega)
  obtain ⟨m, found', above, _⟩ := nextPow2_spec (x := maxSize) (by omega)
  have params : ¬ (initialSize = 0 ∨ maxSize = 0 ∨ maxSize < initialSize) := by omega
  have rounded : ¬ 2 ^ m < 2 ^ i := by
    have him := least m (by omega)
    exact Nat.not_lt.mpr (Nat.pow_le_pow_right (by omega) him)
  rw [kithRingbufInit, if_neg params, found, found']
  simp only [bind_some, map_some, rounded, if_false, Heap.request, granted]
  exact ⟨_, _, rfl, rfl⟩

end Writes

end Kith.Net
