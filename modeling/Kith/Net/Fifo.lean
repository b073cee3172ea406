import Kith.Lib.Runs
import Kith.Net.Ringbuf

/-!
# The ring as a bounded queue of bytes

The queue is a list no longer than the ceiling. Its steps say what each call may
answer and what it leaves; a write or a shrink may fail, and then it leaves the
queue as it was. A run of the ring is a run of the queue, as long as no write
asks for a size that the doubling loop of `kith_ringbuf_write` cannot reach.
-/

namespace Kith.Net

/-- The calls on a ring; the queue has the same ones. -/
inductive FifoOp where
  | write (data : List UInt8)
  | peek
  | consume (len : Nat)
  | copy (cap : Nat)
  | maybeShrink

/-- What a call hands back: its result code and the bytes read. -/
structure Reply where
  ok : Bool
  bytes : List UInt8
  deriving DecidableEq

section Queue

/-- A queue of at most `cap` bytes, oldest first. -/
abbrev Fifo (cap : Nat) : Type := { q : List UInt8 // q.length ≤ cap }

namespace Fifo

variable {cap : Nat}

def empty (cap : Nat) : Fifo cap := ⟨[], Nat.zero_le cap⟩

def push (q : Fifo cap) (data : List UInt8) (fits : q.1.length + data.length ≤ cap) : Fifo cap :=
  ⟨q.1 ++ data, by rw [List.length_append]; exact fits⟩

def pop (q : Fifo cap) (len : Nat) : Fifo cap :=
  ⟨q.1.drop len, by rw [List.length_drop]; exact le_trans (Nat.sub_le ..) q.2⟩

/-- The steps of the queue; `refuses` says that the allocator refuses some request. -/
inductive Step (refuses : Prop) : Fifo cap → FifoOp → Reply → Fifo cap → Prop
  | written (q : Fifo cap) (data : List UInt8) (fits : q.1.length + data.length ≤ cap) :
      Step refuses q (.write data) ⟨true, []⟩ (q.push data fits)
  | full (q : Fifo cap) (data : List UInt8) (excess : cap < q.1.length + data.length) :
      Step refuses q (.write data) ⟨false, []⟩ q
  | refused (q : Fifo cap) (data : List UInt8) (cause : refuses) :
      Step refuses q (.write data) ⟨false, []⟩ q
  | peeked (q : Fifo cap) (k : Nat) (some_read : q.1 ≠ [] → 0 < k) :
      Step refuses q .peek ⟨true, q.1.take k⟩ q
  | consumed (q : Fifo cap) (len : Nat) : Step refuses q (.consume len) ⟨true, []⟩ (q.pop len)
  | copied (q : Fifo cap) (room : Nat) : Step refuses q (.copy room) ⟨true, q.1.take room⟩ q
  | shrunk (q : Fifo cap) : Step refuses q .maybeShrink ⟨true, []⟩ q
  | unshrunk (q : Fifo cap) (cause : refuses) : Step refuses q .maybeShrink ⟨false, []⟩ q

end Fifo

end Queue

structure RingRun where
  rb : Ringbuf
  heap : Heap NetSite

namespace RingRun

/-- One call; `none` is a call that does not return. -/
def step (s : RingRun) : FifoOp → Option (Reply × RingRun)
  | .write data => (kithRingbufWrite s.rb s.heap data).map fun (ok, rb, heap) =>
    (⟨ok, []⟩, ⟨rb, heap⟩)
  | .peek => some (⟨true, kithRingbufPeek s.rb⟩, s)
  | .consume len => some (⟨true, []⟩, { s with rb := kithRingbufConsume s.rb len })
  | .copy cap => some (⟨true, kithRingbufCopy s.rb cap⟩, s)
  | .maybeShrink =>
    (kithRingbufMaybeShrink s.rb s.heap).map fun (ok, rb, heap) => (⟨ok, []⟩, ⟨rb, heap⟩)

/-- The total that a write asks for can be doubled up to within a `size_t`. -/
def Reaches (s : RingRun) : FifoOp → Prop
  | .write data => kithRingbufUsed s.rb + data.length ≤ 2 ^ 63
  | _ => True

instance (s : RingRun) : (op : FifoOp) → Decidable (s.Reaches op)
  | .write _ => inferInstanceAs (Decidable (_ ≤ _))
  | .peek | .consume _ | .copy _ | .maybeShrink => .isTrue trivial

structure Holds {cap : Nat} (refuses : Prop) (s : RingRun) (q : Fifo cap) : Prop where
  wf : s.rb.Wf
  ceiling : s.rb.maxSize = cap
  contents : s.rb.contents = q.1
  refusal : ∀ n, s.heap.grant .ring n = false → refuses

end RingRun

section Refinement

open RingRun Runs

variable {cap : Nat} {refuses : Prop} {s : RingRun} {q : Fifo cap}

theorem RingRun.Holds.used (holds : Holds refuses s q) : kithRingbufUsed s.rb = q.1.length := by
  rw [← length_contents, holds.contents]

theorem step_write (holds : Holds refuses s q) {data : List UInt8}
    (reaches : s.Reaches (.write data)) :
    ∃ reply s' q', s.step (.write data) = some (reply, s') ∧
      Fifo.Step refuses q (.write data) reply q' ∧ Holds refuses s' q' := by
  obtain ⟨⟨ok, rb, heap⟩, wrote, spec⟩ := kithRingbufWrite_spec holds.wf s.heap data reaches
  have used := holds.used
  have contents := spec.contents
  have outcome := spec.ok
  have refusal : ∀ n, heap.grant .ring n = false → refuses := by
    rw [spec.grant]
    exact holds.refusal
  rw [used, holds.ceiling] at outcome
  have stepped : s.step (.write data) = some (⟨ok, []⟩, ⟨rb, heap⟩) := by
    rw [step, wrote, Option.map_some]
  cases ok with
  | true =>
    obtain ⟨fits, _⟩ := outcome.mp rfl
    refine ⟨_, _, q.push data fits, stepped, .written q data fits, spec.wf, ?_, ?_, refusal⟩
    · exact spec.maxSize.trans holds.ceiling
    · rw [contents, if_pos rfl, holds.contents]
      rfl
  | false =>
    refine ⟨_, _, q, stepped, ?_, spec.wf, spec.maxSize.trans holds.ceiling, ?_, refusal⟩
    · by_cases excess : cap < q.1.length + data.length
      · exact .full q data excess
      · apply Fifo.Step.refused
        apply holds.refusal s.heap.calls
        by_contra granted
        rw [Bool.not_eq_false] at granted
        exact absurd (outcome.mpr ⟨Nat.not_lt.mp excess, .inr granted⟩) (by simp)
    · rw [contents, if_neg (by simp), holds.contents]

theorem step_maybeShrink (holds : Holds refuses s q) :
    ∃ reply s' q', s.step .maybeShrink = some (reply, s') ∧
      Fifo.Step refuses q .maybeShrink reply q' ∧ Holds refuses s' q' := by
  obtain ⟨⟨ok, rb, heap⟩, shrank, wf, contents, maxSize, grant, cause⟩ :=
    kithRingbufMaybeShrink_spec holds.wf s.heap
  have stepped : s.step .maybeShrink = some (⟨ok, []⟩, ⟨rb, heap⟩) := by
    rw [step, shrank, Option.map_some]
  refine ⟨_, _, q, stepped, ?_, wf, maxSize.trans holds.ceiling, contents.trans holds.contents, ?_⟩
  · cases ok with
    | true => exact .shrunk q
    | false => exact .unshrunk q (holds.refusal _ (cause rfl))
  · intro n refused
    rw [grant] at refused
    exact holds.refusal n refused

theorem step_refines (s : RingRun) (q : Fifo cap) (op : FifoOp) (holds : Holds refuses s q)
    (reaches : s.Reaches op) :
    ∃ reply s' q', s.step op = some (reply, s') ∧ Fifo.Step refuses q op reply q' ∧
      Holds refuses s' q' := by
  cases op with
  | write data => exact step_write holds reaches
  | peek =>
    obtain ⟨k, peeked, some_read⟩ := kithRingbufPeek_eq holds.wf
    rw [holds.contents] at peeked some_read
    refine ⟨_, s, q, rfl, ?_, holds⟩
    rw [peeked]
    exact .peeked q k some_read
  | consume len =>
    obtain ⟨wf, contents⟩ := kithRingbufConsume_spec holds.wf len
    rw [holds.contents] at contents
    exact ⟨_, _, q.pop len, rfl, .consumed q len, wf, holds.ceiling, contents, holds.refusal⟩
  | copy room =>
    refine ⟨_, s, q, rfl, ?_, holds⟩
    rw [kithRingbufCopy_eq holds.wf, holds.contents]
    exact .copied q room
  | maybeShrink => exact step_maybeShrink holds

/-- From its set-up on the ring is a queue bounded by its ceiling: every call
returns and answers as the queue does, and what is held can be read back. -/
theorem ringbuf_refines_fifo {heap heap' : Heap NetSite} {initialSize maxSize : Nat} {rb : Ringbuf}
    (created : kithRingbufInit heap initialSize maxSize = some (some rb, heap'))
    (ops : List FifoOp) (within : Along step Reaches ⟨rb, heap'⟩ ops) :
    nextPow2 maxSize = some rb.maxSize ∧
    ∃ replies s', run step ⟨rb, heap'⟩ ops = some (replies, s') ∧
      ∃ q : Fifo rb.maxSize,
        Trace (Fifo.Step (∃ n, heap.grant .ring n = false)) (Fifo.empty rb.maxSize) ops replies q ∧
        kithRingbufUsed s'.rb = q.1.length ∧
        (∀ room, kithRingbufCopy s'.rb room = q.1.take room) ∧
        kithRingbufPeek s'.rb <+: q.1 ∧
        s'.rb.size ≤ rb.maxSize := by
  obtain ⟨wf, empty, rounded, grant⟩ := kithRingbufInit_wf created
  have start : Holds (∃ n, heap.grant .ring n = false) ⟨rb, heap'⟩ (Fifo.empty rb.maxSize) := by
    refine ⟨wf, rfl, empty, ?_⟩
    intro n refused
    rw [grant] at refused
    exact ⟨n, refused⟩
  obtain ⟨replies, s', q, ran, queued, holds⟩ := run_simulates step_refines start ops within
  obtain ⟨k, peeked, _⟩ := kithRingbufPeek_eq holds.wf
  refine ⟨rounded, replies, s', ran, q, queued, holds.used, ?_, ?_, ?_⟩
  · intro room
    rw [kithRingbufCopy_eq holds.wf, holds.contents]
  · rw [peeked, holds.contents]
    exact List.take_prefix k q.1
  · rw [← holds.ceiling]
    exact holds.wf.below

/-- Above `2 ^ 63` the doubling of `kith_ringbuf_write` wraps to zero and never ends. -/
theorem kithRingbufWrite_endless {rb : Ringbuf} (wf : rb.Wf) (heap : Heap NetSite)
    (data : List UInt8) (large : 2 ^ 63 < kithRingbufUsed rb + data.length)
    (unwrapped : kithRingbufUsed rb + data.length < 2 ^ 64) :
    kithRingbufWrite rb heap data = none := by
  have below := le_trans wf.below wf.max_le
  have fits := wf.fits
  obtain ⟨b, hb, hsize⟩ := wf.pow
  have some_bytes : data ≠ [] := by
    rintro rfl
    rw [List.length_nil] at large
    omega
  have tight : kithRingbufSpace rb < data.length := by
    rw [kithRingbufSpace]
    omega
  have endless : sizeFrom ((kithRingbufUsed rb + data.length) % 2 ^ 64) 65 rb.size = none := by
    apply sizeFrom_none
    · rw [Nat.mod_eq_of_lt unwrapped]
      exact large
    · exact .inr ⟨b, by omega, hsize⟩
  rw [kithRingbufWrite, if_neg some_bytes, if_pos tight, endless, Option.map_none]

section Instances

def tinyHeap : Heap NetSite := ⟨fun _ _ => true, 0⟩

def tinyRing : RingRun := ⟨⟨fun _ => 0, 4, 0, 0, 4, 8⟩, ⟨fun _ _ => true, 1⟩⟩

theorem tinyRing_created :
    kithRingbufInit tinyHeap 3 8 = some (some tinyRing.rb, tinyRing.heap) := rfl

/-- A growth, a read over the wrap and a write above the ceiling. -/
def tinyOps : List FifoOp :=
  [.write [1, 2, 3], .consume 2, .write [4, 5, 6], .copy 9, .write [7, 8, 9, 10, 11], .maybeShrink]

theorem tinyOps_refine :
    Along step Reaches tinyRing tinyOps ∧
    ∃ replies s', run step tinyRing tinyOps = some (replies, s') ∧ s'.rb.size ≤ 8 := by
  have within : Along step Reaches tinyRing tinyOps := by decide +kernel
  obtain ⟨_, replies, s', ran, _, _, _, _, _, small⟩ :=
    ringbuf_refines_fifo tinyRing_created tinyOps within
  exact ⟨within, replies, s', ran, small⟩

theorem oversized_write_hangs :
    kithRingbufInit tinyHeap 3 8 = some (some tinyRing.rb, tinyRing.heap) ∧
    run step tinyRing [.write (List.replicate (2 ^ 63 + 1) 0)] = none := by
  refine ⟨tinyRing_created, ?_⟩
  have wf := (kithRingbufInit_wf tinyRing_created).1
  have empty : kithRingbufUsed tinyRing.rb = 0 := rfl
  generalize hd : List.replicate (2 ^ 63 + 1) (0 : UInt8) = data
  have size : data.length = 2 ^ 63 + 1 := by rw [← hd, List.length_replicate]
  have endless := kithRingbufWrite_endless wf tinyRing.heap data (by omega) (by omega)
  rw [run, step, endless, Option.map_none]

end Instances

end Refinement

end Kith.Net
