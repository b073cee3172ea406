import Kith.Metrics.Registry

/-!
# The Prometheus text

The bytes that a rendering of the registry puts, in order, and the builder they go
through: it keeps those that its buffer has room for and counts them all.
-/

namespace Kith.Metrics

open Control List

section Text

def kindTypeName : Kind → List UInt8
  | .counter => ascii "counter"
  | .gauge => ascii "gauge"
  | .histogram => ascii "histogram"

/-- Backslash, double quote and newline are escaped. -/
def emitLabelValue (v : List UInt8) : List UInt8 :=
  34 :: v.flatMap (fun c =>
    if c = 92 then [92, 92] else if c = 34 then [92, 34] else if c = 10 then [92, 110] else [c]) ++
      [34]

/-- The labels, and the bound of a bucket line; nothing, not even braces, without any. -/
def emitLabelSet (labels : List LabelSlot) (le : Option (List UInt8)) : List UInt8 :=
  match labels.map (fun l => l.key ++ 61 :: emitLabelValue l.value) ++
      le.toList.map fun bound => ascii "le=" ++ emitLabelValue bound with
  | [] => []
  | parts => 123 :: [44].intercalate parts ++ [125]

def emitName (m : Registry) (name : List UInt8) : List UInt8 := m.namePrefix ++ name

def emitSample (m : Registry) (s : Series) (suffix : String) (le : Option (List UInt8))
    (value : List UInt8) : List UInt8 :=
  emitName m s.name ++ ascii suffix ++ emitLabelSet s.labels le ++ 32 :: value ++ [10]

def emitScalarSeries (m : Registry) (s : Series) : List UInt8 :=
  emitSample m s "" none (if s.kind = .counter then bPutU64 s.counter else bPutI64 s.gauge)

/-- The buckets with their bounds, each line with the total so far. -/
def emitBuckets (m : Registry) (s : Series) : UInt64 → List (List UInt8 × UInt64) → List UInt8
  | _, [] => []
  | cumulative, (le, n) :: buckets =>
    emitSample m s "_bucket" (some le) (bPutU64 (cumulative + n)) ++
      emitBuckets m s (cumulative + n) buckets

def emitHistogramSeries (m : Registry) (s : Series) : List UInt8 :=
  emitBuckets m s 0 ((histBounds.map bPutU64 ++ [ascii "+Inf"]).zip s.histBuckets) ++
    emitSample m s "_sum" none (bPutU64 s.histSum) ++
    emitSample m s "_count" none (bPutU64 s.histCount)

def idxCmp (a b : Series × Nat) : Int :=
  if strcmp a.1.name b.1.name ≠ 0 then strcmp a.1.name b.1.name
  else if a.1.kind.code < b.1.kind.code then -1
  else if a.1.kind.code > b.1.kind.code then 1
  else if a.2 < b.2 then -1
  else if a.2 > b.2 then 1 else 0

/-- Each series behind the header of its group, which a change of name or kind begins. -/
def emitGroups (m : Registry) : Option (List UInt8 × Kind) → List Series → List UInt8
  | _, [] => []
  | prev, s :: rest =>
    (if prev = some (s.name, s.kind) then []
      else ascii "# TYPE " ++ emitName m s.name ++ 32 :: kindTypeName s.kind ++ [10]) ++
    (if s.kind = .histogram then emitHistogramSeries m s else emitScalarSeries m s) ++
    emitGroups m (some (s.name, s.kind)) rest

/-- Without the lock, or without memory for the order, nothing is rendered. -/
def kithRenderPrometheus (m : Registry) (obtained : Bool) : List UInt8 :=
  if obtained then
    emitGroups m none ((m.series.zipIdx.insertionSort fun a b => idxCmp a b ≤ 0).map Prod.fst)
  else []

end Text

section Builder

/-- A builder over a buffer of `cap` bytes, of which `out` are written. -/
structure Builder where
  cap : Nat
  out : List UInt8
  used : Nat

def Builder.putc (b : Builder) (c : UInt8) : Builder :=
  { b with out := if b.used < b.cap then b.out ++ [c] else b.out, used := b.used + 1 }

def kithMetricsRenderPrometheus (m : Registry) (obtained : Bool) (cap : Nat) : Builder :=
  (kithRenderPrometheus m obtained).foldl Builder.putc ⟨cap, [], 0⟩

theorem Builder.foldl_putc (cap : Nat) (before text : List UInt8) :
    text.foldl putc ⟨cap, before.take cap, before.length⟩ =
      ⟨cap, (before ++ text).take cap, (before ++ text).length⟩ := by
  induction text generalizing before with
  | nil => simp
  | cons c text ih =>
    have one : putc ⟨cap, before.take cap, before.length⟩ c =
        ⟨cap, (before ++ [c]).take cap, (before ++ [c]).length⟩ := by
      simp only [putc, length_append, length_singleton]
      split
      · rename_i room
        have fits : (before ++ [c]).length ≤ cap := by
          rw [length_append]
          exact room
        rw [take_of_length_le (Nat.le_of_lt room), take_of_length_le fits]
      · rename_i full
        rw [take_append_of_le_length (Nat.le_of_not_lt full)]
    rw [foldl_cons, one, ih, append_assoc, singleton_append]

theorem kithMetricsRenderPrometheus_eq (m : Registry) (obtained : Bool) (cap : Nat) :
    kithMetricsRenderPrometheus m obtained cap = ⟨cap, (kithRenderPrometheus m obtained).take cap,
      (kithRenderPrometheus m obtained).length⟩ := by
  have run := Builder.foldl_putc cap [] (kithRenderPrometheus m obtained)
  rwa [take_nil] at run

end Builder

end Kith.Metrics
