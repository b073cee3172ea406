import Kith.Control.Router
import Mathlib.Data.List.Sort

/-!
# The metric registry

A series is found by its name, its kind and its label set and is created on first
use. Every recording and every rendering holds the lock of the handle, so each of
them is one step. C strings are byte lists without their terminator.
-/

namespace Kith.Metrics

inductive Kind where
  | counter | gauge | histogram
  deriving DecidableEq

def Kind.code : Kind → Nat
  | .counter => 0
  | .gauge => 1
  | .histogram => 2

structure LabelSlot where
  key : List UInt8
  value : List UInt8
  deriving DecidableEq

structure Series where
  name : List UInt8
  kind : Kind
  labels : List LabelSlot
  counter : UInt64
  gauge : Int64
  histBuckets : List UInt64
  histSum : UInt64
  histCount : UInt64
  deriving DecidableEq

/-- A handle without a prefix has the empty one. -/
structure Registry where
  namePrefix : List UInt8
  series : List Series
  deriving DecidableEq

section Text

/-- The sign of `strcmp`. -/
def strcmp : List UInt8 → List UInt8 → Int
  | [], [] => 0
  | [], _ :: _ => -1
  | _ :: _, [] => 1
  | a :: as, b :: bs => if a = b then strcmp as bs else if a < b then -1 else 1

theorem strcmp_eq_zero_iff {a b : List UInt8} : strcmp a b = 0 ↔ a = b := by
  induction a generalizing b with
  | nil => cases b <;> simp [strcmp]
  | cons x as ih =>
    cases b with
    | nil => simp [strcmp]
    | cons y bs =>
      rw [strcmp, List.cons.injEq]
      split
      · rename_i heq
        rw [ih, and_iff_right heq]
      · rename_i hne
        rw [iff_false_right fun h => hne h.1]
        split <;> decide

/-- The digits that `b_put_u64` collects, the last one first in its buffer of 20. -/
def digits : Nat → Nat → List UInt8
  | 0, _ => []
  | room + 1, v => if v = 0 then [] else digits room (v / 10) ++ [(48 + v % 10).toUInt8]

def bPutU64 (v : UInt64) : List UInt8 := if v = 0 then [48] else digits 20 v.toNat

def bPutI64 (v : Int64) : List UInt8 :=
  if v < 0 then 45 :: bPutU64 ((-(v + 1)).toUInt64 + 1) else bPutU64 v.toUInt64

end Text

section Recording

/-- A label of the caller; `none` is a null pointer. -/
structure CallerLabel where
  key : Option (List UInt8)
  value : Option (List UInt8)
  deriving DecidableEq

inductive Observed where
  | counterAdd (delta : UInt64)
  | gaugeSet (value : Int64)
  | histogramObserve (value : UInt64)
  deriving DecidableEq

def Observed.kind : Observed → Kind
  | .counterAdd _ => .counter
  | .gaugeSet _ => .gauge
  | .histogramObserve _ => .histogram

/-- One of the three recording calls; `allocated` says whether a new series gets its
memory. -/
structure Recording where
  name : List UInt8
  labels : List CallerLabel
  observed : Observed
  allocated : Bool

/-- The labels with a key, as they are stored before they are sorted. -/
def validLabels (labels : List CallerLabel) : List LabelSlot :=
  labels.filterMap fun l => l.key.map fun key => ⟨key, l.value.getD []⟩

def labelsMatch (stored : List LabelSlot) (caller : List CallerLabel) : Bool :=
  stored.length = (validLabels caller).length ∧ ∀ l ∈ validLabels caller, l ∈ stored

def seriesMatch (r : Recording) (s : Series) : Bool :=
  s.kind = r.observed.kind ∧ strcmp s.name r.name = 0 ∧ labelsMatch s.labels r.labels

def copyLabels (labels : List CallerLabel) : List LabelSlot :=
  (validLabels labels).insertionSort fun a b => strcmp a.key b.key ≤ 0

def seriesCreate (r : Recording) : Series :=
  ⟨r.name, r.observed.kind, copyLabels r.labels, 0, 0, List.replicate 13 0, 0, 0⟩

def histBounds : List UInt64 := [1, 2, 5, 10, 20, 50, 100, 200, 500, 1000, 2000, 5000]

def observe : Observed → Series → Series
  | .counterAdd delta, s => { s with counter := s.counter + delta }
  | .gaugeSet value, s => { s with gauge := value }
  | .histogramObserve value, s =>
    { s with
      histCount := s.histCount + 1
      histSum := s.histSum + value
      histBuckets := s.histBuckets.modify (histBounds.findIdx (value ≤ ·)) (· + 1) }

/-- The index of the series, which is there afterwards; without memory there is none. -/
def kithMetricsFindOrCreate (m : Registry) (r : Recording) : Option (Nat × Registry) :=
  match m.series.findIdx? (seriesMatch r) with
  | some i => some (i, m)
  | none =>
    if r.allocated then
      some (m.series.length, { m with series := m.series ++ [seriesCreate r] })
    else none

def record (m : Registry) (r : Recording) : Option Nat × Registry :=
  match kithMetricsFindOrCreate m r with
  | none => (none, m)
  | some (i, m) => (some i, { m with series := m.series.modify i (observe r.observed) })

def recorded (m : Registry) (rs : List Recording) : Registry :=
  rs.foldl (fun m r => (record m r).2) m

end Recording

end Kith.Metrics
