import Kith.Metrics.Registry
import Mathlib.Data.List.Chain

/-!
# The OTLP export

The export sorts an array of series indices by name and kind, walks it group by
group and writes one metric object for each group. What it writes is kept as the
metric objects with their data points; `none` is a read outside an array.
-/

namespace Kith.Metrics

open List Option

structure GroupKey where
  name : List UInt8
  kind : Kind
  deriving DecidableEq

def Series.key (s : Series) : GroupKey := ⟨s.name, s.kind⟩

def groupCmp (a b : GroupKey) : Int :=
  let c := strcmp a.name b.name
  if c ≠ 0 then c
  else if a.kind.code < b.kind.code then -1
  else if b.kind.code < a.kind.code then 1
  else 0

inductive Value where
  | counter (asInt : UInt64)
  | gauge (asInt : Int64)
  | histogram (sum count : UInt64) (bucketCounts : List UInt64)
  deriving DecidableEq

structure DataPoint where
  attributes : List LabelSlot
  timeUnixNano : UInt64
  value : Value
  deriving DecidableEq

structure MetricObject where
  key : GroupKey
  dataPoints : List DataPoint
  deriving DecidableEq

/-- The point that a group of kind `kind` writes for a series. -/
def emitPoint (kind : Kind) (time : UInt64) (s : Series) : DataPoint :=
  ⟨s.labels, time,
    match kind with
    | .counter => .counter s.counter
    | .gauge => .gauge s.gauge
    | .histogram => .histogram s.histSum s.histCount s.histBuckets⟩

section Export

variable (m : Registry) (time : UInt64)

/-- `m->series[order[i]]` -/
def seriesAt (order : Array Nat) (i : Nat) : Option Series := do
  m.series[← order[i]?]?

/-- `keys[order[i]]`, where `keys` holds the name and the kind of each series. -/
def keyAt (order : Array Nat) (i : Nat) : Option GroupKey := do
  (m.series.map Series.key)[← order[i]?]?

/-- The inner loop of the selection sort, with the rounds left. -/
def selectBest (order : Array Nat) : Nat → Nat → Nat → Option Nat
  | 0, _, best => some best
  | rounds + 1, j, best => do
    let better := groupCmp (← keyAt m order j) (← keyAt m order best) < 0
    selectBest order rounds (j + 1) (if better then j else best)

/-- The outer loop; `rounds` more positions before the last one are filled. -/
def sortOrder : Nat → Nat → Array Nat → Option (Array Nat)
  | 0, _, order => some order
  | rounds + 1, i, order => do
    let best ← selectBest m order (m.series.length - (i + 1)) (i + 1) i
    sortOrder rounds (i + 1) (order.swapIfInBounds i best)

/-- The allocations are taken to succeed. -/
def buildSeriesOrder : Option (Array Nat) :=
  sortOrder m (m.series.length - 1) 0 (Array.range m.series.length)

/-- The loop over a group; `group_start` points to the one variable of the caller. -/
def emitPoints (kind : Kind) (order : Array Nat) (groupStart : List Nat) :
    Nat → Nat → Option (List DataPoint)
  | 0, _ => some []
  | rounds + 1, gi => do
    let s ← seriesAt m order (← groupStart[gi]?)
    let rest ← emitPoints kind order groupStart rounds (gi + 1)
    some (emitPoint kind time s :: rest)

def emitMetricObject (g : GroupKey) (order : Array Nat) (groupStart : List Nat)
    (groupLen : Nat) : Option MetricObject := do
  some ⟨g, ← emitPoints m time g.kind order groupStart groupLen 0⟩

/-- Where the group of `g` ends, at most `rounds` behind `oi`. -/
def groupEnd (order : Array Nat) (g : GroupKey) : Nat → Nat → Option Nat
  | 0, oi => some oi
  | rounds + 1, oi => do
    if groupCmp (← keyAt m order oi) g = 0 then groupEnd order g rounds (oi + 1) else some oi

/-- The loop over the groups; every round takes at least one index. -/
def emitPayload (order : Array Nat) : Nat → Nat → Option (List MetricObject)
  | 0, _ => some []
  | fuel + 1, oi =>
    if m.series.length ≤ oi then some []
    else do
      let g ← keyAt m order oi
      let stop ← groupEnd m order g (m.series.length - oi) oi
      let object ← emitMetricObject m time g order [oi] (stop - oi)
      let rest ← emitPayload order fuel stop
      some (object :: rest)

def kithRenderOtlp : Option (List MetricObject) := do
  emitPayload m time (← buildSeriesOrder m) m.series.length 0

end Export

/-- One object for each pair of name and kind, with the points of its series. -/
structure Covers (m : Registry) (time : UInt64) (objects : List MetricObject) : Prop where
  once : (objects.map MetricObject.key).Nodup
  every : ∀ key, key ∈ objects.map MetricObject.key ↔ key ∈ m.series.map Series.key
  points : ∀ o ∈ objects, o.dataPoints.Perm
    ((m.series.filter (·.key = o.key)).map (emitPoint o.key.kind time))

section Order

variable {m : Registry} {order : Array Nat} {i rounds : Nat}

theorem groupCmp_eq_zero_iff {a b : GroupKey} : groupCmp a b = 0 ↔ a = b := by
  obtain ⟨an, ak⟩ := a
  obtain ⟨bn, bk⟩ := b
  rw [groupCmp, GroupKey.mk.injEq, ← strcmp_eq_zero_iff]
  by_cases hname : strcmp an bn = 0
  · cases ak <;> cases bk <;> simp [hname, Kind.code]
  · simp [hname]

/-- The array holds every index of the registry once. -/
def Arranges (m : Registry) (order : Array Nat) : Prop :=
  order.toList.Perm (List.range m.series.length)

theorem Arranges.size (arranges : Arranges m order) : order.size = m.series.length := by
  rw [← Array.length_toList, List.Perm.length_eq arranges, length_range]

theorem keyAt_eq (i : Nat) : keyAt m order i = (seriesAt m order i).map Series.key := by
  rw [keyAt, seriesAt]
  cases order[i]? <;> simp

section

variable (arranges : Arranges m order)
include arranges

theorem Arranges.reordered : ∃ sorted : List Series,
    sorted.Perm m.series ∧ ∀ i, seriesAt m order i = sorted[i]? := by
  have all : ∀ j ∈ order.toList, j < m.series.length := fun j hj =>
    mem_range.mp ((List.Perm.mem_iff arranges).mp hj)
  let read := fun j (hj : j < m.series.length) => m.series[j]
  have whole : (range m.series.length).pmap read (fun j hj => mem_range.mp hj) =
      m.series := by
    apply ext_getElem
    · simp
    · intro i _ _
      simp [read]
  refine ⟨order.toList.pmap read all, ?_, ?_⟩
  · exact (List.Perm.pmap read arranges).trans (.of_eq whole)
  · intro i
    rw [seriesAt, getElem?_pmap]
    cases h : order[i]? <;> simp [h, read]

theorem Arranges.keyAt_some (hi : i < m.series.length) : ∃ key, keyAt m order i = some key := by
  obtain ⟨sorted, perm, reads⟩ := arranges.reordered
  have hlen : i < sorted.length := perm.length_eq ▸ hi
  exact ⟨sorted[i].key, by rw [keyAt_eq, reads, getElem?_eq_getElem hlen, map_some]⟩

theorem selectBest_lt {j best : Nat} (hbest : best < m.series.length)
    (hj : j + rounds ≤ m.series.length) :
    ∃ b < m.series.length, selectBest m order rounds j best = some b := by
  induction rounds generalizing j best with
  | zero => exact ⟨best, hbest, rfl⟩
  | succ rounds ih =>
    obtain ⟨k, hk⟩ := arranges.keyAt_some (i := j) (by omega)
    obtain ⟨k', hk'⟩ := arranges.keyAt_some hbest
    simp only [selectBest, hk, hk', bind_eq_bind, bind_some]
    exact ih (by split <;> omega) (by omega)

theorem sortOrder_arranges (hi : i + rounds ≤ m.series.length) :
    ∃ order', sortOrder m rounds i order = some order' ∧ Arranges m order' := by
  induction rounds generalizing i order with
  | zero => exact ⟨order, rfl, arranges⟩
  | succ rounds ih =>
    have hstart : i + 1 + (m.series.length - (i + 1)) ≤ m.series.length := by omega
    obtain ⟨best, hbest, found⟩ := selectBest_lt arranges (show i < _ by omega) hstart
    have swapped : Arranges m (order.swapIfInBounds i best) := by
      have hsize := arranges.size
      rw [Array.swapIfInBounds, dif_pos (by omega), dif_pos (by omega)]
      exact (Array.swap_perm _ _).toList.trans arranges
    simp only [sortOrder, found, bind_eq_bind, bind_some]
    exact ih swapped (by omega)

end

theorem buildSeriesOrder_arranges (m : Registry) :
    ∃ order, buildSeriesOrder m = some order ∧ Arranges m order := by
  have start : Arranges m (Array.range m.series.length) := by
    rw [Arranges, Array.toList_range]
  exact sortOrder_arranges start (by omega)

end Order

section Groups

variable {m : Registry} {time : UInt64} {order : Array Nat} {sorted : List Series}

/-- The object of a group of one series. -/
def single (time : UInt64) (s : Series) : MetricObject := ⟨s.key, [emitPoint s.kind time s]⟩

theorem emitMetricObject_single {oi : Nat} {s : Series} (here : seriesAt m order oi = some s) :
    emitMetricObject m time s.key order [oi] 1 = some (single time s) := by
  simp [emitMetricObject, emitPoints, here, single, Series.key]

theorem emitMetricObject_none {oi len : Nat} {g : GroupKey} (hlen : 1 < len) :
    emitMetricObject m time g order [oi] len = none := by
  obtain ⟨len, rfl⟩ : ∃ n, len = n + 2 := ⟨len - 2, by omega⟩
  simp [emitMetricObject, emitPoints]

theorem groupEnd_le {g : GroupKey} {rounds oi stop : Nat}
    (found : groupEnd m order g rounds oi = some stop) : oi ≤ stop := by
  induction rounds generalizing oi with
  | zero =>
    cases found
    exact le_rfl
  | succ rounds ih =>
    rw [groupEnd] at found
    obtain ⟨key, _, found⟩ := bind_eq_some_iff.mp found
    split at found
    · exact (ih found).trans' (by omega)
    · cases found
      exact le_rfl

section Reads

variable (reads : ∀ i, seriesAt m order i = sorted[i]?) {i rounds oi : Nat} {s : Series}
    {g : GroupKey}
include reads

theorem keyAt_of_reads (here : sorted[i]? = some s) : keyAt m order i = some s.key := by
  rw [keyAt_eq, reads, here, map_some]

theorem groupEnd_of_eq (here : sorted[i]? = some s) (same : s.key = g) :
    groupEnd m order g (rounds + 1) i = groupEnd m order g rounds (i + 1) := by
  simp [groupEnd, keyAt_of_reads reads here, groupCmp_eq_zero_iff, same]

theorem groupEnd_of_ne (next : ∀ y ∈ sorted[oi]?, g ≠ y.key) (hlen : sorted.length = oi + rounds) :
    groupEnd m order g rounds oi = some oi := by
  cases rounds with
  | zero => rfl
  | succ rounds =>
    have here := getElem?_eq_getElem (l := sorted) (i := oi) (by omega)
    simp [groupEnd, keyAt_of_reads reads here, groupCmp_eq_zero_iff, (next _ here).symm]

/-- Groups of one series are written, each once; a longer group ends in a read outside
the variable. -/
theorem emitPayload_eq (hlen : sorted.length = m.series.length) {fuel : Nat}
    (hfuel : sorted.length ≤ oi + fuel) :
    emitPayload m time order fuel oi =
      if (sorted.drop oi).IsChain (fun a b => a.key ≠ b.key)
      then some ((sorted.drop oi).map (single time)) else none := by
  induction fuel generalizing oi with
  | zero => rw [drop_eq_nil_of_le (by omega), if_pos .nil]; rfl
  | succ fuel ih =>
    rw [emitPayload]
    by_cases hend : m.series.length ≤ oi
    · rw [if_pos hend, drop_eq_nil_of_le (by omega), if_pos .nil]
      rfl
    · have here := getElem?_eq_getElem (l := sorted) (i := oi) (by omega)
      have first := drop_eq_getElem_cons (l := sorted) (i := oi) (by omega)
      generalize sorted[oi] = s at here first
      obtain ⟨rounds, hrounds⟩ : ∃ r, m.series.length - oi = r + 1 :=
        ⟨m.series.length - oi - 1, by omega⟩
      rw [if_neg hend, keyAt_of_reads reads here, first, hrounds]
      simp only [isChain_cons, head?_drop, bind_eq_bind, bind_some]
      rw [groupEnd_of_eq reads here rfl]
      by_cases next : ∀ y ∈ sorted[oi + 1]?, s.key ≠ y.key
      · rw [groupEnd_of_ne reads next (by omega), bind_some, Nat.add_sub_cancel_left,
          emitMetricObject_single (by rw [reads, here]), bind_some, ih (by omega)]
        by_cases apart : (sorted.drop (oi + 1)).IsChain fun a b => a.key ≠ b.key
        · rw [if_pos apart, if_pos ⟨next, apart⟩]
          rfl
        · rw [if_neg apart, if_neg fun h => apart h.2]
          rfl
      · rw [if_neg fun h => next h.1]
        obtain ⟨y, there, same⟩ : ∃ y, sorted[oi + 1]? = some y ∧ s.key = y.key := by
          simpa using next
        cases found : groupEnd m order s.key rounds (oi + 1) with
        | none => rfl
        | some stop =>
          have hpos : rounds ≠ 0 := by
            have := (List.getElem?_eq_some_iff.mp there).1
            omega
          obtain ⟨rounds, rfl⟩ := Nat.exists_eq_succ_of_ne_zero hpos
          rw [groupEnd_of_eq reads there same.symm] at found
          have := groupEnd_le found
          rw [bind_some, emitMetricObject_none (by omega)]
          rfl

end Reads

end Groups

def OnePerKey (m : Registry) : Prop := (m.series.map Series.key).Nodup

theorem covers_of_onePerKey {m : Registry} {sorted : List Series} (perm : sorted.Perm m.series)
    (one : OnePerKey m) (time : UInt64) : Covers m time (sorted.map (single time)) := by
  have keys : (sorted.map (single time)).map MetricObject.key = sorted.map Series.key := by
    rw [List.map_map]
    rfl
  refine ⟨?_, ?_, ?_⟩
  · rw [keys]
    exact (perm.map Series.key).nodup_iff.mpr one
  · intro key
    rw [keys]
    exact (perm.map Series.key).mem_iff
  · intro o ho
    obtain ⟨s, hs, rfl⟩ := mem_map.mp ho
    have member := perm.mem_iff.mp hs
    have own : m.series.filter (·.key = s.key) = [s] := by
      have same : ∀ x ∈ m.series, decide (x.key = s.key) = decide (x = s) := fun x hx =>
        decide_eq_decide.mpr ⟨fun h => inj_on_of_nodup_map one hx member h, fun h => h ▸ rfl⟩
      rw [filter_congr same, filter_eq, count_eq_one_of_mem one.of_map member, replicate_one]
    rw [show (single time s).key = s.key from rfl, own]
    exact .refl _

theorem otlp_covers_iff (m : Registry) (time : UInt64) :
    (∃ objects, kithRenderOtlp m time = some objects ∧ Covers m time objects) ↔ OnePerKey m := by
  obtain ⟨order, built, arranges⟩ := buildSeriesOrder_arranges m
  obtain ⟨sorted, perm, reads⟩ := arranges.reordered
  have hfuel : sorted.length ≤ 0 + m.series.length := by
    rw [perm.length_eq]
    omega
  have rendered : kithRenderOtlp m time = emitPayload m time order m.series.length 0 := by
    rw [kithRenderOtlp, built]
    rfl
  rw [rendered, emitPayload_eq reads perm.length_eq hfuel, List.drop_zero]
  constructor
  · rintro ⟨objects, written, covers⟩
    split at written
    · cases written
      have once := covers.once
      rw [List.map_map] at once
      exact (perm.map Series.key).nodup_iff.mp once
    · cases written
  · intro one
    have apart : sorted.IsChain fun a b => a.key ≠ b.key :=
      (List.pairwise_map.mp ((perm.map Series.key).nodup_iff.mpr one)).isChain
    exact ⟨_, if_pos apart, covers_of_onePerKey perm one time⟩

/-- A registry of counters, each under a status code. -/
def countersWith (counters : List (String × String)) : Registry :=
  recorded ⟨[], []⟩ (counters.map fun c => ⟨Control.ascii c.1,
    [⟨some (Control.ascii "code"), some (Control.ascii c.2)⟩], .counterAdd 1, true⟩)

theorem otlp_covers_iff_two_names : let m := countersWith [("requests", "200"), ("errors", "500")]
    m.series.length = 2 ∧ ∃ objects, kithRenderOtlp m 7 = some objects ∧ Covers m 7 objects :=
  ⟨by decide, (otlp_covers_iff _ 7).mpr (by unfold OnePerKey; decide +kernel)⟩

/-- The same counter under two codes is one group of two series. -/
theorem two_codes_not_covered : let m := countersWith [("requests", "200"), ("requests", "500")]
    ¬ ∃ objects, kithRenderOtlp m 7 = some objects ∧ Covers m 7 objects := by
  rintro m ⟨objects, written, _⟩
  have outside : kithRenderOtlp m 7 = none := by decide +kernel
  rw [outside] at written
  cases written

end Kith.Metrics
