import Mathlib.Data.List.Sort
import Mathlib.Data.Set.Card

/-!
# Arrival spreads of input ticks

The part of the harness's gap ledger that measures how far apart the clients of an instance
receive one input tick, away from its gap clusters. Times are nanoseconds; the source takes
the margin and gives the percentiles in milliseconds.
-/

namespace Kith.Agent

open List

structure SeriesFrame where
  tsNs : Int
  inputTick : Int
  deriving DecidableEq

structure ClientSeries where
  name : String
  instanceIndex : Int
  frames : List SeriesFrame
  deriving DecidableEq

structure GapClusterRecord where
  instanceIndex : Int
  startNs : Int
  endNs : Int

structure InstanceTickSpread where
  instanceIndex : Int
  ticks : Nat
  median : Option Int
  p95 : Option Int
  deriving DecidableEq

/-- The nearest rank, if there is one. -/
def percentile (ordered : List Int) (pct : Nat) : Option Int :=
  ordered[min (ordered.length - 1) ((pct * ordered.length + 99) / 100 - 1)]?

section Model

variable (series : List ClientSeries) (clusters : List GapClusterRecord) (marginNs index : Int)

def Baseline (frame : SeriesFrame) : Prop :=
  ∀ c ∈ clusters, c.instanceIndex = index →
    ¬ (c.startNs - marginNs ≤ frame.tsNs ∧ frame.tsNs ≤ c.endNs + marginNs)

instance : DecidablePred (Baseline clusters marginNs index) :=
  fun _ => inferInstanceAs (Decidable (∀ c ∈ clusters, _ → ¬ _))

/-- The frames that the two loops over an instance do not skip, with their clients. -/
def baselineFrames : List (ClientSeries × SeriesFrame) :=
  (series.filter (·.instanceIndex = index)).flatMap fun entry =>
    (entry.frames.filter (Baseline clusters marginNs index ·)).map (entry, ·)

/-- The values of the dictionary `arrivals`. -/
def arrivals (visited : List (ClientSeries × SeriesFrame)) (tick : Int) : List Int :=
  (visited.filter (·.2.inputTick = tick)).map (·.2.tsNs)

/-- The keys of `arrivals` that have a spread; their order does not matter. -/
def spreadTicks (visited : List (ClientSeries × SeriesFrame)) : List Int :=
  (visited.map (·.2.inputTick)).dedup.filter fun tick => 2 ≤ (arrivals visited tick).length

def tickArrivalSpreads : List InstanceTickSpread :=
  ((series.map ClientSeries.instanceIndex).dedup.insertionSort (· ≤ ·)).map fun index =>
    let visited := baselineFrames series clusters marginNs index
    let spreads := ((spreadTicks visited).map fun tick =>
      (arrivals visited tick).max?.getD 0 - (arrivals visited tick).min?.getD 0).insertionSort
        (· ≤ ·)
    ⟨index, spreads.length, percentile spreads 50, percentile spreads 95⟩

/-- Two clients of the instance have a frame with the tick away from its clusters. -/
def Shared (tick : Int) : Prop :=
  ∃ a ∈ series, ∃ b ∈ series, a.instanceIndex = index ∧ b.instanceIndex = index ∧ a.name ≠ b.name ∧
    (∃ f ∈ a.frames, f.inputTick = tick ∧ Baseline clusters marginNs index f) ∧
    ∃ f ∈ b.frames, f.inputTick = tick ∧ Baseline clusters marginNs index f

end Model

variable {series : List ClientSeries} {clusters : List GapClusterRecord} {marginNs index tick : Int}

theorem mem_baselineFrames {entry : ClientSeries} {frame : SeriesFrame} :
    (entry, frame) ∈ baselineFrames series clusters marginNs index ↔
      (entry ∈ series ∧ entry.instanceIndex = index) ∧
        frame ∈ entry.frames ∧ Baseline clusters marginNs index frame := by
  simp [baselineFrames]

theorem mem_spreadTicks {visited : List (ClientSeries × SeriesFrame)} :
    tick ∈ spreadTicks visited ↔ 2 ≤ (arrivals visited tick).length := by
  rw [spreadTicks, mem_filter, mem_dedup, decide_eq_true_iff, and_iff_right_of_imp]
  intro two
  rw [arrivals, length_map] at two
  obtain ⟨pair, member⟩ := exists_mem_of_length_pos (Nat.lt_of_lt_of_le Nat.zero_lt_two two)
  have ⟨member, here⟩ := mem_filter.mp member
  exact mem_map.mpr ⟨pair, member, of_decide_eq_true here⟩

theorem Shared.two_le (shared : Shared series clusters marginNs index tick) :
    2 ≤ (arrivals (baselineFrames series clusters marginNs index) tick).length := by
  obtain ⟨a, ha, b, hb, ia, ib, other, ⟨f, hf, tf, outf⟩, g, hg, tg, outg⟩ := shared
  have first : (a, f) ∈ (baselineFrames series clusters marginNs index).filter
      (·.2.inputTick = tick) := by
    simp [mem_filter, mem_baselineFrames, *]
  have second : (b, g) ∈ (baselineFrames series clusters marginNs index).filter
      (·.2.inputTick = tick) := by
    simp [mem_filter, mem_baselineFrames, *]
  rw [arrivals, length_map]
  generalize (baselineFrames series clusters marginNs index).filter _ = l at first second
  rcases l with _ | ⟨x, _ | ⟨y, l⟩⟩
  · cases first
  · obtain rfl := mem_singleton.mp first
    have same := mem_singleton.mp second
    exact absurd (congrArg (·.1.name) same).symm other
  · simp

theorem shared_of_mem {e e' : ClientSeries × SeriesFrame}
    (here : e ∈ baselineFrames series clusters marginNs index)
    (there : e' ∈ baselineFrames series clusters marginNs index) (other : e.1.name ≠ e'.1.name)
    (first : e.2.inputTick = tick) (second : e'.2.inputTick = tick) :
    Shared series clusters marginNs index tick := by
  have ⟨⟨listed, own⟩, frame, out⟩ := mem_baselineFrames.mp here
  have ⟨⟨listed', own'⟩, frame', out'⟩ := mem_baselineFrames.mp there
  exact ⟨e.1, listed, e'.1, listed', own, own', other, ⟨e.2, frame, first, out⟩,
    e'.2, frame', second, out'⟩

/-- A client that gets a tick of its instance in two frames away from the clusters shares it with
another client. -/
def RepeatsShared (series : List ClientSeries) (clusters : List GapClusterRecord) (marginNs : Int) :
    Prop :=
  ∀ index name tick, 2 ≤ (baselineFrames series clusters marginNs index).countP
      (fun e => e.1.name = name ∧ e.2.inputTick = tick) →
    ∃ e ∈ baselineFrames series clusters marginNs index, e.1.name ≠ name ∧ e.2.inputTick = tick

theorem RepeatsShared.shared (repeats : RepeatsShared series clusters marginNs)
    (two : 2 ≤ (arrivals (baselineFrames series clusters marginNs index) tick).length) :
    Shared series clusters marginNs index tick := by
  by_contra alone
  rw [arrivals, length_map, ← countP_eq_length_filter] at two
  obtain ⟨e, here, first⟩ := countP_pos_iff.mp (Nat.lt_of_lt_of_le Nat.zero_lt_two two)
  have one : ∀ e' ∈ baselineFrames series clusters marginNs index, e'.2.inputTick = tick →
      e'.1.name = e.1.name := by
    intro e' there second
    by_contra other
    exact alone (shared_of_mem there here other second (of_decide_eq_true first))
  obtain ⟨e', there, other, second⟩ := repeats index e.1.name tick <| two.trans <|
    countP_mono_left fun e' there second => by
      have second := of_decide_eq_true second
      exact decide_eq_true ⟨one e' there second, second⟩
  exact other (one e' there second)

/-- The ticks with a spread are those that two clients share exactly when no client alone gets a
tick in two frames. -/
theorem spreads_count_clients_iff (series : List ClientSeries) (clusters : List GapClusterRecord)
    (marginNs : Int) :
    (∀ r ∈ tickArrivalSpreads series clusters marginNs,
      (∀ tick, tick ∈ spreadTicks (baselineFrames series clusters marginNs r.instanceIndex) ↔
        Shared series clusters marginNs r.instanceIndex tick) ∧
      r.ticks = {tick | Shared series clusters marginNs r.instanceIndex tick}.ncard) ↔
    RepeatsShared series clusters marginNs := by
  constructor
  · intro counts index name tick two
    have pooled : 2 ≤ (arrivals (baselineFrames series clusters marginNs index) tick).length := by
      rw [arrivals, length_map, ← countP_eq_length_filter]
      refine two.trans (countP_mono_left fun e _ both => ?_)
      exact decide_eq_true (of_decide_eq_true both).2
    have counted := mem_spreadTicks.mpr pooled
    obtain ⟨⟨entry, frame⟩, member, _⟩ :=
      mem_map.mp (mem_dedup.mp (mem_filter.mp counted).1)
    have ⟨⟨listed, own⟩, _⟩ := mem_baselineFrames.mp member
    have record : index ∈ (series.map ClientSeries.instanceIndex).dedup.insertionSort (· ≤ ·) := by
      rw [mem_insertionSort, mem_dedup]
      exact mem_map.mpr ⟨entry, listed, own⟩
    obtain ⟨a, ha, b, hb, ia, ib, other, ⟨f, hf, tf, outf⟩, g, hg, tg, outg⟩ :=
      ((counts _ (mem_map.mpr ⟨index, record, rfl⟩)).1 tick).mp counted
    by_cases same : a.name = name
    · exact ⟨(b, g), mem_baselineFrames.mpr ⟨⟨hb, ib⟩, hg, outg⟩, same ▸ other.symm, tg⟩
    · exact ⟨(a, f), mem_baselineFrames.mpr ⟨⟨ha, ia⟩, hf, outf⟩, same, tf⟩
  · intro repeats r member
    obtain ⟨index, _, rfl⟩ := mem_map.mp member
    have same (tick : Int) : tick ∈ spreadTicks (baselineFrames series clusters marginNs index) ↔
        Shared series clusters marginNs index tick :=
      mem_spreadTicks.trans ⟨repeats.shared, Shared.two_le⟩
    refine ⟨same, ?_⟩
    simp only [length_insertionSort, length_map, ← same]
    have once : (spreadTicks (baselineFrames series clusters marginNs index)).Nodup :=
      (nodup_dedup _).filter _
    rw [← toFinset_card_of_nodup once, ← Set.ncard_coe_finset, coe_toFinset]

/-- One client gets the input tick 7 in two frames. -/
theorem repeated_tick_counted :
    let series : List ClientSeries := [⟨"a", 0, [⟨1, 7⟩, ⟨2, 7⟩]⟩]
    tickArrivalSpreads series [] 150000000 = [⟨0, 1, some 1, some 1⟩] ∧
      ∀ tick, ¬ Shared series [] 150000000 0 tick := by
  refine ⟨by decide, ?_⟩
  rintro tick ⟨a, ha, b, hb, _, _, other, _⟩
  rw [mem_singleton.mp ha, mem_singleton.mp hb] at other
  exact other rfl

end Kith.Agent
