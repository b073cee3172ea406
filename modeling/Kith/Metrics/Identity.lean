import Kith.Metrics.Registry
import Mathlib.Data.Multiset.Basic

/-!
# What names a series

Two recordings ought to update one series when they agree in kind, name and the
multiset of their labels. The scan compares the number of labels and looks up
each label of the caller, so it tells multisets apart only where no caller repeats
a label.
-/

namespace Kith.Metrics

open List

structure Identity where
  kind : Kind
  name : List UInt8
  labels : Multiset LabelSlot
  deriving DecidableEq

def Series.identity (s : Series) : Identity := ⟨s.kind, s.name, s.labels⟩

def Recording.identity (r : Recording) : Identity := ⟨r.observed.kind, r.name, validLabels r.labels⟩

def Registry.identities (m : Registry) : List Identity := m.series.map Series.identity

/-- A run of recordings, each with the series it updates. -/
def recordAll (m : Registry) : List Recording → List (Recording × Option Nat) × Registry
  | [] => ([], m)
  | r :: rs =>
    let (updated, m) := record m r
    let (updates, m) := recordAll m rs
    ((r, updated) :: updates, m)

variable {m : Registry} {r : Recording} {rs : List Recording}

theorem seriesMatch_iff (distinct : (validLabels r.labels).Nodup) (s : Series) :
    seriesMatch r s = true ↔ s.identity = r.identity := by
  have labels : labelsMatch s.labels r.labels = true ↔ s.labels.Perm (validLabels r.labels) := by
    rw [labelsMatch, decide_eq_true_iff]
    constructor
    · rintro ⟨size, among⟩
      exact ((subperm_of_subset distinct among).perm_of_length_le size.le).symm
    · intro perm
      exact ⟨perm.length_eq, fun l member => perm.mem_iff.mpr member⟩
  rw [seriesMatch, decide_eq_true_iff, strcmp_eq_zero_iff, labels, ← Multiset.coe_eq_coe,
    Series.identity, Recording.identity, Identity.mk.injEq]

theorem findIdx?_seriesMatch (distinct : (validLabels r.labels).Nodup) (m : Registry) :
    m.series.findIdx? (seriesMatch r) = m.identities.idxOf? r.identity := by
  rw [Registry.identities, idxOf?, findIdx?_map]
  congr 1
  funext s
  rw [Bool.eq_iff_iff, seriesMatch_iff distinct, Function.comp, beq_iff_eq]

theorem identity_observe (o : Observed) (s : Series) : (observe o s).identity = s.identity := by
  cases o <;> rfl

theorem identities_modify (l : List Series) (i : Nat) (o : Observed) :
    (l.modify i (observe o)).map Series.identity = l.map Series.identity := by
  apply ext_getElem?
  intro j
  rw [getElem?_map, getElem?_map, getElem?_modify]
  cases l[j]? with
  | none => rfl
  | some s => split <;> simp [identity_observe]

/-- Recordings updated these series: none was renamed or removed, each recording updated
the first series of its identity, and only one without memory updated none. -/
structure Named (m : Registry) (updates : List (Recording × Option Nat)) (m' : Registry) :
    Prop where
  grown : m.identities <+: m'.identities
  first : ∀ r a, (r, some a) ∈ updates →
    r.identity ∈ m'.identities ∧ m'.identities.idxOf r.identity = a
  lost : ∀ r, (r, none) ∈ updates → r.allocated = false

theorem findOrCreate_named (distinct : (validLabels r.labels).Nodup) {i : Nat} {m' : Registry}
    (found : kithMetricsFindOrCreate m r = some (i, m')) :
    m.identities <+: m'.identities ∧ r.identity ∈ m'.identities ∧
      m'.identities.idxOf r.identity = i := by
  rw [kithMetricsFindOrCreate, findIdx?_seriesMatch distinct] at found
  have place := idxOf_eq_getD_idxOf? r.identity m.identities
  cases searched : m.identities.idxOf? r.identity with
  | some j =>
    rw [searched] at found place
    cases found
    have member : r.identity ∈ m.identities := by
      by_contra missing
      rw [idxOf?_eq_none_iff.mpr missing] at searched
      cases searched
    exact ⟨prefix_refl _, member, place⟩
  | none =>
    rw [searched] at found
    dsimp only at found
    split at found
    · cases found
      have created : (seriesCreate r).identity = r.identity :=
        congrArg _ (Multiset.coe_eq_coe.mpr (perm_insertionSort ..))
      have added : (m.series ++ [seriesCreate r]).map Series.identity =
          m.identities ++ [r.identity] := by
        rw [map_append, map_singleton, created]
        rfl
      rw [Registry.identities, Registry.identities, added,
        idxOf_append_of_notMem (idxOf?_eq_none_iff.mp searched), idxOf_cons_self,
        Registry.identities, length_map]
      exact ⟨prefix_append .., mem_concat_self, rfl⟩
    · cases found

theorem record_named (distinct : (validLabels r.labels).Nodup) (m : Registry) :
    Named m [(r, (record m r).1)] (record m r).2 := by
  rw [record]
  cases found : kithMetricsFindOrCreate m r with
  | none =>
    refine ⟨prefix_refl _, by simp, ?_⟩
    intro r' lost
    cases mem_singleton.mp lost
    rw [kithMetricsFindOrCreate] at found
    grind
  | some created =>
    obtain ⟨i, m'⟩ := created
    obtain ⟨grown, member, place⟩ := findOrCreate_named distinct found
    have same := identities_modify m'.series i r.observed
    refine ⟨(congrArg (m.identities <+: ·) same).mpr grown, ?_, by simp⟩
    intro r' a updated
    cases mem_singleton.mp updated
    rw [Registry.identities, same]
    exact ⟨member, place⟩

theorem recordAll_named (distinct : ∀ r ∈ rs, (validLabels r.labels).Nodup) :
    Named m (recordAll m rs).1 (recordAll m rs).2 := by
  induction rs generalizing m with
  | nil => exact ⟨prefix_refl _, by simp [recordAll], by simp [recordAll]⟩
  | cons r rs ih =>
    obtain ⟨own, others⟩ := forall_mem_cons.mp distinct
    have one := record_named own m
    have rest := ih others (m := (record m r).2)
    refine ⟨one.grown.trans rest.grown, ?_, ?_⟩
    · intro r' a updated
      rcases mem_cons.mp updated with here | later
      · obtain ⟨member, place⟩ := one.first r' a (mem_singleton.mpr here)
        exact ⟨rest.grown.subset member, rest.grown.idxOf_eq_of_mem member ▸ place⟩
      · exact rest.first r' a later
    · intro r' updated
      rcases mem_cons.mp updated with here | later
      · exact one.lost r' (mem_singleton.mpr here)
      · exact rest.lost r' later

/-- A counter without a name whose labels are one-byte texts. -/
def labelled (labels : List (UInt8 × UInt8)) : Recording :=
  ⟨[], labels.map fun l => ⟨some [l.1], some [l.2]⟩, .counterAdd 1, true⟩

end Kith.Metrics
