import Kith.Sim.Links
import Mathlib.Data.List.Count

/-!
# Rebuilding the member lists of a shard

All lists are released and the artifacts linked again in dense order. The cells
keep everything but their lists. A refused link stops the rebuild with the
artifacts from that one on in no list.
-/

namespace Kith.Sim

open LinearProbe BackPointers Function List

section Freeing

variable {t : CellTable}

theorem freeMembers_spec (valid : t.Valid) :
    t.freeMembers.Valid ∧ ∀ key, t.freeMembers.cell key = (t.cell key).map simCellMembersFree := by
  have marks : ∀ i, (t.freeMembers.nodes i).used = (t.nodes i).used ∧
      (t.freeMembers.nodes i).deleted = (t.nodes i).deleted ∧
      (t.freeMembers.nodes i).key = (t.nodes i).key := by
    intro i
    rw [CellTable.freeMembers]
    dsimp only
    split
    · exact ⟨rfl, rfl, rfl⟩
    · exact ⟨rfl, rfl, rfl⟩
  obtain ⟨freed, holds⟩ := Counted.rewrite valid t.freeMembers.nodes
    (fun i => (marks i).1) (fun i => (marks i).2.1) fun i => (marks i).2.2
  have valid' : t.freeMembers.Valid := freed
  refine ⟨valid', ?_⟩
  intro key
  cases found : t.cell key with
  | none =>
    have absent : simCellLookup t.freeMembers key = none := by
      cases looked : simCellLookup t.freeMembers key with
      | none => rfl
      | some i =>
        have held := (holds key i).mp (valid'.lookup_iff.mp looked)
        rw [valid.cell_of_holds held] at found
        cases found
    exact simCellLookup_eq_none.mp absent
  | some c =>
    obtain ⟨i, _, held, rfl⟩ := valid.exists_holds found
    have live := (live_iff _).mp held.2.1
    rw [valid'.cell_of_holds ((holds key i).mpr held), Option.map_some, CellTable.freeMembers]
    dsimp only
    rw [if_pos ⟨held.1, live⟩]

end Freeing

section Loop

variable {sh sh' : Shard} {i : Nat}

/-- The first `i` artifacts of `sh` are linked, in lists that were empty. -/
structure Rebuilding (sh : Shard) (i : Nat) (sh' : Shard) : Prop where
  cells : sh'.cells.Valid
  buckets : sh'.cells.buckets = sh.cells.buckets
  linked : sh'.Linked (· < i)
  capacity : ∀ key c, sh'.cells.cell key = some c → c.members.length ≤ c.memberCap
  cell : ∀ key, (sh'.cells.cell key).map simCellMembersFree =
    (sh.cells.cell key).map simCellMembersFree
  art : ∀ j, (sh'.arts j).art = (sh.arts j).art
  frame : sh'.artCount = sh.artCount ∧ sh'.artCap = sh.artCap ∧ sh'.actors = sh.actors

theorem Rebuilding.cellAt (rebuilding : Rebuilding sh i sh') : sh'.cellAt = sh.cellAt := by
  funext j
  exact congrArg (fun a : Artifact => a.key.cell) (rebuilding.art j)

theorem Rebuilding.start (valid : sh.cells.Valid) :
    Rebuilding sh 0 { sh with cells := sh.cells.freeMembers } := by
  obtain ⟨freed, cell⟩ := freeMembers_spec valid
  have members : sh.cells.freeMembers.members = fun _ => [] := by
    funext key
    rw [CellTable.members, cell]
    cases sh.cells.cell key with
    | none | some c => rfl
  constructor
  · exact freed
  · rfl
  · intro p j
    simp [listed, members]
  · intro key c found
    rw [cell] at found
    obtain ⟨c, _, rfl⟩ := Option.map_eq_some_iff.mp found
    exact le_rfl
  · intro key
    rw [cell, Option.map_map]
    rfl
  · exact fun _ => rfl
  · exact ⟨rfl, rfl, rfl⟩

theorem Rebuilding.link (rebuilding : Rebuilding sh i sh') {b : Nat} {next : Shard}
    (holds : sh'.cells.Holds (sh.cellAt i) b) (spec : AppendSpec sh' (sh.cellAt i) b i next) :
    Rebuilding sh (i + 1) next := by
  obtain ⟨cap, fits, node⟩ := spec.node
  obtain ⟨artCount, artCap, actors, _⟩ := spec.frame
  obtain ⟨artCount', artCap', actors'⟩ := rebuilding.frame
  have art : ∀ j, (next.arts j).art = (sh.arts j).art := by
    intro j
    rw [← rebuilding.art, spec.arts, update_apply]
    split
    · rename_i same
      rw [same]
    · rfl
  constructor
  · exact spec.cells
  · exact spec.buckets.trans rebuilding.buckets
  · refine Indexed.congr (spec.linked rebuilding.cells holds rebuilding.linked (Nat.lt_irrefl i)
      next.placeAt ?_ ?_) (fun _ => rfl) ?_ fun _ _ => rfl
    · rw [Shard.placeAt, Shard.cellAt, art, spec.arts, update_self,
        members_of_cell (rebuilding.cells.cell_of_holds holds)]
      rfl
    · intro j below
      have other : j ≠ i := by omega
      rw [Shard.placeAt, Shard.cellAt, spec.arts, update_of_ne other]
      rfl
    · intro j
      omega
  · intro key c found
    rw [spec.cell, update_apply] at found
    split at found
    · cases found
      rw [node]
      change ((sh'.cells.nodes b).members ++ [i]).length ≤ cap
      rw [length_append, length_singleton]
      exact fits
    · exact rebuilding.capacity key c found
  · intro key
    rw [← rebuilding.cell, spec.cell, update_apply]
    split
    · rename_i same
      rw [same, rebuilding.cells.cell_of_holds holds, node]
      rfl
    · rfl
  · exact art
  · exact ⟨artCount.trans artCount', artCap.trans artCap', actors.trans actors'⟩

theorem simRebuildFrom_spec {m : Nat} (rebuilding : Rebuilding sh i sh')
    (present : ∀ j < i + m, ∃ c, sh.cells.cell (sh.cellAt j) = some c) (heap : Heap SimSite) :
    ∃ rc next heap', simRebuildFrom sh' heap (range' i m) = (rc, next, heap') ∧
      heap'.grant = heap.grant ∧
      (rc = .ok ∧ Rebuilding sh (i + m) next ∨
        rc = .err .enomem ∧ Refuses heap ∧ ∃ k < i + m, Rebuilding sh k next) := by
  induction m generalizing i sh' heap with
  | zero => exact ⟨_, _, _, rfl, rfl, .inl ⟨rfl, rebuilding⟩⟩
  | succ m ih =>
    obtain ⟨c, found⟩ := present i (by omega)
    have shown := rebuilding.cell (sh.cellAt i)
    rw [found, Option.map_some, Option.map_eq_some_iff] at shown
    obtain ⟨c', found', _⟩ := shown
    obtain ⟨b, looked, holds, rfl⟩ := rebuilding.cells.exists_holds found'
    obtain ⟨rc, next, heap', appended, granted, outcome⟩ := simCellMemberAppend_spec
      sh' rebuilding.cells holds (rebuilding.capacity _ _ found') heap i
    have own : (sh'.arts i).art.key.cell = sh.cellAt i := by
      rw [rebuilding.art]
      rfl
    rw [range'_succ, simRebuildFrom, own, looked]
    dsimp only
    rw [appended]
    rcases outcome with ⟨rfl, rfl, stuck⟩ | ⟨rfl, _, spec⟩
    · exact ⟨_, _, _, rfl, granted,
        .inr ⟨rfl, ⟨.members, heap.calls, stuck.2⟩, i, by omega, rebuilding⟩⟩
    · obtain ⟨rc, last, heap'', run, granted', rest⟩ := ih (rebuilding.link holds spec)
        (fun j below => present j (by omega)) heap'
      refine ⟨rc, last, heap'', run, granted'.trans granted, ?_⟩
      rcases rest with ⟨rfl, all⟩ | ⟨rfl, ⟨site, n, refused⟩, k, below, reached⟩
      · left
        rw [Nat.add_comm m 1, ← Nat.add_assoc]
        exact ⟨rfl, all⟩
      · exact .inr ⟨rfl, ⟨site, n, by rw [← granted]; exact refused⟩, k, by omega, reached⟩

end Loop

section Counts

variable {sh : Shard} {n : Nat}

theorem Shard.Linked.length_members (linked : sh.Linked (· < n)) (key : CellKey) :
    (sh.cells.members key).length = ((range n).map sh.cellAt).count key := by
  rw [(linked.perm_filter key).length_eq, count, countP_map, countP_eq_length_filter]
  rfl

end Counts

end Kith.Sim
