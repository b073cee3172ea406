import Kith.Sim.Tables
import Kith.Lib.BackPointers

/-!
# The cross-linked structures of a sim shard

A valid shard has exact hashes, and two pairs of inverse directions: the actor hash
against the dense array, and the member lists of the cells against the slots the
artifacts record. Linking, unlinking and the dense moves are the operations of
tables with back pointers.
-/

namespace Kith.Sim

open LinearProbe BackPointers SwapRemove Function Option

section Views

/-- The member list of a cell, empty for a cell that is not there. -/
def CellTable.members (t : CellTable) (key : CellKey) : List Nat :=
  ((t.cell key).map CellNode.members).getD []

variable (sh : Shard)

def Shard.actorAt (i : Nat) : UInt64 := (sh.arts i).art.actorId

def Shard.cellAt (i : Nat) : CellKey := (sh.arts i).art.key.cell

def Shard.placeAt (i : Nat) : CellKey × Nat := (sh.cellAt i, (sh.arts i).memberSlot)

/-- The dense entries in `S` are the members of their cells. -/
def Shard.Linked (S : Nat → Prop) : Prop :=
  Indexed (listed sh.cells.members) S sh.placeAt

/-- A cell counts its members, and its list has room for them. -/
structure CellNode.Counted (c : CellNode) : Prop where
  actorCount : c.actorCount.toNat = c.members.length
  capacity : c.members.length ≤ c.memberCap

structure Shard.Valid (sh : Shard) : Prop where
  tables : sh.Tables sh.artCount
  actors : Indexed sh.actors.dense (· < sh.artCount) sh.actorAt
  members : sh.Linked (· < sh.artCount)
  counted : ∀ key c, sh.cells.cell key = some c → c.Counted

def Shard.latest (id : UInt64) : Option Artifact :=
  (sh.actors.dense id).map fun i => (sh.arts i).art

variable {t t' : CellTable} {key : CellKey} {c : CellNode} {o : Option CellNode}

theorem members_of_cell (found : t.cell key = some c) : t.members key = c.members := by
  rw [CellTable.members, found]
  rfl

theorem members_of_none (missing : t.cell key = none) : t.members key = [] := by
  rw [CellTable.members, missing]
  rfl

theorem members_update (written : t'.cell = update t.cell key o) :
    t'.members = update t.members key ((o.map CellNode.members).getD []) := by
  funext k
  rw [CellTable.members, written, update_apply, update_apply]
  split
  · rfl
  · rfl

theorem members_rewrite (written : t'.cell = update t.cell key (some c))
    (list : c.members = t.members key) : t'.members = t.members := by
  rw [members_update written, map_some, getD_some, list]
  exact update_eq_self ..

theorem members_findOrCreate {i : Nat} (spec : FindOrCreateSpec t key i t') :
    t'.members = t.members := by
  apply members_rewrite spec.cell
  cases found : t.cell key with
  | none => exact (members_of_none found).symm
  | some c => exact (members_of_cell found).symm

theorem counted_update (counted : ∀ k c, t.cell k = some c → c.Counted)
    (written : t'.cell = update t.cell key o) (own : ∀ c, o = some c → c.Counted) :
    ∀ k c, t'.cell k = some c → c.Counted := by
  intro k c found
  rw [written, update_apply] at found
  split at found
  · exact own c found
  · exact counted k c found

end Views

section Contents

variable {sh sh' : Shard} {id : UInt64} {i : Nat} {key : CellKey} {c : CellNode} {a : Artifact}

theorem members_congr {t t' : CellTable} (same : t'.cell = t.cell) : t'.members = t.members := by
  funext key
  rw [CellTable.members, same]
  rfl

theorem Shard.Valid.dense_iff (valid : sh.Valid) :
    sh.actors.dense id = some i ↔ i < sh.artCount ∧ (sh.arts i).art.actorId = id :=
  valid.actors id i

theorem Shard.Valid.latest_iff (valid : sh.Valid) :
    sh.latest id = some a ↔ ∃ i < sh.artCount, (sh.arts i).art = a ∧ a.actorId = id := by
  rw [Shard.latest, map_eq_some_iff]
  constructor
  · rintro ⟨i, found, rfl⟩
    obtain ⟨inside, actor⟩ := valid.dense_iff.mp found
    exact ⟨i, inside, rfl, actor⟩
  · rintro ⟨i, inside, rfl, actor⟩
    exact ⟨i, valid.dense_iff.mpr ⟨inside, actor⟩, rfl⟩

theorem Shard.Valid.mem_members (valid : sh.Valid) :
    i ∈ sh.cells.members key ↔ i < sh.artCount ∧ sh.cellAt i = key :=
  valid.members.mem_iff

theorem Shard.Linked.exists_cell {S : Nat → Prop} (linked : sh.Linked S) (member : S i) :
    ∃ c, sh.cells.cell (sh.cellAt i) = some c := by
  cases found : sh.cells.cell (sh.cellAt i) with
  | some c => exact ⟨c, rfl⟩
  | none =>
    have listed := linked.mem_iff.mpr ⟨member, rfl⟩
    rw [show (sh.placeAt i).1 = sh.cellAt i from rfl, members_of_none found] at listed
    cases listed

theorem Shard.Linked.relist {S S' : Nat → Prop} (linked : sh.Linked S)
    (lists : sh'.cells.members = sh.cells.members) (elements : ∀ i, S' i ↔ S i)
    (places : ∀ i, S i → sh'.placeAt i = sh.placeAt i) : sh'.Linked S' :=
  linked.congr (fun p => congrFun (congrArg listed lists) p) elements places

theorem Shard.Valid.exists_cell (valid : sh.Valid) (inside : i < sh.artCount) :
    ∃ c, sh.cells.cell (sh.cellAt i) = some c :=
  valid.members.exists_cell inside

theorem Shard.Regrown.valid (valid : sh.Valid) (same : sh.Regrown sh') : sh'.Valid := by
  have actorAt : ∀ i < sh.artCount, sh'.actorAt i = sh.actorAt i := by
    intro i inside
    rw [Shard.actorAt, same.arts i inside]
    rfl
  have placeAt : ∀ i < sh.artCount, sh'.placeAt i = sh.placeAt i := by
    intro i inside
    rw [Shard.placeAt, Shard.cellAt, same.arts i inside]
    rfl
  constructor
  · rw [same.artCount]
    exact same.tables
  · rw [same.artCount, same.dense]
    exact valid.actors.congr (fun _ => rfl) (fun _ => Iff.rfl) actorAt
  · rw [same.artCount]
    exact valid.members.relist (members_congr same.cell) (fun _ => Iff.rfl) placeAt
  · rw [same.cell]
    exact valid.counted

theorem Shard.Regrown.latest (valid : sh.Valid) (same : sh.Regrown sh') :
    sh'.latest = sh.latest := by
  funext id
  rw [Shard.latest, same.dense, Shard.latest]
  cases found : sh.actors.dense id with
  | none => rfl
  | some i =>
    have inside := (valid.dense_iff.mp found).1
    rw [map_some, map_some, same.arts i inside]

end Contents

section Appending

variable {sh : Shard} {heap : Heap SimSite} {key : CellKey} {i idx : Nat} {sh' : Shard}

/-- The cell with one member more, in a list of the given capacity. -/
def CellNode.push (c : CellNode) (idx cap : Nat) : CellNode :=
  { c with members := c.members ++ [idx], memberCap := cap }

/-- The member list is full and the next request for a longer one is refused. -/
def CellNode.Stuck (c : CellNode) (heap : Heap SimSite) : Prop :=
  c.memberCap ≤ c.members.length ∧ heap.grant .members heap.calls = false

instance (c : CellNode) (heap : Heap SimSite) : Decidable (c.Stuck heap) :=
  inferInstanceAs (Decidable (_ ∧ _))

/-- A member is appended to the cell in bucket `i`. -/
structure AppendSpec (sh : Shard) (key : CellKey) (i idx : Nat) (sh' : Shard) : Prop where
  cells : sh'.cells.Valid
  buckets : sh'.cells.buckets = sh.cells.buckets
  kept : ∀ k j, sh.cells.Holds k j → sh'.cells.Holds k j
  node : ∃ cap, (sh.cells.nodes i).members.length < cap ∧
    sh'.cells.nodes i = (sh.cells.nodes i).push idx cap
  cell : sh'.cells.cell = update sh.cells.cell key (some (sh'.cells.nodes i))
  others : ∀ j, j ≠ i → sh'.cells.nodes j = sh.cells.nodes j
  arts : sh'.arts = update sh.arts idx
    { sh.arts idx with memberSlot := (sh.cells.nodes i).members.length }
  frame : sh'.artCount = sh.artCount ∧ sh'.artCap = sh.artCap ∧ sh'.actors = sh.actors ∧
    sh'.cells.count = sh.cells.count ∧ sh'.cells.tombstones = sh.cells.tombstones

theorem appended (valid : sh.cells.Valid) (holds : sh.cells.Holds key i) (idx : Nat) {cap : Nat}
    (fits : (sh.cells.nodes i).members.length < cap) :
    AppendSpec sh key i idx ((sh.setCell i ((sh.cells.nodes i).push idx cap)).setSlot idx
      (sh.cells.nodes i).members.length) := by
  obtain ⟨after, written, kept⟩ :=
    valid.set (c := (sh.cells.nodes i).push idx cap) holds holds.2.1 holds.2.2
  have node : (sh.cells.set i ((sh.cells.nodes i).push idx cap)).nodes i =
      (sh.cells.nodes i).push idx cap := update_self ..
  constructor
  · exact after
  · rfl
  · exact kept
  · exact ⟨cap, fits, node⟩
  · exact written.trans (congrArg (fun c => update sh.cells.cell key (some c)) node.symm)
  · intro j other
    exact update_of_ne other ..
  · rfl
  · exact ⟨rfl, rfl, rfl, rfl, rfl⟩

theorem simCellMemberAppend_spec (sh : Shard) (valid : sh.cells.Valid)
    (holds : sh.cells.Holds key i)
    (capacity : (sh.cells.nodes i).members.length ≤ (sh.cells.nodes i).memberCap)
    (heap : Heap SimSite) (idx : Nat) :
    ∃ rc sh' heap', simCellMemberAppend sh heap i idx = (rc, sh', heap') ∧
      heap'.grant = heap.grant ∧
      (rc = .err .enomem ∧ sh' = sh ∧ (sh.cells.nodes i).Stuck heap ∨
        rc = .ok ∧ ¬ (sh.cells.nodes i).Stuck heap ∧ AppendSpec sh key i idx sh') := by
  rw [simCellMemberAppend]
  split
  · rename_i full
    cases granted : heap.grant .members heap.calls with
    | false =>
      rw [Heap.request, granted]
      exact ⟨_, _, _, rfl, rfl, .inl ⟨rfl, rfl, full, granted⟩⟩
    | true =>
      have free : ¬ (sh.cells.nodes i).Stuck heap := by
        rintro ⟨_, refused⟩
        rw [granted] at refused
        cases refused
      rw [Heap.request, granted]
      refine ⟨_, _, _, rfl, rfl, .inr ⟨rfl, free, appended valid holds idx ?_⟩⟩
      split <;> omega
  · rename_i space
    have free : ¬ (sh.cells.nodes i).Stuck heap := fun stuck => space stuck.1
    exact ⟨_, _, _, rfl, rfl, .inr ⟨rfl, free, appended valid holds idx (by omega)⟩⟩

variable (spec : AppendSpec sh key i idx sh') (valid : sh.cells.Valid)
    (holds : sh.cells.Holds key i)
include spec valid holds

theorem AppendSpec.members :
    sh'.cells.members =
      update sh.cells.members key (sh.cells.members key ++ [idx]) := by
  obtain ⟨cap, _, node⟩ := spec.node
  rw [members_update spec.cell, map_some, getD_some, node,
    members_of_cell (valid.cell_of_holds holds)]
  rfl

theorem AppendSpec.linked {S : Nat → Prop} (linked : sh.Linked S) (new : ¬ S idx)
    (place : Nat → CellKey × Nat) (own : place idx = (key, (sh.cells.members key).length))
    (others : ∀ j, S j → place j = sh.placeAt j) :
    Indexed (listed sh'.cells.members) (fun j => j = idx ∨ S j) place := by
  rw [spec.members valid holds]
  refine (linked.push key new).congr (fun _ => rfl) (fun _ => Iff.rfl) ?_
  intro j member
  rw [update_apply]
  split
  · rename_i same
    rw [same, own]
  · rename_i other
    exact others j (member.resolve_left other)

end Appending

section Unlinking

variable {sh : Shard} {S : Nat → Prop} {key : CellKey} {i idx : Nat}

def CellNode.unlink (c : CellNode) (slot : Nat) : CellNode :=
  { c with members := swapRemove c.members slot }

/-- A member is unlinked from the cell in bucket `i`. -/
structure UnlinkSpec (sh : Shard) (key : CellKey) (i idx : Nat) (S : Nat → Prop) (sh' : Shard) :
    Prop where
  cells : sh'.cells.Valid
  buckets : sh'.cells.buckets = sh.cells.buckets
  kept : ∀ k j, sh.cells.Holds k j → sh'.cells.Holds k j
  node : sh'.cells.nodes i = (sh.cells.nodes i).unlink (sh.arts idx).memberSlot
  cell : sh'.cells.cell = update sh.cells.cell key (some (sh'.cells.nodes i))
  linked : sh'.Linked fun j => S j ∧ j ≠ idx
  art : ∀ j, (sh'.arts j).art = (sh.arts j).art
  frame : sh'.artCount = sh.artCount ∧ sh'.artCap = sh.artCap ∧ sh'.actors = sh.actors ∧
    sh'.cells.count = sh.cells.count ∧ sh'.cells.tombstones = sh.cells.tombstones

theorem placed_member (valid : sh.cells.Valid) (holds : sh.cells.Holds key i)
    (linked : sh.Linked S) (member : S idx) (here : sh.cellAt idx = key) :
    (sh.cells.nodes i).members[(sh.arts idx).memberSlot]? = some idx := by
  have placed := linked.at_place member
  rw [Shard.placeAt, here] at placed
  rw [← members_of_cell (valid.cell_of_holds holds)]
  exact placed

theorem simCellMemberUnlink_eq {moved : Nat}
    (found : (sh.cells.nodes i).members[(sh.arts idx).memberSlot]? = some idx)
    (last : (sh.cells.nodes i).members.getLast? = some moved) :
    ∃ arts, simCellMemberUnlink sh i idx =
        { sh.setCell i ((sh.cells.nodes i).unlink (sh.arts idx).memberSlot) with arts := arts } ∧
      (∀ j, (arts j).art = (sh.arts j).art) ∧
      ∀ j, j ≠ idx → (arts j).memberSlot =
        if j = moved then (sh.arts idx).memberSlot else (sh.arts j).memberSlot := by
  rw [simCellMemberUnlink, found, last]
  dsimp only
  rw [if_neg (by simp)]
  split
  · refine ⟨_, rfl, ?_, ?_⟩
    · intro j
      by_cases same : j = moved
      · subst same
        simp only [Shard.setCell, update_self]
      · simp only [Shard.setCell, update_of_ne same]
    · intro j _
      simp only [Shard.setCell, update_apply]
      split
      · rfl
      · rfl
  · rename_i final
    have final : (sh.arts idx).memberSlot = (sh.cells.nodes i).members.length - 1 := by
      simpa using final
    have same : idx = moved := by
      rw [final, ← List.getLast?_eq_getElem?, last] at found
      exact (some.inj found).symm
    refine ⟨_, rfl, fun _ => rfl, ?_⟩
    intro j other
    rw [if_neg (same ▸ other)]

theorem simCellMemberUnlink_spec (valid : sh.cells.Valid) (holds : sh.cells.Holds key i)
    (linked : sh.Linked S) (member : S idx) (here : sh.cellAt idx = key) :
    UnlinkSpec sh key i idx S (simCellMemberUnlink sh i idx) := by
  have list := members_of_cell (valid.cell_of_holds holds)
  have found := placed_member valid holds linked member here
  have inside := (List.getElem?_eq_some_iff.mp found).1
  obtain ⟨moved, last⟩ : ∃ moved, (sh.cells.nodes i).members.getLast? = some moved :=
    ⟨_, List.getLast?_eq_some_getLast (List.ne_nil_of_length_pos (by omega))⟩
  obtain ⟨arts, unlinked, art, slots⟩ := simCellMemberUnlink_eq found last
  obtain ⟨after, written, kept⟩ := valid.set
    (c := (sh.cells.nodes i).unlink (sh.arts idx).memberSlot) holds holds.2.1 holds.2.2
  have node : (sh.cells.set i ((sh.cells.nodes i).unlink (sh.arts idx).memberSlot)).nodes i =
      (sh.cells.nodes i).unlink (sh.arts idx).memberSlot := update_self ..
  rw [unlinked]
  constructor
  · exact after
  · rfl
  · exact kept
  · exact node
  · exact written.trans (congrArg (fun c => update sh.cells.cell key (some c)) node.symm)
  · rw [← list] at found last
    have ending := last
    rw [List.getLast?_eq_getElem?] at ending
    have moved_here : sh.cellAt moved = key :=
      congrArg Prod.fst ((linked (key, _) moved).mp ending).2
    have members : (sh.cells.set i ((sh.cells.nodes i).unlink (sh.arts idx).memberSlot)).members =
        update sh.cells.members key
          (swapRemove (sh.cells.members key) (sh.arts idx).memberSlot) := by
      rw [members_update written, map_some, getD_some, list]
      rfl
    change Indexed (listed (sh.cells.set i _).members) _ _
    rw [members]
    refine (linked.unlink found last).congr (fun _ => rfl) (fun _ => Iff.rfl) ?_
    rintro j ⟨_, other⟩
    rw [update_apply, Shard.placeAt, Shard.cellAt]
    rw [art, slots j other]
    split
    · rename_i same
      rw [same]
      exact congrArg (fun k => (k, _)) moved_here
    · rfl
  · exact art
  · exact ⟨rfl, rfl, rfl, rfl, rfl⟩

end Unlinking

section Dropping

variable {t : CellTable} {key : CellKey} {i slot : Nat} {c : CellNode}

/-- A cell that has lost a member from its list is dropped: its count follows, the lists
stay, and an empty cell leaves the table. -/
theorem simCellDrop_unlinked (valid : t.Valid) (holds : t.Holds key i)
    (node : t.nodes i = c.unlink slot) (counted : c.Counted) :
    let t' := simCellDrop t i
    t'.Valid ∧ t'.members = t.members ∧
      (∃ o, t'.cell = update t.cell key o ∧ ∀ c', o = some c' → c'.Counted) ∧
      t'.buckets = t.buckets ∧ ∀ k j, k ≠ key → t.Holds k j → t'.Holds k j := by
  obtain ⟨after, written, buckets, kept⟩ := simCellDrop_spec valid holds
  have count : (t.nodes i).actorCount.toNat = c.members.length := by
    rw [node]
    exact counted.actorCount
  have length : (t.nodes i).members.length = c.members.length - 1 := by
    rw [node]
    exact length_swapRemove ..
  have capacity : (t.nodes i).memberCap = c.memberCap := by
    rw [node]
    rfl
  have list := members_of_cell (valid.cell_of_holds holds)
  have bound := counted.capacity
  refine ⟨after, ?_, ⟨_, written, ?_⟩, buckets, kept⟩
  · rw [members_update written]
    split
    · have empty : t.members key = [] := by
        rw [list, ← List.length_eq_zero_iff]
        omega
      rw [map_none, getD_none, ← empty, update_eq_self]
    · rw [map_some, getD_some, ← list, update_eq_self]
  · intro c' left
    split at left
    · cases left
    · cases left
      have least : (1 : UInt32) ≤ (t.nodes i).actorCount := by
        rw [UInt32.le_iff_toNat_le]
        change 1 ≤ _
        omega
      refine ⟨?_, ?_⟩
      · rw [UInt32.toNat_sub_of_le _ _ least, length, count]
        rfl
      · dsimp only
        omega

end Dropping

end Kith.Sim
