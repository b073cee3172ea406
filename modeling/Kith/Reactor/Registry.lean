import Kith.Lib.Runs
import Kith.Reactor.FdTable
import Mathlib.Data.Set.Card

/-!
# Runs of the registrations

Over any sequence of adds, changes and deletes, with any answers of the backend, the table
is the map that its callers keep in their heads: what was added with success and not deleted
since, with the events of the last successful call.
-/

namespace Kith.Reactor

open LinearProbe Runs

variable {H : Type}

inductive FdOp (H : Type) where
  | add (fd : Int) (events : UInt32) (handler : H)
  | mod (fd : Int) (events : UInt32)
  | del (fd : Int)

def FdOp.call (op : FdOp H) (r : KithReactor H) : Rc × KithReactor H :=
  match op with
  | .add fd events handler => kithReactorAdd r fd events handler
  | .mod fd events => kithReactorMod r fd events
  | .del fd => kithReactorDel r fd

/-- What a caller knows to be registered after a call and its answer. -/
def FdOp.effect (op : FdOp H) (rc : Rc) (known : Int → Option (FdEntry H)) :
    Int → Option (FdEntry H) :=
  match op with
  | .add fd events handler =>
    if rc = .ok then Function.update known fd (some ⟨fd, events, some handler⟩) else known
  | .mod fd events =>
    if rc = .ok then
      Function.update known fd ((known fd).map fun e => { e with events := events })
    else known
  | .del fd => Function.update known fd none

/-- A reactor and what its callers know to be registered. -/
structure FdRun (H : Type) where
  reactor : KithReactor H
  known : Int → Option (FdEntry H)

def FdRun.step (s : FdRun H) (op : FdOp H) : FdRun H :=
  ⟨(op.call s.reactor).2, op.effect (op.call s.reactor).1 s.known⟩

section Counting

variable {r : KithReactor H} {fd : Int}

noncomputable def registered (known : Int → Option (FdEntry H)) : Nat :=
  {fd | known fd ≠ none}.ncard

theorem KithReactor.Valid.registered_eq (valid : r.Valid) :
    registered r.entry = r.fdCount.toNat := by
  have keys : {fd | r.entry fd ≠ none} = ↑(liveKeys (fdLayout H) r.fdCapacity r.fdEntries) := by
    ext fd
    simp only [Set.mem_ofPred_eq, Finset.mem_coe, mem_liveKeys, entry_eq valid]
    constructor
    · intro found
      by_contra nobody
      exact found ((entry_eq_none r.fdCapacity_eq valid.chained).mpr (not_exists.mp nobody))
    · rintro ⟨i, holds⟩ missing
      exact (entry_eq_none r.fdCapacity_eq valid.chained).mp missing i holds
  rw [registered, keys, Set.ncard_coe_finset, card_liveKeys valid.chained, valid.count]

theorem full_of_no_slot (valid : r.Valid) (natural : 0 ≤ fd)
    (absent : reactorFdEntryLookup r fd = none)
    (none_found : fdHashFindSlot r.fdEntries r.fdCapacity fd = none) :
    r.fdCount.toNat = r.fdCapacity := by
  rw [fdHashFindSlot_eq natural absent valid] at none_found
  cases placed : place (fdLayout H) r.fdCapacity r.fdEntries fd.toNat with
  | fresh i reused =>
    rw [placed] at none_found
    cases none_found
  | full tomb =>
    rw [placed] at none_found
    have used := (place_full_iff r.fdCapacity_eq).mp ⟨tomb, placed⟩
    have standing := (place_full_tomb r.fdCapacity_eq placed).1.mp none_found
    rw [valid.count, liveCount, Finset.filter_true_of_mem, Finset.card_range]
    intro i inside
    have within := Finset.mem_range.mp inside
    exact (LinearProbe.live_iff _).mpr ⟨used i within, standing i within⟩

end Counting

section Runs

variable {r : KithReactor H}

/-- A refused add or change leaves the table and the counter as they were. -/
def Undisturbed (r r' : KithReactor H) : Prop :=
  r'.fdEntries = r.fdEntries ∧ r'.fdCount = r.fdCount

theorem refused_undisturbed {op : FdOp H} (refused : (op.call r).1 ≠ .ok)
    (change : ∀ fd, op ≠ .del fd) : Undisturbed r (op.call r).2 := by
  cases op with
  | add fd events handler =>
    simp only [FdOp.call, kithReactorAdd] at refused ⊢
    split
    · exact ⟨rfl, rfl⟩
    · split
      · exact ⟨rfl, rfl⟩
      · split
        · exact ⟨rfl, rfl⟩
        · split
          · exact ⟨rfl, rfl⟩
          · simp_all
  | mod fd events =>
    simp only [FdOp.call, kithReactorMod] at refused ⊢
    split
    · exact ⟨rfl, rfl⟩
    · split
      · exact ⟨rfl, rfl⟩
      · split
        · exact ⟨rfl, rfl⟩
        · simp_all
  | del fd => exact absurd rfl (change fd)

/-- A full answer comes from a full table or from the backend. -/
theorem busy_cases {fd : Int} {events : UInt32} {handler : H} (valid : r.Valid)
    (busy : (kithReactorAdd r fd events handler).1 = .err .ebusy) :
    r.fdCount.toNat = r.fdCapacity ∨ r.backend.ask.1 = .err .ebusy := by
  rw [kithReactorAdd] at busy
  by_cases negative : fd < 0
  · rw [if_pos negative] at busy
    cases busy
  · rw [if_neg negative] at busy
    cases absent : reactorFdEntryLookup r fd with
    | some slot =>
      rw [absent] at busy
      cases busy
    | none =>
      rw [absent] at busy
      cases place : fdHashFindSlot r.fdEntries r.fdCapacity fd with
      | none => exact .inl (full_of_no_slot valid (by omega) absent place)
      | some slot =>
        rw [place] at busy
        rcases ask : r.backend.ask with ⟨rc, backend⟩
        rw [ask] at busy
        cases rc with
        | ok => cases busy
        | err code => exact .inr busy

def FdRun.Sound (s : FdRun H) : Prop := s.reactor.Valid ∧ s.reactor.entry = s.known

theorem FdRun.Sound.step {s : FdRun H} (sound : s.Sound) (op : FdOp H) : (s.step op).Sound := by
  obtain ⟨valid, same⟩ := sound
  rcases answer : op.call s.reactor with ⟨rc, r'⟩
  rw [FdRun.step, answer]
  cases op with
  | add fd events handler =>
    have spec := kithReactorAdd_spec valid fd events handler
    rw [show kithReactorAdd s.reactor fd events handler = (rc, r') from answer] at spec
    refine ⟨spec.valid, ?_⟩
    by_cases ok : rc = .ok
    · rw [FdOp.effect, if_pos ok, (spec.stored ok).2.2, same]
    · rw [FdOp.effect, if_neg ok, spec.refused ok, same]
  | mod fd events =>
    have spec := kithReactorMod_spec valid fd events
    rw [show kithReactorMod s.reactor fd events = (rc, r') from answer] at spec
    refine ⟨spec.valid, ?_⟩
    by_cases ok : rc = .ok
    · obtain ⟨e, found, stored⟩ := spec.stored ok
      rw [FdOp.effect, if_pos ok, stored, ← same, found, Option.map_some]
    · rw [FdOp.effect, if_neg ok, spec.refused ok, same]
  | del fd =>
    have spec := kithReactorDel_spec valid fd
    rw [show kithReactorDel s.reactor fd = (rc, r') from answer] at spec
    exact ⟨spec.1, by rw [FdOp.effect, ← same, spec.2]⟩

/-- What holds of the registrations in every state: the lookup finds what the callers know,
the counter counts it, a refused add or change disturbs nothing, and only a full table or
the backend answers that there is no room. -/
structure FdRun.Faithful (s : FdRun H) : Prop where
  found : ∀ fd, (reactorFdEntryLookup s.reactor fd).map s.reactor.fdEntries = s.known fd
  count : s.reactor.fdCount.toNat = registered s.known
  refused : ∀ op : FdOp H, (op.call s.reactor).1 ≠ .ok → (∀ fd, op ≠ .del fd) →
    Undisturbed s.reactor (op.call s.reactor).2
  busy : ∀ fd events handler, (kithReactorAdd s.reactor fd events handler).1 = .err .ebusy →
    registered s.known = s.reactor.fdCapacity ∨ s.reactor.backend.ask.1 = .err .ebusy

theorem registrations_refine_map {capacityLog : Nat} (small : capacityLog < 32) (backend : Backend)
    {s : FdRun H} (path : Path FdRun.step (fun _ _ => True)
      ⟨reactorAllocFdEntries capacityLog small backend, fun _ => none⟩ s) : s.Faithful := by
  have start :
      FdRun.Sound (H := H) ⟨reactorAllocFdEntries capacityLog small backend, fun _ => none⟩ :=
    ⟨reactorAllocFdEntries_valid small backend,
      funext fun fd => reactorAllocFdEntries_entry small backend fd⟩
  obtain ⟨valid, same⟩ := path.invariant FdRun.Sound (fun _ op sound _ => sound.step op) start
  have count : registered s.known = s.reactor.fdCount.toNat := same ▸ valid.registered_eq
  constructor
  · intro fd
    exact congrFun same fd
  · exact count.symm
  · intro op refused change
    exact refused_undisturbed refused change
  · intro fd events handler busy
    rw [count]
    exact busy_cases valid busy

/-- Descriptors 5 and 7 fill the table; 5 goes and 9 takes its slot. -/
def reused : FdRun Unit :=
  [FdOp.add 5 1 (), .add 7 1 (), .del 5, .add 9 4 ()].foldl FdRun.step
    ⟨reactorAllocFdEntries 1 (by decide) ⟨fun _ => .ok, 0⟩, fun _ => none⟩

theorem registrations_refine_map_reused : reused.Faithful ∧ reused.reactor.fdCount = 2 ∧
    reused.known 5 = none ∧ (reused.known 9).map FdEntry.events = some 4 :=
  ⟨registrations_refine_map (by decide) ⟨fun _ => .ok, 0⟩ (path_foldl _ _), by decide +kernel,
    by decide +kernel, by decide +kernel⟩

/-- A backend that accepts no further registration answers through an empty table. -/
theorem busy_from_backend :
    let r : KithReactor Unit := reactorAllocFdEntries 1 (by decide) ⟨fun _ => .err .ebusy, 0⟩
    (kithReactorAdd r 5 1 ()).1 = .err .ebusy ∧ r.fdCount = 0 ∧ r.fdCapacity = 2 := by
  decide

end Runs

end Kith.Reactor
