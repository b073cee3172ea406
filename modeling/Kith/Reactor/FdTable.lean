import Kith.Base
import Kith.Lib.LinearProbe

/-!
# The reactor's registrations

An open-addressed table from descriptors to events of interest and callbacks, in
front of a polling backend that can refuse an add or a change. Free slots carry
the descriptor -1 and vacated ones -2. Read through its lookup the table is a
finite map: a refused call leaves it as it was, a second add of a registered
descriptor is refused, and a delete always takes the entry out.
-/

namespace Kith.Reactor

open LinearProbe Function List

def reactorIn : UInt32 := 1
def reactorOut : UInt32 := 2
def reactorHup : UInt32 := 8
def reactorErr : UInt32 := 16

structure Backend where
  answer : Nat → Rc
  asked : Nat

def Backend.ask (backend : Backend) : Rc × Backend :=
  (backend.answer backend.asked, { backend with asked := backend.asked + 1 })

/-- `kith_fd_entry`; `handler` is the callback with its context. -/
structure FdEntry (H : Type) where
  fd : Int
  events : UInt32
  handler : Option H
  deriving DecidableEq

/-- `kith_reactor`; the capacity is a power of two from its creation on. -/
structure KithReactor (H : Type) where
  fdEntries : Nat → FdEntry H
  capacityLog : Nat
  capacityLog_lt : capacityLog < 32
  fdCount : UInt32
  backend : Backend

variable {H : Type} (r : KithReactor H)

def KithReactor.fdCapacity : Nat := 2 ^ r.capacityLog

theorem KithReactor.fdCapacity_eq : r.fdCapacity = 2 ^ r.capacityLog := rfl

def fdLayout (H : Type) : Layout (FdEntry H) Int where
  used e := e.fd != -1
  deleted e := e.fd == -2
  key e := e.fd

/-- The probe of an insert, over the remaining probe numbers; `removed` is the
first vacated slot passed. `none` is the capacity, returned when every slot is
taken. -/
def fdHashFindSlotFrom (entries : Nat → FdEntry H) (capacity : Nat) (fd : Int) :
    Option Nat → List Nat → Option Nat
  | removed, [] => removed
  | removed, p :: ps =>
    let slot := bucket capacity fd.toNat p
    if (entries slot).fd = fd then some slot
    else if (entries slot).fd = -1 then some (removed.getD slot)
    else if (entries slot).fd = -2 ∧ removed = none then
      fdHashFindSlotFrom entries capacity fd (some slot) ps
    else fdHashFindSlotFrom entries capacity fd removed ps

def fdHashFindSlot (entries : Nat → FdEntry H) (capacity : Nat) (fd : Int) : Option Nat :=
  fdHashFindSlotFrom entries capacity fd none (List.range capacity)

def reactorFdEntryLookup (fd : Int) : Option Nat :=
  if fd < 0 ∨ r.fdCount = 0 then none
  else lookup (fdLayout H) r.fdCapacity r.fdEntries fd.toNat fd

def kithReactorAdd (fd : Int) (events : UInt32) (handler : H) : Rc × KithReactor H :=
  if fd < 0 then (.err .einval, r)
  else
    match reactorFdEntryLookup r fd with
    | some _ => (.err .eexist, r)
    | none =>
      match fdHashFindSlot r.fdEntries r.fdCapacity fd with
      | none => (.err .ebusy, r)
      | some slot =>
        match r.backend.ask with
        | (.err code, backend) => (.err code, { r with backend := backend })
        | (.ok, backend) =>
          (.ok, { r with
            fdEntries := Function.update r.fdEntries slot ⟨fd, events, some handler⟩
            fdCount := r.fdCount + 1
            backend := backend })

def kithReactorMod (fd : Int) (events : UInt32) : Rc × KithReactor H :=
  if fd < 0 then (.err .einval, r)
  else
    match reactorFdEntryLookup r fd with
    | none => (.err .enoent, r)
    | some slot =>
      match r.backend.ask with
      | (.err code, backend) => (.err code, { r with backend := backend })
      | (.ok, backend) =>
        (.ok, { r with
          fdEntries := Function.update r.fdEntries slot
            ⟨(r.fdEntries slot).fd, events, (r.fdEntries slot).handler⟩
          backend := backend })

/-- The entry is vacated before the backend is asked. -/
def kithReactorDel (fd : Int) : Rc × KithReactor H :=
  if fd < 0 then (.err .einval, r)
  else
    match reactorFdEntryLookup r fd with
    | none => (.err .enoent, r)
    | some slot =>
      let (rc, backend) := r.backend.ask
      (rc, { r with
        fdEntries := Function.update r.fdEntries slot ⟨-2, 0, none⟩
        fdCount := r.fdCount - 1
        backend := backend })

/-- The table `reactor_alloc_fd_entries` sets up. -/
def reactorAllocFdEntries (capacityLog : Nat) (small : capacityLog < 32) (backend : Backend) :
    KithReactor H :=
  ⟨fun _ => ⟨-1, 0, none⟩, capacityLog, small, 0, backend⟩

/-- What `run_dispatch_cb` calls for a ready descriptor. -/
def runDispatch (fd : Int) : Option H :=
  (reactorFdEntryLookup r fd).bind fun slot => (r.fdEntries slot).handler

section Specification

variable {r : KithReactor H} {fd : Int} {events : UInt32} {handler : H} {e : FdEntry H}
    {capacityLog slot : Nat}

structure KithReactor.Valid (r : KithReactor H) : Prop where
  chained : Chained (fdLayout H) r.fdCapacity r.fdEntries Int.toNat
  natural : ∀ fd i, Holds (fdLayout H) r.fdCapacity r.fdEntries fd i → 0 ≤ fd
  count : r.fdCount.toNat = liveCount (fdLayout H) r.fdCapacity r.fdEntries

def KithReactor.entry (r : KithReactor H) (fd : Int) : Option (FdEntry H) :=
  (reactorFdEntryLookup r fd).map r.fdEntries

theorem live_of_natural (natural : 0 ≤ e.fd) : (fdLayout H).live e = true := by
  simp [Layout.live, fdLayout]
  omega

/-- The early exits of the lookup agree with the probe. -/
theorem lookup_eq (valid : r.Valid) (fd : Int) :
    reactorFdEntryLookup r fd = lookup (fdLayout H) r.fdCapacity r.fdEntries fd.toNat fd := by
  rw [reactorFdEntryLookup]
  split
  · rename_i early
    symm
    rw [lookup_eq_none_iff r.fdCapacity_eq valid.chained]
    intro i holds
    rcases early with negative | empty
    · have := valid.natural fd i holds
      omega
    · have none_live : liveCount (fdLayout H) r.fdCapacity r.fdEntries = 0 := by
        rw [← valid.count, empty]
        rfl
      rw [liveCount, Finset.card_eq_zero, Finset.filter_eq_empty_iff] at none_live
      exact none_live (Finset.mem_range.mpr holds.1) holds.2.1
  · rfl

theorem entry_eq (valid : r.Valid) :
    r.entry = LinearProbe.entry (fdLayout H) r.fdCapacity r.fdEntries Int.toNat := by
  funext fd
  rw [KithReactor.entry, lookup_eq valid]
  rfl

theorem runDispatch_eq (r : KithReactor H) (fd : Int) :
    runDispatch r fd = (r.entry fd).bind FdEntry.handler := by
  rw [runDispatch, KithReactor.entry, Option.bind_map]
  rfl

theorem reactorAllocFdEntries_valid (small : capacityLog < 32) (backend : Backend) :
    (reactorAllocFdEntries (H := H) capacityLog small backend).Valid := by
  have blank : ∀ i < 2 ^ capacityLog, (fdLayout H).used ⟨-1, 0, none⟩ = false := fun _ _ => rfl
  refine ⟨chained_empty blank, fun fd i holds => ?_, (liveCount_empty blank).symm⟩
  exact absurd holds.2.1 Bool.false_ne_true

theorem reactorAllocFdEntries_entry (small : capacityLog < 32) (backend : Backend) (fd : Int) :
    (reactorAllocFdEntries (H := H) capacityLog small backend).entry fd = none := by
  rw [KithReactor.entry, reactorFdEntryLookup, if_pos (.inr rfl), Option.map_none]

theorem fdHashFindSlotFrom_eq {entries : Nat → FdEntry H} {n : Nat} {ps : List Nat}
    {removed : Option Nat} (absent : ∀ p ∈ ps, (entries (bucket n fd.toNat p)).fd ≠ fd) :
    fdHashFindSlotFrom entries n fd removed ps =
      match placeFrom (fdLayout H) n entries fd.toNat removed ps with
      | .fresh slot _ => some slot
      | .full tomb => tomb := by
  induction ps generalizing removed with
  | nil => rfl
  | cons p ps ih =>
    have here := absent p mem_cons_self
    have later := fun q hq => absent q (mem_cons_of_mem p hq)
    rw [fdHashFindSlotFrom, placeFrom]
    simp only [here, if_false]
    by_cases free : (entries (bucket n fd.toNat p)).fd = -1
    · simp [fdLayout, free]
    · by_cases vacated : (entries (bucket n fd.toNat p)).fd = -2
      · cases removed with
        | none | some t => simp [fdLayout, vacated, ih later]
      · simp [fdLayout, free, vacated, ih later]

/-- For a descriptor that is not registered the insert takes the place a table offers. -/
theorem fdHashFindSlot_eq (natural : 0 ≤ fd) (absent : reactorFdEntryLookup r fd = none)
    (valid : r.Valid) : fdHashFindSlot r.fdEntries r.fdCapacity fd =
      match place (fdLayout H) r.fdCapacity r.fdEntries fd.toNat with
      | .fresh i _ => some i
      | .full tomb => tomb := by
  rw [lookup_eq valid, lookup_eq_none_iff r.fdCapacity_eq valid.chained] at absent
  have other : ∀ p ∈ range r.fdCapacity,
      (r.fdEntries (bucket r.fdCapacity fd.toNat p)).fd ≠ fd := by
    intro p _ same
    exact absent _ ⟨r.fdCapacity_eq ▸ bucket_lt .., live_of_natural (by omega), same⟩
  rw [fdHashFindSlot, fdHashFindSlotFrom_eq other, place]

theorem fdHashFindSlot_open (natural : 0 ≤ fd) (absent : reactorFdEntryLookup r fd = none)
    (valid : r.Valid) (found : fdHashFindSlot r.fdEntries r.fdCapacity fd = some slot) :
    Open (fdLayout H) r.fdCapacity r.fdEntries fd.toNat slot := by
  rw [fdHashFindSlot_eq natural absent valid] at found
  cases placed : place (fdLayout H) r.fdCapacity r.fdEntries fd.toNat with
  | fresh i reused =>
    rw [placed, Option.some.injEq] at found
    exact found ▸ (place_fresh placed).1
  | full tomb =>
    rw [placed] at found
    have all_used := (place_full_iff r.fdCapacity_eq).mp ⟨tomb, placed⟩
    obtain ⟨within, _, vacated⟩ := (place_full_tomb r.fdCapacity_eq placed).2 slot found
    obtain ⟨p, hp, at_slot⟩ := bucket_surj (b := r.capacityLog) (h := fd.toNat) within
    refine ⟨by simp [Layout.live, vacated], p, hp, at_slot, fun q _ => all_used _ ?_⟩
    exact bucket_lt ..

variable (valid : r.Valid)
include valid

theorem holds_of_lookup (found : reactorFdEntryLookup r fd = some slot) :
    Holds (fdLayout H) r.fdCapacity r.fdEntries fd slot := by
  rw [lookup_eq valid] at found
  exact (lookup_eq_some_iff r.fdCapacity_eq valid.chained fd slot).mp found

theorem KithReactor.Valid.write (count : UInt32) (backend : Backend) (within : slot < r.fdCapacity)
    (chained : Chained (fdLayout H) r.fdCapacity (update r.fdEntries slot e) Int.toNat)
    (natural : (fdLayout H).live e = true → 0 ≤ e.fd)
    (counted : count.toNat + ((fdLayout H).live (r.fdEntries slot)).toNat =
      r.fdCount.toNat + ((fdLayout H).live e).toNat) :
    KithReactor.Valid { r with
      fdEntries := update r.fdEntries slot e
      fdCount := count
      backend := backend } where
  chained := chained
  natural fd i holds := by
    rcases holds_update.mp holds with ⟨_, _, live, key⟩ | ⟨_, held⟩
    · exact key ▸ natural live
    · exact valid.natural fd i held
  count := by
    have update := liveCount_update (fdLayout H) r.fdEntries within e
    have before := valid.count
    change count.toNat = liveCount (fdLayout H) r.fdCapacity (Function.update r.fdEntries slot e)
    omega

structure AddSpec (r : KithReactor H) (fd : Int) (events : UInt32) (handler : H) (rc : Rc)
    (r' : KithReactor H) : Prop where
  valid : r'.Valid
  stored : rc = .ok → 0 ≤ fd ∧ r.entry fd = none ∧
    r'.entry = Function.update r.entry fd (some ⟨fd, events, some handler⟩)
  refused : rc ≠ .ok → r'.entry = r.entry
  registered : 0 ≤ fd → r.entry fd ≠ none → rc = .err .eexist

theorem kithReactorAdd_spec (fd : Int) (events : UInt32) (handler : H) :
    AddSpec r fd events handler (kithReactorAdd r fd events handler).1
      (kithReactorAdd r fd events handler).2 := by
  rw [kithReactorAdd]
  by_cases negative : fd < 0
  · rw [if_pos negative]
    exact ⟨valid, by simp, fun _ => rfl, fun natural => absurd natural (by omega)⟩
  rw [if_neg negative]
  have natural : 0 ≤ fd := by omega
  cases found : reactorFdEntryLookup r fd with
  | some _ => exact ⟨valid, by simp, fun _ => rfl, fun _ _ => rfl⟩
  | none =>
    have absent : r.entry fd = none := by rw [KithReactor.entry, found, Option.map_none]
    have free : ∀ rc : Rc, 0 ≤ fd → r.entry fd ≠ none → rc = .err .eexist :=
      fun _ _ taken => absurd absent taken
    cases place : fdHashFindSlot r.fdEntries r.fdCapacity fd with
    | none => exact ⟨valid, by simp, fun _ => rfl, free _⟩
    | some slot =>
      rcases ask : r.backend.ask with ⟨_ | code, backend⟩
      · have opened := fdHashFindSlot_open natural found valid place
        have live : (fdLayout H).live ⟨fd, events, some handler⟩ = true := live_of_natural natural
        obtain ⟨chained, stored⟩ := entry_store r.fdCapacity_eq valid.chained
          (by rw [← entry_eq valid]; exact absent) opened live rfl
        have within := open_lt r.fdCapacity_eq opened
        have room : r.fdCount.toNat < 2 ^ 32 - 1 := by
          have below :=
            Nat.pow_le_pow_right (n := 2) (by omega) (Nat.le_of_lt_succ r.capacityLog_lt)
          have most : liveCount (fdLayout H) r.fdCapacity r.fdEntries ≤ r.fdCapacity := liveCount_le
          rw [← valid.count, r.fdCapacity_eq] at most
          omega
        have valid' := valid.write (r.fdCount + 1) backend within chained (fun _ => natural)
          (by rw [opened.1, live, UInt32.toNat_add, Nat.mod_eq_of_lt (by simp; omega)]; rfl)
        refine ⟨valid', fun _ => ⟨natural, absent, ?_⟩, by simp, free _⟩
        rw [entry_eq valid', entry_eq valid]
        exact stored
      · exact ⟨{ valid with }, by simp, fun _ => rfl, free _⟩

/-- What a change of the events of interest does to the registrations. -/
structure ModSpec (r : KithReactor H) (fd : Int) (events : UInt32) (rc : Rc)
    (r' : KithReactor H) : Prop where
  valid : r'.Valid
  stored : rc = .ok → ∃ e, r.entry fd = some e ∧
    r'.entry = Function.update r.entry fd (some { e with events := events })
  refused : rc ≠ .ok → r'.entry = r.entry

theorem kithReactorMod_spec (fd : Int) (events : UInt32) :
    ModSpec r fd events (kithReactorMod r fd events).1 (kithReactorMod r fd events).2 := by
  rw [kithReactorMod]
  by_cases negative : fd < 0
  · rw [if_pos negative]
    exact ⟨valid, by simp, fun _ => rfl⟩
  rw [if_neg negative]
  cases found : reactorFdEntryLookup r fd with
  | none => exact ⟨valid, by simp, fun _ => rfl⟩
  | some slot =>
    rcases ask : r.backend.ask with ⟨_ | code, backend⟩
    · have holds := holds_of_lookup valid found
      obtain ⟨chained, stored⟩ := entry_modify r.fdCapacity_eq valid.chained holds
        (c := ⟨(r.fdEntries slot).fd, events, (r.fdEntries slot).handler⟩) holds.2.1 holds.2.2
      have natural := valid.natural _ slot ⟨holds.1, holds.2.1, rfl⟩
      have valid' := valid.write r.fdCount backend holds.1 chained (fun _ => natural) rfl
      refine ⟨valid', fun _ => ⟨r.fdEntries slot, ?_, ?_⟩, by simp⟩
      · rw [KithReactor.entry, found, Option.map_some]
      · rw [entry_eq valid', entry_eq valid]
        exact stored
    · exact ⟨{ valid with }, by simp, fun _ => rfl⟩

/-- A delete takes the registration out whatever the backend answers. -/
theorem kithReactorDel_spec (fd : Int) : (kithReactorDel r fd).2.Valid ∧
      (kithReactorDel r fd).2.entry = update r.entry fd none := by
  have unchanged : reactorFdEntryLookup r fd = none →
      r.entry = update r.entry fd none := by
    intro found
    rw [eq_comm, update_eq_self_iff, KithReactor.entry, found, Option.map_none]
  rw [kithReactorDel]
  by_cases negative : fd < 0
  · rw [if_pos negative]
    exact ⟨valid, unchanged (if_pos (.inl negative))⟩
  rw [if_neg negative]
  cases found : reactorFdEntryLookup r fd with
  | none => exact ⟨valid, unchanged found⟩
  | some slot =>
    have holds := holds_of_lookup valid found
    obtain ⟨chained, buried⟩ := entry_bury r.fdCapacity_eq valid.chained holds
      (c := ⟨-2, 0, none⟩) rfl rfl
    have live : (fdLayout H).live ⟨-2, 0, none⟩ = false := rfl
    have some_live : 0 < r.fdCount.toNat := by
      rw [valid.count]
      exact Finset.card_pos.mpr ⟨slot, Finset.mem_filter.mpr
        ⟨Finset.mem_range.mpr holds.1, holds.2.1⟩⟩
    have valid' := valid.write (r.fdCount - 1) r.backend.ask.2 holds.1 chained
      (fun h => by rw [live] at h; cases h) (by
        rw [holds.2.1, live, UInt32.toNat_sub_of_le _ _ (by
          rw [UInt32.le_iff_toNat_le]; exact some_live)]
        change r.fdCount.toNat - 1 + 1 = r.fdCount.toNat + 0
        omega)
    refine ⟨valid', ?_⟩
    rw [entry_eq valid', entry_eq valid]
    exact buried

end Specification

end Kith.Reactor
