import Mathlib.Logic.Relation
import Kith.Control.Callbacks
import Kith.Reactor.Owners

/-!
# Responses that a socket does not take at once

A connection is registered for IN when it is accepted. A response that cannot be
written out asks for IN and OUT with a second add, which the reactor refuses, so
in every run the registration of an open connection stays at IN. A connection
left in WRITING with bytes to send then waits for an event that nothing asks for;
while no write is told to wait, no connection is left in that state. What a step can
do to the slots, the registrations and the tasks is taken apart into moves, which
the results about runs go through.
-/

namespace Kith.Control

open Kith.Reactor Function List

section Runs

variable (parse : Nat → List UInt8 → Parsed)

/-- What can happen between two states of the control plane: a descriptor is
ready, a worker finishes a route task, the reactor runs the next queued flush,
the stream timer fires, an event is published. -/
inductive ControlOp where
  | ready (fd : Int) (events : UInt32) (out : Outside)
  | worker (slot : Nat) (finalizing : Bool) (resp : Response) (posted : Bool)
  | flush
  | sseFlush
  | publish (event : EventRecord)

variable (s : KithControl)

def KithControl.step : ControlOp → KithControl
  | .ready fd events out =>
    match runDispatch s.reactor fd with
    | some .listener => handleAccept s out.accepts
    | some (.conn slot) => controlConnEventHandler parse s slot events out
    | _ => s
  | .worker slot finalizing resp posted =>
    if slot ∈ s.jobs then
      controlRouteWorkerTask { s with jobs := s.jobs.erase slot } slot finalizing resp posted
    else s
  | .flush =>
    match s.tasks with
    | [] => s
    | slot :: tasks => controlConnFlushTask { s with tasks := tasks } slot
  | .sseFlush => controlSseFlush s
  | .publish event => { s with eventBus := (controlEventBusPublish s.eventBus event).2 }

def ControlConn.openFd (c : ControlConn) : Option Int :=
  if c.inUse = true ∧ 0 ≤ c.fd then some c.fd else none

/-- A descriptor that is neither registered nor the socket of a connection. -/
def Unused (fd : Int) : Prop :=
  s.reactor.entry fd = none ∧ ∀ i, (s.conns i).openFd ≠ some fd

/-- The kernel hands out descriptors that are not in use. -/
def FreshAccepts : List Accepted → KithControl → Prop
  | [], _ => True
  | a :: accepts, s => Unused s a.fd ∧ FreshAccepts accepts (acceptConn s a)

def ControlOp.Fresh : ControlOp → Prop
  | .ready fd _ out => runDispatch s.reactor fd = some .listener → FreshAccepts out.accepts s
  | _ => True

structure Started (s : KithControl) : Prop where
  valid : s.reactor.Valid
  blank : ∀ i, s.conns i = .zero
  foreign : ∀ fd e i, s.reactor.entry fd = some e → e.handler ≠ some (.conn i)

inductive Reaches (start : KithControl) : KithControl → Prop where
  | start : Reaches start start
  | step {s : KithControl} (op : ControlOp) (reached : Reaches start s) (fresh : op.Fresh s) :
      Reaches start (s.step parse op)

def Stalled (c : ControlConn) : Prop :=
  c.inUse = true ∧ 0 ≤ c.fd ∧ c.state = .writing ∧ c.writePos < c.resp.len

/-- Every such connection is registered for OUT. -/
def Draining : Prop :=
  ∀ i, Stalled (s.conns i) →
    ∃ e, s.reactor.entry (s.conns i).fd = some e ∧ e.events &&& reactorOut ≠ 0

end Runs

section Arming

variable {s t : KithControl} {slot : Nat} {c : ControlConn} {fd : Int}

theorem openFd_eq_some : c.openFd = some fd ↔ c.inUse = true ∧ 0 ≤ fd ∧ c.fd = fd := by
  rw [ControlConn.openFd]
  split
  · rename_i h
    simp only [Option.some.injEq]
    exact ⟨fun same => ⟨h.1, same ▸ h.2, same⟩, fun h => h.2.2⟩
  · rename_i h
    simp only [reduceCtorEq, false_iff]
    exact fun ⟨inUse, natural, same⟩ => h ⟨inUse, same ▸ natural⟩

theorem openFd_eq_none (shut : c.inUse = false ∨ c.fd < 0) : c.openFd = none := by
  rw [ControlConn.openFd, if_neg]
  rintro ⟨inUse, natural⟩
  rcases shut with unused | negative
  · rw [unused] at inUse
    cases inUse
  · omega

/-- A slot and the registrations: IN and nothing else for an open connection, or
none at all if its add was refused, and then it never sees an event. -/
def SlotArmed (entry : Int → Option (FdEntry Handler)) (slot : Nat) (c : ControlConn) : Prop :=
  ∀ fd, c.openFd = some fd → entry fd = some ⟨fd, reactorIn, some (.conn slot)⟩ ∨
    entry fd = none ∧ c.state = .reading ∧ c.sseSubscribed = false

structure Armed (s : KithControl) : Prop where
  valid : s.reactor.Valid
  kept : ∀ i, WellKept (s.conns i)
  slots : ∀ i, SlotArmed s.reactor.entry i (s.conns i)
  owned : Owned .conn s.reactor.entry fun i => (s.conns i).openFd

variable {entry : Int → Option (FdEntry Handler)}

theorem SlotArmed.update (armed : SlotArmed entry slot c)
    (apart : c.openFd ≠ some fd) (v : Option (FdEntry Handler)) :
    SlotArmed (update entry fd v) slot c := by
  intro f own
  have hf : f ≠ fd := by
    rintro rfl
    exact apart own
  rw [update_of_ne hf]
  exact armed f own

theorem SlotArmed.closed (closed : c.openFd = none) : SlotArmed entry slot c := by
  intro fd own
  rw [closed] at own
  cases own

theorem Started.armed (started : Started s) : Armed s where
  valid := started.valid
  kept i := started.blank i ▸ .zero
  slots i := by
    rw [started.blank]
    exact .closed rfl
  owned := by
    have closed : (fun i => (s.conns i).openFd) = fun _ => none := by
      funext i
      rw [started.blank]
      rfl
    rw [closed]
    exact .start started.foreign

theorem Armed.listed (armed : Armed s) (inUse : (s.conns slot).inUse = true)
    (active : (s.conns slot).state ≠ .reading ∨ (s.conns slot).sseSubscribed = true ∨
      s.reactor.entry (s.conns slot).fd ≠ none) : Listed slot s := by
  refine ⟨armed.valid, inUse, fun natural => ?_⟩
  rcases armed.slots slot _ (openFd_eq_some.mpr ⟨inUse, natural, rfl⟩) with
    entry | ⟨none_there, reading, unsubscribed⟩
  · simp [entry]
  · simp [none_there, reading, unsubscribed] at active

theorem Armed.replace (armed : Armed s) (others : ∀ j, j ≠ slot → t.conns j = s.conns j)
    (valid : t.reactor.Valid) (kept : WellKept (t.conns slot))
    (here : SlotArmed t.reactor.entry slot (t.conns slot))
    (away : ∀ i, i ≠ slot → SlotArmed t.reactor.entry i (s.conns i))
    (owned : Owned .conn t.reactor.entry
      (update (fun i => (s.conns i).openFd) slot (t.conns slot).openFd)) : Armed t := by
  have all : (fun i => (t.conns i).openFd) =
      update (fun i => (s.conns i).openFd) slot (t.conns slot).openFd := by
    funext i
    by_cases h : i = slot
    · rw [h, update_self]
    · rw [update_of_ne h, others i h]
  refine ⟨valid, fun i => ?_, fun i => ?_, all ▸ owned⟩
  · by_cases h : i = slot
    · exact h ▸ kept
    · exact others i h ▸ armed.kept i
  · by_cases h : i = slot
    · exact h ▸ here
    · exact others i h ▸ away i h

theorem Armed.keep (armed : Armed s) (others : ∀ j, j ≠ slot → t.conns j = s.conns j)
    (valid : t.reactor.Valid) (kept : WellKept (t.conns slot))
    (entry : t.reactor.entry = s.reactor.entry)
    (same : (t.conns slot).openFd = (s.conns slot).openFd)
    (here : SlotArmed s.reactor.entry slot (t.conns slot)) : Armed t := by
  refine armed.replace others valid kept (entry ▸ here) (fun i _ => entry ▸ armed.slots i) ?_
  have unchanged := update_eq_self slot fun i => (s.conns i).openFd
  rw [same, entry, unchanged]
  exact armed.owned

theorem Armed.tended (armed : Armed s) (listed : Listed slot s) (tended : Tended slot s t) :
    Armed t := by
  obtain ⟨valid, fate⟩ := tended.fate listed
  rcases fate with ⟨entry, fd, inUse⟩ | ⟨entry, natural, shut⟩ | ⟨entry, shut, free⟩
  · have same : (t.conns slot).openFd = (s.conns slot).openFd := by
      rw [ControlConn.openFd, ControlConn.openFd, fd, inUse]
    refine armed.keep tended.others valid tended.kept entry same fun f own => .inl ?_
    rw [same] at own
    obtain ⟨_, natural, rfl⟩ := openFd_eq_some.mp own
    exact (armed.slots slot _ own).resolve_right fun idle => listed.entry natural idle.1
  · have own := openFd_eq_some.mpr ⟨listed.inUse, natural, rfl⟩
    have closed := openFd_eq_none (.inr shut)
    refine armed.replace tended.others valid tended.kept (.closed closed) (fun i h => ?_) ?_
    · rw [entry]
      exact (armed.slots i).update (fun other => armed.owned.apart own other h rfl) none
    · rw [entry, closed]
      exact armed.owned.close own
  · have closed := openFd_eq_none (.inl free)
    exact armed.keep tended.others valid tended.kept entry
      (closed.trans (openFd_eq_none (.inr shut)).symm) (.closed closed)

/-- A free slot is taken by an accepted connection, or stays free. -/
structure Filled (slot : Nat) (c : ControlConn) (s s' : KithControl) : Prop where
  free : (s.conns slot).inUse = false
  kept : WellKept c
  reading : c.state = .reading
  plain : c.sseSubscribed = false
  conns : s'.conns = update s.conns slot c
  jobs : s'.jobs = s.jobs
  tasks : s'.tasks = s.tasks
  bufferCap : s'.writeBufferCap = s.writeBufferCap
  answer : s'.socket.answer = s.socket.answer
  bus : s'.eventBus = s.eventBus
  count : s.connCount ≤ s'.connCount
  within : c.inUse = true → slot < s'.connCount ∧ c.writeCap = s.writeBufferCap

theorem Filled.others (fill : Filled slot c s t) (j : Nat) (h : j ≠ slot) :
    t.conns j = s.conns j := by rw [fill.conns, update_of_ne h]

theorem Filled.here (fill : Filled slot c s t) : t.conns slot = c := by
  rw [fill.conns, update_self]

/-- An accepted connection asks for IN; one that is turned away leaves no trace. -/
inductive Joined (fd : Int) (slot : Nat) (c : ControlConn) (s s' : KithControl) : Prop where
  | away (unused : c.inUse = false) (reactor : s'.reactor = s.reactor)
  | opened (own : c.openFd = some fd)
      (reactor : s'.reactor = (kithReactorAdd s.reactor fd reactorIn (.conn slot)).2)

theorem Armed.filled (armed : Armed s) (fill : Filled slot c s t) (joined : Joined fd slot c s t)
    (unused : Unused s fd) : Armed t := by
  have free := openFd_eq_none (.inl fill.free)
  have kept := fill.here.symm ▸ fill.kept
  cases joined with
  | away refused reactor =>
    have closed : (t.conns slot).openFd = none := openFd_eq_none (.inl (fill.here.symm ▸ refused))
    exact armed.keep fill.others (reactor ▸ armed.valid) kept (by rw [reactor])
      (closed.trans free.symm) (.closed closed)
  | opened own reactor =>
    have spec := kithReactorAdd_spec armed.valid fd reactorIn (.conn slot)
    rw [← reactor] at spec
    have assigned := armed.owned.assign free unused.2
    -- The add stored the entry, or was refused and changed nothing.
    by_cases ok : (kithReactorAdd s.reactor fd reactorIn (.conn slot)).1 = .ok
    · have entry := (spec.stored ok).2.2
      refine armed.replace fill.others spec.valid kept (fun f hf => .inl ?_) (fun i _ => ?_) ?_
      · rw [fill.here, own] at hf
        cases hf
        rw [entry, update_self]
      · rw [entry]
        exact (armed.slots i).update (unused.2 i) _
      · rw [entry, fill.here, own]
        refine assigned.write fun i named => ?_
        cases named
        rw [update_self]
    · have entry := spec.refused ok
      refine armed.replace fill.others spec.valid kept (fun f hf => .inr ?_)
        (fun i _ => entry ▸ armed.slots i) ?_
      · rw [fill.here, own] at hf
        cases hf
        rw [entry, fill.here]
        exact ⟨unused.1, fill.reading, fill.plain⟩
      · rw [entry, fill.here, own]
        exact assigned

theorem allocBuffers_spec (readCap writeCap : Nat) (heap : Heap ControlSite) {ok : Bool}
    {heap' : Heap ControlSite} (allocated : allocBuffers readCap writeCap heap = (ok, c, heap')) :
    c.inUse = ok ∧ c.buffers = ok ∧ c.state = .reading ∧ c.sseSubscribed = false ∧
      (ok = true → c.writeCap = writeCap) := by
  simp only [allocBuffers] at allocated
  split at allocated
  · cases allocated
    exact ⟨rfl, rfl, rfl, rfl, fun granted => by cases granted⟩
  · split at allocated
    · cases allocated
      exact ⟨rfl, rfl, rfl, rfl, fun granted => by cases granted⟩
    · split at allocated
      all_goals
        cases allocated
        exact ⟨rfl, rfl, rfl, rfl, fun _ => rfl⟩

theorem acceptConn_spec (s : KithControl) (a : Accepted) :
    acceptConn s a = s ∨ ∃ slot c, Filled slot c s (acceptConn s a) ∧
      Joined a.fd slot c s (acceptConn s a) := by
  rw [acceptConn, controlConnAlloc]
  cases found : (range s.maxConnections).find? fun i => !(s.conns i).inUse with
  | none => exact .inl rfl
  | some slot =>
    have free : (s.conns slot).inUse = false := by simpa using find?_some found
    rcases allocated : allocBuffers s.readBufferCap s.writeBufferCap s.heap with ⟨_ | _, c, heap⟩
    · obtain ⟨inUse, held, reading, plain, _⟩ := allocBuffers_spec _ _ _ allocated
      refine .inr
        ⟨slot, c, ⟨free, .of_free held inUse plain (by simp [reading]), reading, plain, rfl,
        rfl, rfl, rfl, rfl, rfl, le_rfl, by simp [inUse]⟩, .away inUse rfl⟩
    · obtain ⟨inUse, held, reading, plain, cap⟩ := allocBuffers_spec _ _ _ allocated
      have count : s.connCount ≤ (if s.connCount ≤ slot then slot + 1 else s.connCount) ∧
          slot < (if s.connCount ≤ slot then slot + 1 else s.connCount) := by
        split <;> omega
      simp only [KithControl.setConn, update_self, update_idem]
      split
      · exact .inr ⟨slot, c.release, ⟨free, .of_free rfl rfl plain
          (by simp [ControlConn.release, reading]), reading, plain, rfl, rfl, rfl, rfl, rfl, rfl,
          count.1, fun _ => ⟨count.2, cap rfl⟩⟩, .away rfl rfl⟩
      · simp only [connRegister, update_self]
        exact .inr ⟨slot, { c with fd := a.fd, state := .reading }, ⟨free,
          .of_open held inUse (Int.natCast_nonneg _) (no_stream plain), rfl, plain, rfl, rfl, rfl,
          rfl, rfl, rfl, count.1, fun _ => ⟨count.2, cap rfl⟩⟩,
          .opened (openFd_eq_some.mpr ⟨inUse, Int.natCast_nonneg _, rfl⟩) rfl⟩

end Arming

section Moves

open Relation (ReflTransGen)

variable {parse : Nat → List UInt8 → Parsed} {s t : KithControl} {slot : Nat}
  {returns : Nat → Bool → Prop}

/-- One thing that can happen to the slots and their tasks. `returns slot posted`
says which handlers return, and whether their flush is posted. -/
inductive Move (returns : Nat → Bool → Prop) (s s' : KithControl) : Prop where
  | quiet (conns : s'.conns = s.conns) (reactor : s'.reactor = s.reactor) (jobs : s'.jobs = s.jobs)
      (tasks : s'.tasks.Sublist s.tasks)
      (stale : ∀ i ∈ s.tasks, i ∈ s'.tasks ∨ (s.conns i).state ≠ .dispatching)
      (setting : Setting s s')
  | turned (slot : Nat) (listed : Listed slot s) (unserved : Unserved slot s)
      (turn : Turn slot s s')
  | shut (slot : Nat) (listed : Listed slot s) (tended : Tended slot s s')
      (serving : (s.conns slot).state = .dispatching)
      (same : SameUse (s.conns slot) (s'.conns slot)) (jobs : s'.jobs = s.jobs)
  | filled (slot : Nat) (c : ControlConn) (fd : Int) (unused : Unused s fd)
      (fill : Filled slot c s s') (joined : Joined fd slot c s s')
  | returned (slot : Nat) (posted : Bool) (resp : Response) (member : slot ∈ s.jobs)
      (returning : returns slot posted)
      (conns : s'.conns = update s.conns slot { s.conns slot with resp := resp })
      (reactor : s'.reactor = s.reactor) (jobs : s'.jobs = s.jobs.erase slot)
      (tasks : s'.tasks = if posted then s.tasks ++ [slot] else s.tasks) (setting : Setting s s')
  | flushed (slot : Nat) (rest : List Nat) (next : s.tasks = slot :: rest) (listed : Listed slot s)
      (left : Finished slot { s with tasks := rest } s')

/-- The handler that an operation lets return, and whether its flush is posted. -/
def ControlOp.Returns : ControlOp → Nat → Bool → Prop
  | .worker slot finalizing _ posted, i, b => i = slot ∧ b = (!finalizing && posted)
  | _, _, _ => False

theorem Move.still (conns : t.conns = s.conns) (reactor : t.reactor = s.reactor)
    (jobs : t.jobs = s.jobs) (tasks : t.tasks = s.tasks) (setting : Setting s t) :
    Move returns s t :=
  .quiet conns reactor jobs (tasks ▸ .refl _) (fun _ member => .inl (tasks ▸ member)) setting

theorem Armed.move (armed : Armed s) (move : Move returns s t) : Armed t := by
  cases move with
  | quiet conns reactor =>
    exact ⟨reactor ▸ armed.valid, conns ▸ armed.kept, conns ▸ reactor ▸ armed.slots,
      conns ▸ reactor ▸ armed.owned⟩
  | turned slot listed _ turn => exact armed.tended listed turn.tended
  | shut slot listed tended => exact armed.tended listed tended
  | filled slot c fd unused fill joined => exact armed.filled fill joined unused
  | returned slot _ resp _ _ conns reactor =>
    have here : t.conns slot = { s.conns slot with resp := resp } := by
      rw [conns, update_self]
    have others : ∀ j, j ≠ slot → t.conns j = s.conns j := fun j h => by
      rw [conns, update_of_ne h]
    refine armed.keep others (reactor ▸ armed.valid) ?_ (by rw [reactor]) (by rw [here]; rfl) ?_
    · rw [here]
      exact { armed.kept slot with }
    · rw [here]
      exact armed.slots slot
  | flushed slot rest next listed left =>
    have popped : Armed { s with tasks := rest } := { armed with }
    exact popped.tended { listed with } left.toTended

theorem Move.settled (move : Move returns s t) :
    t.socket.answer = s.socket.answer ∧ (Unblocked s.socket.answer →
      (∀ i, Settled (s.conns i)) → ∀ i, Settled (t.conns i)) := by
  have one : ∀ {slot}, (∀ j, j ≠ slot → t.conns j = s.conns j) → (∀ i, Settled (s.conns i)) →
      Settled (t.conns slot) → ∀ i, Settled (t.conns i) := by
    intro slot others all here i
    by_cases h : i = slot
    · exact h ▸ here
    · exact others i h ▸ all i
  cases move with
  | quiet conns _ _ _ _ setting => exact ⟨setting.answer, fun _ all => conns ▸ all⟩
  | turned slot _ _ turn =>
    exact ⟨turn.tended.frame.answer, fun unblocked all =>
      one turn.tended.others all (turn.rested.settled unblocked (all slot))⟩
  | shut slot _ tended serving same =>
    obtain ⟨fd, same⟩ := same
    refine ⟨tended.frame.answer, fun _ all => one tended.others all (.inr ?_)⟩
    simp [same, serving]
  | filled slot c _ _ fill =>
    refine ⟨fill.answer, fun _ all => one fill.others all (.inr ?_)⟩
    simp [fill.here, fill.reading]
  | returned slot _ resp _ _ conns _ _ _ setting =>
    have others : ∀ j, j ≠ slot → t.conns j = s.conns j := fun j h => by
      rw [conns, update_of_ne h]
    refine ⟨setting.answer, fun _ all => one others all ?_⟩
    rw [conns, update_self]
    exact all slot
  | flushed slot rest _ _ left =>
    exact ⟨left.frame.answer, fun unblocked all =>
      one left.others all (left.settled unblocked (all slot))⟩

theorem handleAccept_moves {accepts : List Accepted} (fresh : FreshAccepts accepts s) :
    ReflTransGen (Move returns) s (handleAccept s accepts) := by
  induction accepts generalizing s with
  | nil => exact .refl
  | cons a accepts ih =>
    refine .trans ?_ (ih fresh.2)
    rcases acceptConn_spec s a with same | ⟨slot, c, fill, joined⟩
    · rw [same]
    · exact .single (.filled slot c a.fd fresh.1 fill joined)

section

variable (armed : Armed s) {fd : Int}
include armed

theorem Armed.dispatch_open (found : runDispatch s.reactor fd = some (.conn slot)) :
    (s.conns slot).inUse = true ∧ 0 ≤ (s.conns slot).fd ∧ Listed slot s := by
  rw [runDispatch_eq, Option.bind_eq_some_iff] at found
  obtain ⟨e, entry, handler⟩ := found
  obtain ⟨inUse, natural, at_fd⟩ := openFd_eq_some.mp (armed.owned.entries fd e slot entry handler)
  exact ⟨inUse, at_fd ▸ natural, armed.listed inUse (.inr (.inr (by simp [at_fd, entry])))⟩

theorem ready_move (found : runDispatch s.reactor fd = some (.conn slot)) (events : UInt32)
    (out : Outside) : Move returns s (controlConnEventHandler parse s slot events out) := by
  obtain ⟨inUse, natural, listed⟩ := armed.dispatch_open found
  have kept := armed.kept slot
  by_cases serving : (s.conns slot).state = .dispatching
  · obtain ⟨tended, jobs, same⟩ :=
      controlConnEventHandler_serving parse kept natural serving events out
    exact .shut slot listed tended serving same jobs
  · have unserved := kept.unserved inUse natural serving
    exact .turned slot listed unserved (controlConnEventHandler_turn unserved events out)

theorem sseFlushConn_move (slot : Nat) : Move returns s (sseFlushConn s slot) := by
  rcases sseFlushConn_cases (armed.kept slot) with same | ⟨subscribed, unserved, left⟩
  · rw [same]
    exact .still rfl rfl rfl rfl ⟨rfl, rfl, rfl⟩
  · exact .turned slot (armed.listed unserved.inUse (.inr (.inl subscribed))) unserved (.tidy left)

theorem controlSseFlush_moves : ReflTransGen (Move returns) s (controlSseFlush s) := by
  have flushed : ∀ (slots : List Nat) {s : KithControl}, Armed s →
      ReflTransGen (Move returns) s (slots.foldl sseFlushConn s) := by
    intro slots
    induction slots with
    | nil => exact fun _ => .refl
    | cons slot slots ih =>
      intro s armed
      have first : Move returns s (sseFlushConn s slot) := sseFlushConn_move armed slot
      exact .head first (ih (armed.move first))
  exact (flushed (range s.connCount) armed).tail (.still rfl rfl rfl rfl ⟨rfl, rfl, rfl⟩)

/-- Everything a step can do to the slots and their tasks. -/
theorem step_moves {op : ControlOp} (fresh : op.Fresh s) :
    ReflTransGen (Move op.Returns) s (s.step parse op) := by
  cases op with
  | ready fd events out =>
    simp only [KithControl.step]
    split
    · rename_i found
      exact handleAccept_moves (fresh found)
    · rename_i slot found
      exact .single (ready_move armed found events out)
    · exact .refl
  | worker slot finalizing resp posted =>
    simp only [KithControl.step]
    split
    · rename_i member
      refine .single ?_
      simp only [controlRouteWorkerTask]
      split
      · rename_i final
        refine .returned slot false (s.conns slot).resp member ⟨rfl, by simp [final]⟩ ?_ rfl rfl rfl
          ⟨rfl, rfl, rfl⟩
        exact (update_eq_self ..).symm
      · rename_i running
        split
        · rename_i sent
          exact .returned slot true resp member ⟨rfl, by simp [running, sent]⟩ rfl rfl rfl rfl
            ⟨rfl, rfl, rfl⟩
        · rename_i refused
          exact .returned slot false resp member ⟨rfl, by simp [refused]⟩ rfl rfl rfl rfl
            ⟨rfl, rfl, rfl⟩
    · exact .refl
  | flush =>
    simp only [KithControl.step]
    split
    · exact .refl
    · rename_i slot rest next
      by_cases serving : (s.conns slot).state = .dispatching
      · have kept := armed.kept slot
        refine .single (.flushed slot rest next
          (armed.listed (kept.serving serving) (.inl (by simp [serving]))) ?_)
        exact controlConnFlushTask_finished kept serving
      · -- a flush that came too late
        have skipped :
            controlConnFlushTask { s with tasks := rest } slot = { s with tasks := rest } :=
          if_pos serving
        rw [skipped]
        refine .single (.quiet rfl rfl rfl (next ▸ sublist_cons_self ..) (fun i member => ?_)
          ⟨rfl, rfl, rfl⟩)
        rcases mem_cons.mp (next ▸ member) with same | later
        · exact .inr (same ▸ serving)
        · exact .inl later
  | sseFlush => exact controlSseFlush_moves armed
  | publish event => exact .single (.still rfl rfl rfl rfl ⟨rfl, rfl, rfl⟩)

theorem Armed.moves (moves : ReflTransGen (Move returns) s t) : Armed t := by
  induction moves with
  | refl => exact armed
  | tail _ last ih => exact ih.move last

end

theorem moves_settled (moves : ReflTransGen (Move returns) s t) :
    t.socket.answer = s.socket.answer ∧ (Unblocked s.socket.answer →
      (∀ i, Settled (s.conns i)) → ∀ i, Settled (t.conns i)) := by
  induction moves with
  | refl => exact ⟨rfl, fun _ all => all⟩
  | tail _ last ih =>
    have next := last.settled
    rw [ih.1] at next
    exact ⟨next.1, fun unblocked all => next.2 unblocked (ih.2 unblocked all)⟩

theorem Reaches.armed (started : Started s) (reached : Reaches parse s t) :
    Armed t ∧ t.socket.answer = s.socket.answer ∧ (Unblocked s.socket.answer →
      (∀ i, Settled (s.conns i)) → ∀ i, Settled (t.conns i)) := by
  induction reached with
  | start => exact ⟨started.armed, rfl, fun _ all => all⟩
  | step op _ fresh ih =>
    obtain ⟨armed, answer, settled⟩ := ih
    have moves : ReflTransGen (Move op.Returns) _ (KithControl.step parse _ op) :=
      step_moves armed fresh
    have next := moves_settled moves
    rw [answer] at next
    exact ⟨armed.moves moves, next.1, fun unblocked all => next.2 unblocked (settled unblocked all)⟩

end Moves

/-- In every state of every run, a connection that is left with bytes to write is
never registered for OUT; and if no write of the run is told to wait, no
connection is left so. -/
theorem responses_drain {parse : Nat → List UInt8 → Parsed} {start s : KithControl}
    (started : Started start) (reached : Reaches parse start s) :
    (Draining s ↔ ∀ i, ¬ Stalled (s.conns i)) ∧
      (Unblocked start.socket.answer → Draining s) := by
  obtain ⟨armed, _, settled⟩ := reached.armed started
  refine ⟨⟨fun draining i stalled => ?_, fun none_stalled i stalled =>
    absurd stalled (none_stalled i)⟩, fun unblocked i stalled => ?_⟩
  · obtain ⟨e, entry, out⟩ := draining i stalled
    obtain ⟨inUse, natural, writing, _⟩ := stalled
    rcases armed.slots i _ (openFd_eq_some.mpr ⟨inUse, natural, rfl⟩) with
      listed | ⟨_, reading, _⟩
    · rw [entry] at listed
      cases listed
      exact out (by decide : reactorIn &&& reactorOut = 0)
    · rw [writing] at reading
      cases reading
  · have rest := settled unblocked (fun j => by
      rw [started.blank]
      exact .inr (by decide)) i
    rcases rest with shut | idle
    · exact absurd shut (by have := stalled.2.1; omega)
    · exact absurd stalled.2.2.1 idle

section Instances

def rootOnly (_ : Nat) (bytes : List UInt8) : Parsed :=
  if bytes = ascii "GET / HTTP/1.1\r\n\r\n" then .complete ⟨.get, ascii "/", [], []⟩ else .more

variable (answer : Nat → WriteResult)

/-- One connection slot and one inline route, over a socket that answers so. -/
def listening : KithControl where
  reactor := listeningReactor .listener
  workers := false
  maxConnections := 1
  readBufferCap := 64
  writeBufferCap := 64
  conns := fun _ => .zero
  connCount := 0
  routes := [⟨ascii "GET", ascii "/", false⟩]
  eventBus := ⟨fun _ => ⟨0, []⟩, 8, 0, 0⟩
  sseSubscribers := 0
  dispatchDropped := 0
  jobs := []
  tasks := []
  socket := ⟨answer, 0⟩
  heap := ⟨fun _ _ => true, 0⟩

theorem listening_started : Started (listening answer) where
  valid := (listeningReactor_spec _).1
  blank _ := rfl
  foreign := listeningReactor_foreign fun i => by simp

/-- A client connects and sends the request; the response is three bytes. -/
def connected : KithControl :=
  (listening answer).step rootOnly
    (.ready 3 reactorIn ⟨[⟨5, true⟩], [], ⟨0, ⟨[], false⟩⟩, false⟩)

def requested : KithControl :=
  (connected answer).step rootOnly
    (.ready 5 reactorIn ⟨[], [.data 71 (ascii "ET / HTTP/1.1\r\n\r\n")], ⟨0, ⟨[1, 2, 3], false⟩⟩,
      false⟩)

theorem listening_unused : Unused (listening answer) (5 : Nat) := by
  refine ⟨?_, fun i => (by decide : ControlConn.zero.openFd ≠ some 5)⟩
  change (listeningReactor Handler.listener).entry 5 = none
  rfl

theorem requested_reached : Reaches rootOnly (listening answer) (requested answer) :=
  .step _ (.step _ .start fun _ => ⟨listening_unused answer, trivial⟩) fun _ => trivial

/-- On a socket that takes the response two bytes at a time. -/
theorem requested_drains : Draining (requested fun _ => .wrote 1) :=
  (responses_drain (listening_started _) (requested_reached _)).2
    fun _ => ⟨by simp [listening], by simp [listening]⟩

/-- A socket that takes one byte and is then full. -/
def oneByte : Nat → WriteResult
  | 0 => .wrote 0
  | _ => .wouldBlock

/-- One byte of the response is out, two are left, and the registration is for
IN alone. -/
theorem partial_response_not_armed :
    Started (listening oneByte) ∧ Reaches rootOnly (listening oneByte) (requested oneByte) ∧
      Stalled ((requested oneByte).conns 0) ∧
      (requested oneByte).reactor.entry ((requested oneByte).conns 0).fd =
        some ⟨5, reactorIn, some (.conn 0)⟩ ∧
      ¬ Draining (requested oneByte) := by
  have stalled : Stalled ((requested oneByte).conns 0) :=
    ⟨by decide +kernel, by decide +kernel, by decide +kernel, by decide +kernel⟩
  have entry : (requested oneByte).reactor.entry ((requested oneByte).conns 0).fd =
      some ⟨5, reactorIn, some (.conn 0)⟩ := by decide +kernel
  refine ⟨listening_started _, requested_reached _, stalled, entry, fun draining => ?_⟩
  obtain ⟨e, found, out⟩ := draining 0 stalled
  cases found
  exact out (by decide)

end Instances

end Kith.Control
