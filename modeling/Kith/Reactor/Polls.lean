import Kith.Lib.Runs
import Kith.Reactor.Uring
import Mathlib.Data.Multiset.Filter

/-!
# The polls of registered descriptors

The backend runs against the kernel and its handlers: calls of any of them on any
descriptor, at any time, completions in any order, and any answers of the submissions. Seen
as one-shot tokens, a poll is a token of its descriptor, and the registration is the current
generation.
-/

namespace Kith.Reactor

open OneShot Runs Function Multiset Option

section Machine

/-- The backend, and the dispatch whose handler is running. -/
structure UringRun where
  backend : UringBackend
  handling : Option Dispatch

inductive UringOp where
  | add (fd : Int32) (events : UInt32)
  | mod (fd : Int32) (events : UInt32)
  | del (fd : Int32)
  /-- The kernel completes one of its polls. -/
  | complete (i : Nat) (res : Int32)
  /-- The next completion, unless a handler is running. -/
  | process
  /-- The handler returns. -/
  | handled
  /-- The submission that ends a batch. -/
  | flush

def UringBackend.complete (b : UringBackend) (i : Nat) (res : Int32) : UringBackend :=
  match b.kernel[i]? with
  | none => b
  | some p => { b with kernel := b.kernel.eraseIdx i, cq := b.cq ++ [.poll p res] }

def UringRun.process (s : UringRun) : UringRun :=
  match s.handling, s.backend.cq with
  | none, cqe :: rest =>
    let (dispatch, backend) := uringProcessCqe { s.backend with cq := rest } cqe
    ⟨backend, dispatch⟩
  | _, _ => s

def UringRun.handled (s : UringRun) : UringRun :=
  match s.handling with
  | none => s
  | some dispatch => ⟨uringAfterDispatch s.backend dispatch, none⟩

def UringRun.step (s : UringRun) : UringOp → UringRun
  | .add fd events => { s with backend := (uringAdd s.backend fd events).2 }
  | .mod fd events => { s with backend := (uringMod s.backend fd events).2 }
  | .del fd => { s with backend := (uringDelFn s.backend fd).2 }
  | .complete i res => { s with backend := s.backend.complete i res }
  | .process => s.process
  | .handled => s.handled
  | .flush => { s with backend := s.backend.submit.2 }

end Machine

variable {p : Poll}

section Tokens

def Poll.token (p : Poll) : Token Int32 Nat :=
  ⟨uringDecodeFd p.data, (uringDecodeGen p.data).toNat, p.registration⟩

/-- The poll of the wake descriptor is nobody's token. -/
def Poll.asToken (p : Poll) : Option (Token Int32 Nat) :=
  if p.data = uringDataWake then none else some p.token

def Dispatch.token (d : Dispatch) : Token Int32 Nat := ⟨d.fd, d.genBefore.toNat, d.registration⟩

/-- The generation and the number of a descriptor's registration. -/
def UringBackend.registered (b : UringBackend) (fd : Int32) : Option (Nat × Nat) :=
  if fd.toUInt32 < b.fdCapacity ∧ (b.fdEntries fd).fd = fd then
    some ((b.fdEntries fd).gen.toNat, (b.fdEntries fd).registration)
  else none

def UringBackend.tokens (b : UringBackend) : Multiset (Token Int32 Nat) :=
  b.flight.filterMap Poll.asToken

def arms (b : UringBackend) (handling : Option Dispatch) : Arms Int32 Nat where
  last fd := (b.fdEntries fd).lastGen.toNat
  current := b.registered
  tokens := b.tokens
  held := handling.map Dispatch.token

/-- The generations are below the marks, no poll is marked as a cancellation, and the handler
that runs is that of a descriptor in range. -/
structure Proper (b : UringBackend) (handling : Option Dispatch) : Prop where
  bounded : ∀ fd, (b.fdEntries fd).lastGen ≤ uringGenMax
  plain : ∀ p ∈ b.flight, p.data ≠ uringDataCancel
  inside : ∀ d, handling = some d → d.fd.toUInt32 < b.fdCapacity

variable {fd : Int32}

theorem asToken_encode {mask gen : UInt32} {registration : Nat} (bounded : gen ≤ uringGenMax) :
    Poll.asToken ⟨fd, mask, uringEncodeGen gen fd, registration⟩ =
      some ⟨fd, gen.toNat, registration⟩ := by
  rw [Poll.asToken, if_neg (uringEncodeGen_ne bounded).1, Poll.token, uringDecodeFd_encode,
    uringDecodeGen_encode]

variable {b b' : UringBackend} {t : Token Int32 Nat}

theorem tokens_cons (flight : b'.flight = p ::ₘ b.flight) (is : p.asToken = some t) :
    b'.tokens = t ::ₘ b.tokens := by
  rw [UringBackend.tokens, flight, filterMap_cons_some _ _ _ is, UringBackend.tokens]

theorem registered_congr (entries : b'.fdEntries = b.fdEntries)
    (capacity : b'.fdCapacity = b.fdCapacity) : b'.registered = b.registered := by
  funext fd
  rw [UringBackend.registered, entries, capacity, UringBackend.registered]

theorem registered_eq_some {gen r : Nat} :
    b.registered fd = some (gen, r) ↔ (fd.toUInt32 < b.fdCapacity ∧ (b.fdEntries fd).fd = fd) ∧
      (b.fdEntries fd).gen.toNat = gen ∧ (b.fdEntries fd).registration = r := by
  rw [UringBackend.registered, ite_none_right_eq_some, some.injEq, Prod.mk.injEq]

theorem mem_tokens : t ∈ b.tokens ↔ ∃ p ∈ b.flight, p.asToken = some t := by
  rw [UringBackend.tokens, mem_filterMap]

end Tokens

section Quiet

/-- Nothing that the registrations depend on has changed. -/
structure Quiet (b b' : UringBackend) : Prop where
  entries : b'.fdEntries = b.fdEntries
  capacity : b'.fdCapacity = b.fdCapacity
  tokens : b'.tokens = b.tokens
  plain : (∀ p ∈ b.flight, p.data ≠ uringDataCancel) → ∀ p ∈ b'.flight, p.data ≠ uringDataCancel

variable {b b' queued : UringBackend} {h : Option Dispatch}

theorem Keeps.quiet (kept : Keeps b b') : Quiet b b' :=
  ⟨kept.entries, kept.capacity, by rw [UringBackend.tokens, kept.flight, UringBackend.tokens],
    fun plain => kept.flight ▸ plain⟩

theorem Quiet.refl (b : UringBackend) : Quiet b b := ⟨rfl, rfl, rfl, id⟩

theorem Quiet.trans {b₁ b₂ b₃ : UringBackend} (first : Quiet b₁ b₂) (second : Quiet b₂ b₃) :
    Quiet b₁ b₃ :=
  ⟨second.entries.trans first.entries, second.capacity.trans first.capacity,
    second.tokens.trans first.tokens, fun plain => second.plain (first.plain plain)⟩

theorem Quiet.arms (quiet : Quiet b b') : arms b' h = arms b h := by
  rw [Reactor.arms, registered_congr quiet.entries quiet.capacity, quiet.tokens, quiet.entries,
    Reactor.arms]

theorem Quiet.proper (quiet : Quiet b b') (proper : Proper b h) : Proper b' h := by
  refine ⟨?_, quiet.plain proper.plain, ?_⟩
  · rw [quiet.entries]
    exact proper.bounded
  · rw [quiet.capacity]
    exact proper.inside

/-- The wake poll comes and goes without a token. -/
theorem quiet_of_wake (entries : b'.fdEntries = b.fdEntries)
    (capacity : b'.fdCapacity = b.fdCapacity) (wake : p.data = uringDataWake)
    (flight : b'.flight = p ::ₘ b.flight) : Quiet b b' ∧ Quiet b' b := by
  have none : p.asToken = none := by rw [Poll.asToken, if_pos wake]
  have tokens : b'.tokens = b.tokens := by
    rw [UringBackend.tokens, flight, filterMap_cons_none _ _ none, UringBackend.tokens]
  refine ⟨⟨entries, capacity, tokens, fun plain q mem => ?_⟩,
    ⟨entries.symm, capacity.symm, tokens.symm, fun plain q mem => ?_⟩⟩
  · rw [flight, mem_cons] at mem
    rcases mem with rfl | mem
    · rw [wake]
      decide
    · exact plain q mem
  · exact plain q (flight ▸ mem_cons_of_mem mem)

theorem queue_wake_quiet (found : b.queue b.wakePoll = some queued) : Quiet b queued := by
  obtain ⟨entries, capacity⟩ := queue_frame found
  exact (quiet_of_wake entries capacity rfl (flight_queue_poll found)).1

theorem uringRearmWake_quiet (b : UringBackend) : Quiet b (uringRearmWake b) := by
  rw [uringRearmWake]
  cases found : b.queue b.wakePoll with
  | none => exact Quiet.refl b
  | some queued => exact (queue_wake_quiet found).trans (submit_keeps queued).quiet

theorem uringEnsureWakeRegistered_quiet (b : UringBackend) :
    Quiet b (uringEnsureWakeRegistered b).2 := by
  rw [uringEnsureWakeRegistered]
  split
  · exact Quiet.refl b
  · cases found : b.queue b.wakePoll with
    | none => exact Quiet.refl b
    | some queued =>
      have sent := (queue_wake_quiet found).trans (submit_keeps queued).quiet
      dsimp only
      split
      · exact sent
      · exact { sent with }

end Quiet

section Calls

variable {b b' : UringBackend} {h : Option Dispatch} {fd : Int32} {lossy : Prop}

/-- How the tokens move while the backend goes from one state to another. -/
structure Moves (lossy : Prop) (b : UringBackend) (h : Option Dispatch) (b' : UringBackend)
    (h' : Option Dispatch) : Prop where
  steps : Relation.ReflTransGen (Arms.Step lossy) (arms b h) (arms b' h')
  proper : Proper b' h'

theorem Quiet.moves (quiet : Quiet b b') (proper : Proper b h) : Moves lossy b h b' h :=
  ⟨quiet.arms ▸ .refl, quiet.proper proper⟩

theorem Quiet.before {woken : UringBackend} (quiet : Quiet b woken)
    (moves : Moves lossy woken h b' h) : Moves lossy b h b' h :=
  ⟨quiet.arms ▸ moves.steps, moves.proper⟩

/-- A poll has been prepared under the next generation of its descriptor. -/
structure Armed (b b' : UringBackend) (fd : Int32) : Prop where
  entries : b'.fdEntries = update b.fdEntries fd
    { b.fdEntries fd with lastGen := (b.fdEntries fd).lastGen + 1 }
  capacity : b'.fdCapacity = b.fdCapacity
  flight : ∃ mask, b'.flight =
    ⟨fd, mask, uringEncodeGen ((b.fdEntries fd).lastGen + 1) fd, b.registrations⟩ ::ₘ b.flight

theorem uringPreparePoll_spec (b : UringBackend) (fd : Int32) (events : UInt32) :
    let r := uringPreparePoll b fd events
    r.1 ≠ .ok ∧ r.2.2 = b ∨ r.2.1 = (b.fdEntries fd).lastGen + 1 ∧ Armed b r.2.2 fd := by
  rw [uringPreparePoll]
  cases found : b.queue (.poll ⟨fd, toPollMask events,
      uringEncodeGen ((b.fdEntries fd).lastGen + 1) fd, b.registrations⟩) with
  | none => exact .inl ⟨by simp, rfl⟩
  | some queued =>
    obtain ⟨entries, capacity⟩ := queue_frame found
    have flight := flight_queue_poll found
    have sent := submit_keeps { queued.setEntry fd
      { b.fdEntries fd with lastGen := (b.fdEntries fd).lastGen + 1 } with
        registrations := b.registrations + 1 }
    refine .inr ⟨rfl, ⟨sent.entries.trans ?_, sent.capacity.trans capacity, _,
      sent.flight.trans flight⟩⟩
    rw [UringBackend.setEntry, entries]

theorem next_gen_toNat {gen : UInt32} (room : ¬uringGenMax ≤ gen) :
    (gen + 1).toNat = gen.toNat + 1 ∧ gen + 1 ≤ uringGenMax := by
  rw [UInt32.le_iff_toNat_le, show uringGenMax.toNat = 2 ^ 32 - 2 from rfl] at room ⊢
  have sum : (gen + 1).toNat = gen.toNat + 1 := by
    rw [UInt32.toNat_add, show (1 : UInt32).toNat = 1 from rfl]
    omega
  exact ⟨sum, by omega⟩

theorem Armed.arms (armed : Armed b b' fd) (room : ¬uringGenMax ≤ (b.fdEntries fd).lastGen) :
    arms b' h = (arms b h).arm fd b.registrations := by
  obtain ⟨next, bounded⟩ := next_gen_toNat room
  obtain ⟨mask, flight⟩ := armed.flight
  have current : b'.registered = b.registered := by
    funext j
    rw [UringBackend.registered, armed.entries, armed.capacity, UringBackend.registered]
    by_cases own : j = fd
    · subst own
      simp
    · simp only [update_of_ne own]
  have last : (fun j => (b'.fdEntries j).lastGen.toNat) =
      update (fun j => (b.fdEntries j).lastGen.toNat) fd
        ((b.fdEntries fd).lastGen.toNat + 1) := by
    funext j
    rw [armed.entries]
    by_cases own : j = fd
    · subst own
      simp only [update_self, next]
    · simp only [update_of_ne own]
  rw [Reactor.arms, current, last, tokens_cons flight (asToken_encode bounded), next]
  rfl

theorem Armed.proper (armed : Armed b b' fd) (room : ¬uringGenMax ≤ (b.fdEntries fd).lastGen)
    (proper : Proper b h) : Proper b' h := by
  obtain ⟨-, bounded⟩ := next_gen_toNat room
  obtain ⟨mask, flight⟩ := armed.flight
  refine ⟨?_, ?_, armed.capacity ▸ proper.inside⟩
  · intro j
    rw [armed.entries]
    by_cases own : j = fd
    · subst own
      simpa only [update_self] using bounded
    · simpa only [update_of_ne own] using proper.bounded j
  · intro p mem
    rw [flight, mem_cons] at mem
    rcases mem with rfl | mem
    · exact (uringEncodeGen_ne bounded).2
    · exact proper.plain p mem

theorem registered_setEntry (b : UringBackend) (fd : Int32) (entry : UringFdEntry) :
    (b.setEntry fd entry).registered = update b.registered fd
      (if fd.toUInt32 < b.fdCapacity ∧ entry.fd = fd then
        some (entry.gen.toNat, entry.registration) else none) := by
  funext j
  rw [UringBackend.registered, UringBackend.setEntry]
  by_cases same : j = fd
  · subst same
    simp
  · simp only [update_of_ne same, UringBackend.registered]

variable {entry : UringFdEntry}

theorem lastGen_setEntry (last : entry.lastGen = (b.fdEntries fd).lastGen)
    (j : Int32) : ((b.setEntry fd entry).fdEntries j).lastGen = (b.fdEntries j).lastGen := by
  rw [UringBackend.setEntry]
  by_cases same : j = fd
  · subst same
    simp only [update_self, last]
  · simp only [update_of_ne same]

theorem arms_setEntry (inside : fd.toUInt32 < b.fdCapacity)
    (own : entry.fd = fd) (gen : entry.gen = (b.fdEntries fd).lastGen)
    (last : entry.lastGen = (b.fdEntries fd).lastGen) :
    arms (b.setEntry fd entry) h = (arms b h).publish fd entry.registration := by
  simp only [Reactor.arms, registered_setEntry, lastGen_setEntry last,
    if_pos (And.intro inside own), gen]
  rfl

theorem arms_unset (natural : ¬fd < 0) :
    arms (b.setEntry fd { b.fdEntries fd with fd := -1, events := 0 }) h =
      (arms b h).retire fd := by
  have other : ¬(fd.toUInt32 < b.fdCapacity ∧ -1 = fd) := by
    rintro ⟨-, rfl⟩
    exact natural (by decide)
  have last : ({ b.fdEntries fd with fd := -1, events := 0 } : UringFdEntry).lastGen =
      (b.fdEntries fd).lastGen := rfl
  simp only [Reactor.arms, registered_setEntry, lastGen_setEntry last, if_neg other]
  rfl

theorem Proper.setEntry (proper : Proper b h)
    (last : entry.lastGen = (b.fdEntries fd).lastGen) : Proper (b.setEntry fd entry) h := by
  refine ⟨?_, proper.plain, proper.inside⟩
  intro j
  rw [lastGen_setEntry last]
  exact proper.bounded j

theorem uringPreparePoll_moves (lossy : Prop) (events : UInt32)
    (publish : UringBackend → UInt32 → UringFdEntry) (proper : Proper b h)
    (inside : fd.toUInt32 < b.fdCapacity) (room : ¬uringGenMax ≤ (b.fdEntries fd).lastGen)
    (own : ∀ sent gen, Armed b sent fd → (publish sent gen).fd = fd ∧ (publish sent gen).gen = gen ∧
      (publish sent gen).lastGen = (sent.fdEntries fd).lastGen ∧
      (publish sent gen).registration = b.registrations) :
    ∀ rc gen sent, uringPreparePoll b fd events = (rc, gen, sent) →
      Moves lossy b h sent h ∧
        (rc = .ok → Moves lossy b h (sent.setEntry fd (publish sent gen)) h) := by
  intro rc gen sent result
  have spec := uringPreparePoll_spec b fd events
  rw [result] at spec
  dsimp only at spec
  rcases spec with ⟨failed, same⟩ | ⟨named, armed⟩
  · subst same
    exact ⟨⟨.refl, proper⟩, fun ok => absurd ok failed⟩
  · obtain ⟨ownFd, ownGen, ownLast, ownRegistration⟩ := own sent gen armed
    have sent_last : (sent.fdEntries fd).lastGen = (b.fdEntries fd).lastGen + 1 := by
      rw [armed.entries, update_self]
    have after := armed.proper room proper
    constructor
    · refine ⟨?_, after⟩
      rw [armed.arms room]
      exact .single (.arm ..)
    · intro _
      refine ⟨?_, after.setEntry ownLast⟩
      rw [arms_setEntry (armed.capacity ▸ inside) ownFd (by rw [ownGen, named, sent_last]) ownLast,
        armed.arms room, ownRegistration]
      exact .single (.renew ..)

theorem inside_iff (b : UringBackend) (fd : Int32) :
    b.inside fd = true ↔ ¬fd < 0 ∧ fd.toUInt32 < b.fdCapacity := by
  simp [UringBackend.inside]

theorem uringAdd_moves (proper : Proper b h) (fd : Int32) (events : UInt32) :
    Moves lossy b h (uringAdd b fd events).2 h := by
  rw [uringAdd]
  split
  · exact ⟨.refl, proper⟩
  rename_i within
  have quiet := uringEnsureWakeRegistered_quiet b
  rcases ensured : uringEnsureWakeRegistered b with ⟨rc, woken⟩
  rw [ensured] at quiet
  have ready := quiet.proper proper
  have inside : fd.toUInt32 < woken.fdCapacity := by
    rw [quiet.capacity]
    exact ((inside_iff b fd).mp (by simpa using within)).2
  cases rc with
  | err code => exact quiet.moves proper
  | ok =>
    dsimp only
    split
    · exact quiet.moves proper
    rename_i room
    have moves := uringPreparePoll_moves lossy events
      (fun sent gen => { sent.fdEntries fd with
        fd := fd, events := events, gen := gen, registration := woken.registrations })
      ready inside room fun sent gen _ => ⟨rfl, rfl, rfl, rfl⟩
    rcases prepared : uringPreparePoll woken fd events with ⟨rc, gen, sent⟩
    obtain ⟨standing, published⟩ := moves rc gen sent prepared
    cases rc with
    | err code => exact quiet.before standing
    | ok => exact quiet.before (published rfl)

theorem uringMod_moves (proper : Proper b h) (fd : Int32) (events : UInt32) :
    Moves lossy b h (uringMod b fd events).2 h := by
  rw [uringMod]
  split
  · exact ⟨.refl, proper⟩
  rename_i within
  split
  · exact ⟨.refl, proper⟩
  rename_i present
  split
  · exact ⟨.refl, proper⟩
  split
  · exact ⟨.refl, proper⟩
  rename_i room
  have quiet := (uringCancel_keeps b (uringEncodeGen (b.fdEntries fd).gen fd)).quiet
  rcases cancelled : uringCancel b (uringEncodeGen (b.fdEntries fd).gen fd) with ⟨rc, sent⟩
  rw [cancelled] at quiet
  cases rc with
  | err code => exact quiet.moves proper
  | ok =>
    have inside : fd.toUInt32 < sent.fdCapacity := by
      rw [quiet.capacity]
      exact ((inside_iff b fd).mp (by simpa using within)).2
    have entries : sent.fdEntries = b.fdEntries := quiet.entries
    have moves := uringPreparePoll_moves lossy events
      (fun after gen => { after.fdEntries fd with
        gen := gen, events := events, registration := sent.registrations })
      (quiet.proper proper) inside (entries ▸ room) fun after gen armed => by
        refine ⟨?_, rfl, rfl, rfl⟩
        simpa [armed.entries, entries] using present
    dsimp only
    rcases prepared : uringPreparePoll sent fd events with ⟨rc, gen, after⟩
    obtain ⟨standing, published⟩ := moves rc gen after prepared
    cases rc with
    | err code => exact quiet.before standing
    | ok => exact quiet.before (published rfl)

theorem uringDelFn_moves (proper : Proper b h) (fd : Int32) :
    Moves lossy b h (uringDelFn b fd).2 h := by
  rw [uringDelFn]
  split
  · exact ⟨.refl, proper⟩
  rename_i within
  split
  · exact ⟨.refl, proper⟩
  have natural := ((inside_iff b fd).mp (by simpa using within)).1
  have quiet := (uringCancel_keeps (b.setEntry fd { b.fdEntries fd with fd := -1, events := 0 })
    (uringEncodeGen (b.fdEntries fd).gen fd)).quiet
  refine ⟨?_, quiet.proper (proper.setEntry rfl)⟩
  rw [quiet.arms, arms_unset natural]
  exact .single (.retire ..)

end Calls

section Completions

variable {b b' : UringBackend} {h : Option Dispatch} {fd : Int32} {lossy : Prop} {rest : List Cqe}
    {dispatch : Dispatch}

theorem complete_keeps (b : UringBackend) (i : Nat) (res : Int32) : Keeps b (b.complete i res) := by
  rw [UringBackend.complete]
  cases found : b.kernel[i]? with
  | none => exact ⟨rfl, rfl, rfl⟩
  | some p =>
    refine ⟨rfl, rfl, ?_⟩
    obtain ⟨inside, rfl⟩ := List.getElem?_eq_some_iff.mp found
    have moved := List.getElem_cons_eraseIdx_perm inside
    simp only [UringBackend.flight, List.filterMap_append, coe_eq_coe]
    refine List.Perm.append_left _ ?_
    rw [show [Cqe.poll b.kernel[i] res].filterMap Cqe.asPoll = [b.kernel[i]] from rfl,
      ← List.append_assoc]
    exact (List.perm_append_singleton ..).trans (moved.append_right _)

theorem pop_cancel_keeps (head : b.cq = .cancel :: rest) : Keeps b { b with cq := rest } := by
  refine ⟨rfl, rfl, ?_⟩
  rw [UringBackend.flight, UringBackend.flight, head]
  rfl

theorem flight_pop {res : Int32} (head : b.cq = .poll p res :: rest) :
    b.flight = p ::ₘ ({ b with cq := rest } : UringBackend).flight := by
  rw [UringBackend.flight, head,
    ← List.append_assoc, UringBackend.flight, ← List.append_assoc, cons_coe,
    coe_eq_coe]
  exact List.perm_middle

theorem Proper.gen_le (proper : Proper b h) (fresh : (arms b h).Fresh) {r : Nat × Nat}
    (registered : b.registered fd = some r) : (b.fdEntries fd).gen ≤ uringGenMax := by
  have last := fresh.current_le _ _ _ registered
  rw [← (registered_eq_some.mp registered).2.1] at last
  exact UInt32.le_trans (UInt32.le_iff_toNat_le.mpr last) (proper.bounded fd)

theorem uringRearm_moves (fresh : (arms b (some dispatch)).Fresh)
    (proper : Proper b (some dispatch)) (own : (b.fdEntries dispatch.fd).fd = dispatch.fd)
    (same : (b.fdEntries dispatch.fd).gen = dispatch.genBefore)
    (lost : ¬b.sq.length < b.sqEntries → lossy) :
    Moves lossy b (some dispatch) (uringRearm b dispatch.fd) none := by
  have current : b.registered dispatch.fd =
      some (dispatch.genBefore.toNat, (b.fdEntries dispatch.fd).registration) :=
    registered_eq_some.mpr ⟨⟨proper.inside _ rfl, own⟩, by rw [same], rfl⟩
  have bounded := proper.gen_le fresh current
  rw [uringRearm, if_neg (not_not.mpr own)]
  cases found : b.queue (.poll ⟨dispatch.fd, toPollMask (b.fdEntries dispatch.fd).events,
      uringEncodeGen (b.fdEntries dispatch.fd).gen dispatch.fd,
      (b.fdEntries dispatch.fd).registration⟩) with
  | none =>
    refine ⟨.single (.lose _ dispatch.token rfl (lost (queue_none found))), ?_⟩
    exact ⟨proper.bounded, proper.plain, fun _ is => nomatch is⟩
  | some queued =>
    obtain ⟨entries, capacity⟩ := queue_frame found
    have flight := flight_queue_poll found
    have tokens := tokens_cons flight (asToken_encode bounded)
    refine ⟨?_, ?_, ?_, fun _ is => nomatch is⟩
    · have target : arms queued none = { arms b (some dispatch) with
          tokens :=
            ⟨dispatch.fd, dispatch.genBefore.toNat, (b.fdEntries dispatch.fd).registration⟩ ::ₘ
            (arms b (some dispatch)).tokens
          held := none } := by
        rw [arms, registered_congr entries capacity, tokens, entries, same]
        rfl
      exact .single (target ▸ .restore _ dispatch.token _ rfl current)
    · rw [entries]
      exact proper.bounded
    · intro p mem
      rw [flight, mem_cons] at mem
      rcases mem with rfl | mem
      · exact (uringEncodeGen_ne bounded).2
      · exact proper.plain p mem

theorem isCurrent_iff {data : UInt64} : b.isCurrent data = true ↔
    ∃ r, b.registered (uringDecodeFd data) = some ((uringDecodeGen data).toNat, r) := by
  simp [UringBackend.isCurrent, Bool.and_eq_true, decide_eq_true_eq, beq_iff_eq, registered_eq_some,
    UInt32.toNat_inj, exists_and_left, and_true]

/-- The next completion: a poll of an old registration is dropped, one of the present
registration is held for its handler or armed again. -/
theorem process_moves {cqe : Cqe} (fresh : (arms b none).Fresh) (proper : Proper b none)
    (head : b.cq = cqe :: rest)
    (lost : cqe.data ≠ uringDataWake → cqe.data ≠ uringDataCancel → b.isCurrent cqe.data →
      cqeEvents cqe.res = 0 → ¬b.sq.length < b.sqEntries → lossy) :
    Moves lossy b none (uringProcessCqe { b with cq := rest } cqe).2
      (uringProcessCqe { b with cq := rest } cqe).1 := by
  cases cqe with
  | cancel => exact (pop_cancel_keeps head).quiet.moves proper
  | poll p res =>
    have flight := flight_pop head
    rw [uringProcessCqe]
    by_cases wake : p.data = uringDataWake
    · rw [if_pos (show (Cqe.poll p res).data = uringDataWake from wake)]
      have popped : Quiet b { b with cq := rest } := (quiet_of_wake (by rfl) (by rfl) wake flight).2
      exact (popped.trans (uringRearmWake_quiet _)).moves proper
    have plain : p.data ≠ uringDataCancel := by
      apply proper.plain p
      rw [flight]
      exact mem_cons_self _ _
    rw [if_neg (show ¬(Cqe.poll p res).data = uringDataWake from wake),
      if_neg (show ¬(Cqe.poll p res).data = uringDataCancel from plain)]
    have taken : (arms b none).tokens = p.token ::ₘ ({ b with cq := rest } : UringBackend).tokens :=
      tokens_cons flight (if_neg wake)
    have popped : ∀ h, (∀ d, h = some d → d.fd.toUInt32 < b.fdCapacity) →
        Proper { b with cq := rest } h := fun h inside =>
      ⟨proper.bounded, fun q mem => proper.plain q (flight ▸ mem_cons_of_mem mem), inside⟩
    rw [show ({ b with cq := rest } : UringBackend).isCurrent (Cqe.poll p res).data =
      b.isCurrent p.data from rfl]
    by_cases current : b.isCurrent p.data = true
    · obtain ⟨r, found⟩ := isCurrent_iff.mp current
      have here := current
      simp only [UringBackend.isCurrent, Bool.and_eq_true, decide_eq_true_eq, beq_iff_eq] at here
      obtain ⟨⟨inside, own⟩, gen⟩ := here
      rw [current, Bool.not_true, if_neg Bool.false_ne_true]
      -- the poll is held, with or without events
      have hold : ∀ revents, Moves lossy b none { b with cq := rest }
          (some ⟨uringDecodeFd p.data, revents, (b.fdEntries (uringDecodeFd p.data)).gen,
            p.registration⟩) := by
        intro revents
        refine ⟨.single ?_, popped _ fun d is => some.inj is ▸ inside⟩
        have token : p.token = Dispatch.token ⟨uringDecodeFd p.data, revents,
            (b.fdEntries (uringDecodeFd p.data)).gen, p.registration⟩ := by
          rw [Poll.token, Dispatch.token, gen]
        rw [token] at taken
        exact .hold _ _ _ rfl taken
      by_cases events : cqeEvents res = 0
      · rw [if_neg (show ¬cqeEvents (Cqe.poll p res).res ≠ 0 from not_not.mpr events)]
        have held := hold 0
        have rearmed := uringRearm_moves (fresh.steps held.steps) held.proper own rfl
          (lost wake plain current events)
        exact ⟨held.steps.trans rearmed.steps, rearmed.proper⟩
      · rw [if_pos (show cqeEvents (Cqe.poll p res).res ≠ 0 from events)]
        exact hold _
    · rw [Bool.not_eq_true] at current
      rw [current, Bool.not_false, if_pos rfl]
      refine ⟨.single (.discard _ _ _ taken fun r now => ?_), popped none fun _ is => nomatch is⟩
      rw [isCurrent_iff.mpr ⟨r, now⟩] at current
      cases current

theorem uringAfterDispatch_moves (fresh : (arms b (some dispatch)).Fresh)
    (proper : Proper b (some dispatch)) (lost : (b.fdEntries dispatch.fd).fd = dispatch.fd →
      (b.fdEntries dispatch.fd).gen = dispatch.genBefore → ¬b.sq.length < b.sqEntries → lossy) :
    Moves lossy b (some dispatch) (uringAfterDispatch b dispatch) none := by
  rw [uringAfterDispatch]
  split
  · rename_i untouched
    exact uringRearm_moves fresh proper untouched.1 untouched.2 (lost untouched.1 untouched.2)
  · rename_i touched
    refine ⟨.single (.release _ dispatch.token rfl fun r now => touched ?_),
      ⟨proper.bounded, proper.plain, fun _ is => nomatch is⟩⟩
    obtain ⟨here, gen, -⟩ := registered_eq_some.mp now
    exact ⟨here.2, UInt32.toNat_inj.mp gen⟩

end Completions

section Runs

/-- Whether the step comes to `uring_rearm` for a registered descriptor. -/
def UringRun.rearms (s : UringRun) : UringOp → Bool
  | .process =>
    match s.handling, s.backend.cq with
    | none, cqe :: _ => cqe.data != uringDataWake && cqe.data != uringDataCancel &&
        s.backend.isCurrent cqe.data && cqeEvents cqe.res == 0
    | _, _ => false
  | .handled =>
    match s.handling with
    | some d =>
      (s.backend.fdEntries d.fd).fd == d.fd && (s.backend.fdEntries d.fd).gen == d.genBefore
    | none => false
  | _ => false

/-- A step that rearms finds a free entry in the submission queue. -/
def UringRun.Roomy (s : UringRun) (op : UringOp) : Prop :=
  s.rearms op = true → s.backend.sq.length < s.backend.sqEntries

instance (s : UringRun) (op : UringOp) : Decidable (s.Roomy op) :=
  inferInstanceAs (Decidable (_ → _))

/-- No generation is used twice. -/
structure UringRun.Sound (s : UringRun) : Prop where
  fresh : (arms s.backend s.handling).Fresh
  proper : Proper s.backend s.handling

variable {s : UringRun} {b : UringBackend} {fd : Int32} {d : Dispatch}

theorem UringRun.Sound.moves (sound : s.Sound) (op : UringOp) :
    Moves (¬s.Roomy op) s.backend s.handling (s.step op).backend (s.step op).handling := by
  cases op with
  | add fd events => exact uringAdd_moves sound.proper fd events
  | mod fd events => exact uringMod_moves sound.proper fd events
  | del fd => exact uringDelFn_moves sound.proper fd
  | complete i res => exact (complete_keeps s.backend i res).quiet.moves sound.proper
  | flush => exact (submit_keeps s.backend).quiet.moves sound.proper
  | process =>
    rcases s with ⟨b, handling⟩
    cases handling with
    | some d => exact ⟨.refl, sound.proper⟩
    | none =>
      cases head : b.cq with
      | nil =>
        rw [UringRun.step, UringRun.process, head]
        exact ⟨.refl, sound.proper⟩
      | cons cqe rest =>
        rw [UringRun.step, UringRun.process, head]
        refine process_moves sound.fresh sound.proper head ?_
        intro wake plain current events full roomy
        refine full (roomy ?_)
        simp [UringRun.rearms, head, wake, plain, current, events]
  | handled =>
    rcases s with ⟨b, handling⟩
    cases handling with
    | none => exact ⟨.refl, sound.proper⟩
    | some d =>
      refine uringAfterDispatch_moves sound.fresh sound.proper ?_
      intro own same full roomy
      refine full (roomy ?_)
      exact Bool.and_eq_true_iff.mpr ⟨beq_iff_eq.mpr own, beq_iff_eq.mpr same⟩

theorem UringRun.Sound.step (sound : s.Sound) (op : UringOp) : (s.step op).Sound :=
  ⟨sound.fresh.steps (sound.moves op).steps, (sound.moves op).proper⟩

variable {fdCapacity : UInt32} {wakeFd : Int32} {sqEntries : Nat} {submissions : Nat → Submission}

section

variable (init : uringInit fdCapacity wakeFd sqEntries submissions = (.ok, b))
include init

theorem uringInit_arms : arms b none = ⟨fun _ => 0, fun _ => none, 0, none⟩ ∧ Proper b none := by
  have quiet := uringEnsureWakeRegistered_quiet (.blank fdCapacity wakeFd sqEntries submissions)
  rw [show uringEnsureWakeRegistered _ = (.ok, b) from init] at quiet
  constructor
  · have registered : (UringBackend.blank fdCapacity wakeFd sqEntries submissions).registered =
        fun _ => none := by
      funext fd
      refine if_neg ?_
      rintro ⟨inside, own⟩
      have small := fdCapacity.toNat_lt
      rw [← show -1 = fd from own, UInt32.lt_iff_toNat_lt,
        show (-1 : Int32).toUInt32.toNat = 2 ^ 32 - 1 from rfl] at inside
      change 2 ^ 32 - 1 < fdCapacity.toNat at inside
      omega
    rw [show arms b none = _ from quiet.arms, arms, registered]
    rfl
  · refine quiet.proper ⟨fun _ => ?_, fun p mem => ?_, fun _ is => nomatch is⟩
    · exact (by decide : (0 : UInt32) ≤ uringGenMax)
    · cases notMem_zero p mem

theorem uringInit_sound : UringRun.Sound ⟨b, none⟩ ∧ (arms b none).Alive := by
  obtain ⟨blank, proper⟩ := uringInit_arms init
  refine ⟨⟨?_, proper⟩, ?_⟩
  · rw [blank]
    refine ⟨fun _ _ _ is => (nomatch is), fun t mem => ?_, nodup_zero, fun t mem => ?_⟩
    · cases notMem_zero t mem
    · cases notMem_zero t mem
  · rw [blank]
    exact fun _ _ _ is => nomatch is

end

/-- The identity that the polls of a descriptor's registration carry. -/
def UringBackend.identity (b : UringBackend) (fd : Int32) : UInt64 :=
  uringEncodeGen (b.fdEntries fd).gen fd

/-- How many polls of the present registration are prepared, with the kernel, or waiting. -/
def UringRun.outstanding (s : UringRun) (fd : Int32) : Nat :=
  (s.backend.flight.filter fun p => p.data = s.backend.identity fd).card

/-- Whether the handler that runs was called for the present registration. -/
def UringRun.inHandler (s : UringRun) (fd : Int32) : Bool :=
  s.handling.any fun d => d.fd == fd && d.genBefore == (s.backend.fdEntries fd).gen

theorem registered_eq (registered : (b.registered fd).isSome) :
    b.registered fd = some ((b.fdEntries fd).gen.toNat, (b.fdEntries fd).registration) := by
  obtain ⟨⟨gen, r⟩, found⟩ := isSome_iff_exists.mp registered
  exact registered_eq_some.mpr ⟨(registered_eq_some.mp found).1, rfl, rfl⟩

theorem card_filter_le {gen : UInt32} (bounded : gen ≤ uringGenMax) (fd : Int32)
    (flight : Multiset Poll) :
    (flight.filter fun p => p.data = uringEncodeGen gen fd).card ≤
      ((flight.filterMap Poll.asToken).map fun t => (t.key, t.gen)).count (fd, gen.toNat) := by
  induction flight using Multiset.induction_on with
  | empty => simp
  | cons p rest ih =>
    by_cases own : p.data = uringEncodeGen gen fd
    · have token : p.asToken = some ⟨fd, gen.toNat, p.registration⟩ := by
        rw [Poll.asToken, own, if_neg (uringEncodeGen_ne bounded).1, Poll.token, own,
          uringDecodeFd_encode, uringDecodeGen_encode]
      rw [filter_cons_of_pos (p := fun q : Poll => q.data = _) rest own, card_cons,
        filterMap_cons_some _ _ _ token, map_cons, count_cons_self]
      omega
    · rw [filter_cons_of_neg (p := fun q : Poll => q.data = _) rest own]
      cases token : p.asToken with
      | none => rwa [filterMap_cons_none _ _ token]
      | some t =>
        rw [filterMap_cons_some _ _ _ token, map_cons]
        exact ih.trans (count_le_count_cons _ _ _)

theorem UringRun.Sound.single (sound : s.Sound) (registered : (s.backend.registered fd).isSome) :
    s.outstanding fd + (s.inHandler fd).toNat ≤ 1 := by
  have once := nodup_iff_count_le_one.mp sound.fresh.distinct
    (fd, (s.backend.fdEntries fd).gen.toNat)
  have here := card_filter_le (sound.proper.gen_le sound.fresh (registered_eq registered)) fd
    s.backend.flight
  rw [Arms.all, map_add, count_add] at once
  change s.outstanding fd ≤ ((arms s.backend s.handling).tokens.map _).count _ at here
  have held : (s.inHandler fd).toNat ≤ count (fd, (s.backend.fdEntries fd).gen.toNat)
      (((arms s.backend s.handling).held.toList : Multiset (Token Int32 Nat)).map
        fun t => (t.key, t.gen)) := by
    cases running : s.inHandler fd with
    | false => exact Nat.zero_le _
    | true =>
      rw [UringRun.inHandler] at running
      cases handling : s.handling with
      | none =>
        rw [handling] at running
        cases running
      | some d =>
        rw [handling] at running
        simp only [any_some, Bool.and_eq_true, beq_iff_eq] at running
        simp [arms, Dispatch.token, running.1, running.2]
  omega

theorem uringProcessCqe_dispatch {cqe : Cqe} (dispatched : (uringProcessCqe b cqe).1 = some d) :
    ∃ p res, cqe = .poll p res ∧ b.isCurrent p.data = true ∧ d.fd = uringDecodeFd p.data := by
  cases cqe with
  | cancel => cases dispatched
  | poll p res =>
    refine ⟨p, res, rfl, ?_⟩
    rw [uringProcessCqe] at dispatched
    split at dispatched
    · cases dispatched
    · split at dispatched
      · cases dispatched
      · split at dispatched
        · cases dispatched
        · rename_i current
          split at dispatched
          · rw [Bool.not_eq_true', Bool.not_eq_false] at current
            refine ⟨current, ?_⟩
            rw [← some.inj dispatched]
            rfl
          · cases dispatched

theorem UringRun.Sound.dispatched (sound : s.Sound) (idle : s.handling = none)
    (dispatched : (s.step .process).handling = some d) :
    ∃ p res rest, s.backend.cq = .poll p res :: rest ∧
      (s.backend.registered d.fd).isSome ∧ p.data = s.backend.identity d.fd ∧
      p.registration = (s.backend.fdEntries d.fd).registration := by
  rw [UringRun.step, UringRun.process, idle] at dispatched
  cases head : s.backend.cq with
  | nil =>
    rw [head] at dispatched
    cases idle ▸ dispatched
  | cons cqe rest =>
    rw [head] at dispatched
    obtain ⟨p, res, rfl, current, named⟩ := uringProcessCqe_dispatch dispatched
    obtain ⟨r, found⟩ := isCurrent_iff.mp current
    change s.backend.registered (uringDecodeFd p.data) = _ at found
    rw [← named] at found
    obtain ⟨-, gen, registration⟩ := registered_eq_some.mp found
    have identity : p.data = s.backend.identity d.fd := by
      rw [UringBackend.identity, UInt32.toNat_inj.mp gen, named, uringEncodeGen_decode]
    refine ⟨p, res, rest, rfl, isSome_of_eq_some found, identity, ?_⟩
    have token : p.asToken = some p.token := by
      rw [Poll.asToken, if_neg]
      rw [identity]
      exact (uringEncodeGen_ne (sound.proper.gen_le sound.fresh found)).1
    have mem : p.token ∈ (arms s.backend s.handling).all := by
      refine mem_add.mpr (.inr (mem_tokens.mpr ⟨p, ?_, token⟩))
      rw [flight_pop head]
      exact mem_cons_self _ _
    have same := sound.fresh.same p.token mem r
    rw [Poll.token, ← named] at same
    exact (same found).trans registration.symm

/-- Every dispatch comes from a poll of the registration that its descriptor has, and a
registration never has two polls under way, counting the one whose handler runs. -/
theorem dispatches_are_current (init : uringInit fdCapacity wakeFd sqEntries submissions = (.ok, b))
    (path : Path UringRun.step (fun _ _ => True) ⟨b, none⟩ s) :
    (∀ d, s.handling = none → (s.step .process).handling = some d →
      ∃ p res rest, s.backend.cq = .poll p res :: rest ∧
        (s.backend.registered d.fd).isSome ∧ p.data = s.backend.identity d.fd ∧
        p.registration = (s.backend.fdEntries d.fd).registration) ∧
    ∀ fd, (s.backend.registered fd).isSome → s.outstanding fd + (s.inHandler fd).toNat ≤ 1 := by
  have sound := path.invariant UringRun.Sound (fun _ op sound _ => sound.step op)
    (uringInit_sound init).1
  constructor
  · intro d idle dispatched
    exact sound.dispatched idle dispatched
  · intro fd registered
    exact sound.single registered

/-- The first two submissions go through, and no later one. -/
def twoTaken (n : Nat) : Submission := if n < 2 then ⟨1, 1⟩ else ⟨0, -11⟩

def smallRing : UringBackend := (uringInit 32 3 32 twoTaken).2

def eagerRing : UringBackend := (uringInit 32 3 32 fun _ => ⟨8, 8⟩).2

theorem eagerRing_init : (uringInit 32 3 32 fun _ => ⟨8, 8⟩) = (.ok, eagerRing) := rfl

/-- Descriptor 5 is removed with its completion waiting and added again. The old completion
and the cancellation are passed over; the completion of the new poll waits. -/
def readded : List UringOp :=
  [.add 5 1, .complete 1 1, .del 5, .add 5 1, .process, .complete 1 1, .process]

theorem dispatches_are_current_readded :
    let s := readded.foldl UringRun.step ⟨eagerRing, none⟩
    ∃ d, ∃ p : Poll, (s.step .process).handling = some d ∧ d.fd = 5 ∧
      p.data = s.backend.identity 5 ∧ p.registration = (s.backend.fdEntries 5).registration ∧
      s.outstanding 5 = 1 ∧ s.outstanding 5 + (s.inHandler 5).toNat ≤ 1 := by
  intro s
  obtain ⟨current, single⟩ :=
    dispatches_are_current eagerRing_init (path_foldl (UringRun.mk eagerRing none) readded)
  have five : (s.step .process).handling.map Dispatch.fd = some 5 := by decide +kernel
  obtain ⟨d, dispatched, fd⟩ := map_eq_some_iff.mp five
  obtain ⟨p, _, _, _, _, data, registration⟩ := current d (by decide +kernel) dispatched
  rw [fd] at data registration
  exact ⟨d, p, dispatched, fd, data, registration, by decide +kernel, single 5 (by decide +kernel)⟩

/-- While every rearming finds room in the submission queue, each registered descriptor has
a poll, or its handler is running. -/
theorem registered_fds_polled (init : uringInit fdCapacity wakeFd sqEntries submissions = (.ok, b))
    (path : Path UringRun.step UringRun.Roomy ⟨b, none⟩ s) (fd : Int32)
    (registered : (s.backend.registered fd).isSome) (free : s.inHandler fd = false) :
    ∃ p, (.poll p ∈ s.backend.sq ∨ p ∈ s.backend.kernel ∨ ∃ res, .poll p res ∈ s.backend.cq) ∧
      p.data = s.backend.identity fd := by
  have alive := path.invariant
    (fun s : UringRun => s.Sound ∧ (arms s.backend s.handling).Alive)
    (fun s op both roomy => ⟨both.1.step op,
      both.2.steps both.1.fresh (both.1.moves op).steps (not_not.mpr roomy)⟩)
    (uringInit_sound init)
  obtain ⟨t, mem, key, gen⟩ := alive.2 _ _ _ (registered_eq registered)
  rcases Multiset.mem_add.mp mem with held | waiting
  · -- a held token is that of the running handler
    rw [Multiset.mem_coe, Option.mem_toList] at held
    cases handling : s.handling with
    | none =>
      rw [handling] at held
      cases held
    | some d =>
      rw [handling] at held
      cases some.inj held
      have running : s.inHandler fd = true := by
        rw [UringRun.inHandler, handling, any_some, Bool.and_eq_true, beq_iff_eq, beq_iff_eq]
        exact ⟨key, UInt32.toNat_inj.mp gen⟩
      rw [running] at free
      cases free
  · obtain ⟨p, there, token⟩ := mem_tokens.mp waiting
    refine ⟨p, mem_flight.mp there, ?_⟩
    rw [Poll.asToken] at token
    split at token
    · cases token
    · cases some.inj token
      have same : (s.backend.fdEntries fd).gen = uringDecodeGen p.data :=
        UInt32.toNat_inj.mp gen.symm
      rw [UringBackend.identity, same, ← show uringDecodeFd p.data = fd from key,
        uringEncodeGen_decode]

/-- The handler of the new registration returns, and its poll is armed again. -/
theorem registered_fds_polled_rearmed :
    let s := (readded ++ [UringOp.process, .handled]).foldl UringRun.step ⟨eagerRing, none⟩
    ∃ p, (.poll p ∈ s.backend.sq ∨ p ∈ s.backend.kernel ∨ ∃ res, .poll p res ∈ s.backend.cq) ∧
      p.data = s.backend.identity 5 := by
  have roomy : Allowed UringRun.step UringRun.Roomy ⟨eagerRing, none⟩
      (readded ++ [.process, .handled]) := by
    decide +kernel
  exact registered_fds_polled eagerRing_init roomy.path 5 (by decide +kernel) (by decide +kernel)

/-- The handler of descriptor 5 asks for other events until the cancellations that no
submission takes fill the queue. The poll cannot be prepared when the handler has returned,
and no completion of the descriptor is left that would prepare it later. -/
theorem full_queue_deafens :
    let ops := [.add 5 1, .complete 1 1, .process] ++ List.replicate 32 (.mod 5 3) ++ [.handled]
    let s := ops.foldl UringRun.step ⟨smallRing, none⟩
    s.handling = none ∧ (s.backend.registered 5).isSome ∧ s.outstanding 5 = 0 := by
  decide +kernel

end Runs

end Kith.Reactor
