import Kith.Control.Conn

/-!
# What a callback can do to a connection

Every callback works on one slot, and what it can do is said once, for all of
them: the slots beside it and the queue of flushes stay as they are, its own slot
is left well kept, and if its connection is registered, it keeps the descriptor
and the registrations (the add that asks for OUT is refused, since the descriptor
is registered) or is closed together with its registration. When no write is told
to wait, a callback does not leave its connection in WRITING, and a connection
that becomes a stream starts at the publish head.
-/

namespace Kith.Control

open Kith.Reactor Function

section Slots

variable {slot : Nat} {s t u : KithControl} {c : ControlConn}

/-- What holds of a slot between two callbacks: a free slot has no buffers, a
stream is open, and a closed connection keeps its slot only while it is served. -/
structure WellKept (c : ControlConn) : Prop where
  held : c.buffers = c.inUse
  stream : c.sseSubscribed = true →
    c.inUse = true ∧ 0 ≤ c.fd ∧ (c.state = .sse ∨ c.state = .writing)
  serving : c.state = .dispatching → c.inUse = true
  closed : c.inUse = true → c.fd < 0 → c.state = .dispatching

structure Unserved (slot : Nat) (s : KithControl) : Prop where
  held : (s.conns slot).buffers = true
  inUse : (s.conns slot).inUse = true
  natural : 0 ≤ (s.conns slot).fd
  stream : (s.conns slot).sseSubscribed = true →
    (s.conns slot).state = .sse ∨ (s.conns slot).state = .writing
  idle : (s.conns slot).state ≠ .dispatching

/-- The slot has a connection, and if it is open, a registration for it. -/
structure Listed (slot : Nat) (s : KithControl) : Prop where
  valid : s.reactor.Valid
  inUse : (s.conns slot).inUse = true
  entry : 0 ≤ (s.conns slot).fd → s.reactor.entry (s.conns slot).fd ≠ none

/-- What becomes of the descriptor and its registration. -/
inductive Fate (slot : Nat) (s s' : KithControl) : Prop where
  | kept (entry : s'.reactor.entry = s.reactor.entry)
      (fd : (s'.conns slot).fd = (s.conns slot).fd)
      (inUse : (s'.conns slot).inUse = (s.conns slot).inUse)
  | shut (entry : s'.reactor.entry = update s.reactor.entry (s.conns slot).fd none)
      (natural : 0 ≤ (s.conns slot).fd) (fd : (s'.conns slot).fd < 0)
  | freed (entry : s'.reactor.entry = s.reactor.entry) (shut : (s.conns slot).fd < 0)
      (inUse : (s'.conns slot).inUse = false)

/-- What nothing changes but the accept of a connection. -/
structure Setting (s s' : KithControl) : Prop where
  count : s'.connCount = s.connCount
  bufferCap : s'.writeBufferCap = s.writeBufferCap
  answer : s'.socket.answer = s.socket.answer

structure Frame (s s' : KithControl) : Prop extends Setting s s' where
  bus : s'.eventBus = s.eventBus

/-- What every callback on the slot leaves. -/
structure Tended (slot : Nat) (s s' : KithControl) : Prop where
  frame : Frame s s'
  others : ∀ j, j ≠ slot → s'.conns j = s.conns j
  cap : (s'.conns slot).writeCap = (s.conns slot).writeCap
  tasks : s'.tasks = s.tasks
  kept : WellKept (s'.conns slot)
  fate : Listed slot s → s'.reactor.Valid ∧ Fate slot s s'

/-- A callback that hands nothing to the pool. -/
structure Tidy (slot : Nat) (s s' : KithControl) : Prop extends Tended slot s s' where
  jobs : s'.jobs = s.jobs
  idle : (s'.conns slot).state ≠ .dispatching
  live : 0 ≤ (s'.conns slot).fd → (s'.conns slot).inUse = true

theorem WellKept.of_open (held : c.buffers = true) (inUse : c.inUse = true) (natural : 0 ≤ c.fd)
    (stream : c.sseSubscribed = true → c.state = .sse ∨ c.state = .writing) : WellKept c where
  held := held.trans inUse.symm
  stream subscribed := ⟨inUse, natural, stream subscribed⟩
  serving _ := inUse
  closed _ shut := by omega

theorem WellKept.of_free (held : c.buffers = false) (inUse : c.inUse = false)
    (unsubscribed : c.sseSubscribed = false) (idle : c.state ≠ .dispatching) : WellKept c where
  held := held.trans inUse.symm
  stream subscribed := by
    rw [unsubscribed] at subscribed
    cases subscribed
  serving serving := absurd serving idle
  closed busy := by
    rw [inUse] at busy
    cases busy

theorem WellKept.zero : WellKept .zero := .of_free rfl rfl rfl (by decide)

theorem WellKept.plain (kept : WellKept c) (apart : c.state ≠ .sse ∧ c.state ≠ .writing) :
    c.sseSubscribed = false := by
  by_contra subscribed
  exact (kept.stream (by simpa using subscribed)).2.2.elim apart.1 apart.2

theorem Unserved.kept (unserved : Unserved slot s) : WellKept (s.conns slot) :=
  .of_open unserved.held unserved.inUse unserved.natural unserved.stream

theorem WellKept.unserved (kept : WellKept (s.conns slot)) (inUse : (s.conns slot).inUse = true)
    (natural : 0 ≤ (s.conns slot).fd) (idle : (s.conns slot).state ≠ .dispatching) :
    Unserved slot s :=
  ⟨kept.held.trans inUse, inUse, natural, fun subscribed => (kept.stream subscribed).2.2, idle⟩

theorem Frame.trans (first : Frame s t) (second : Frame t u) : Frame s u where
  count := second.count.trans first.count
  bufferCap := second.bufferCap.trans first.bufferCap
  answer := second.answer.trans first.answer
  bus := second.bus.trans first.bus

theorem Tended.refl (kept : WellKept (s.conns slot)) : Tended slot s s :=
  ⟨⟨⟨rfl, rfl, rfl⟩, rfl⟩, fun _ _ => rfl, rfl, rfl, kept,
    fun listed => ⟨listed.valid, .kept rfl rfl rfl⟩⟩

theorem Tidy.refl (unserved : Unserved slot s) : Tidy slot s s :=
  ⟨.refl unserved.kept, rfl, unserved.idle, fun _ => unserved.inUse⟩

theorem Tidy.unserved (left : Tidy slot s t) (natural : 0 ≤ (t.conns slot).fd) : Unserved slot t :=
  left.kept.unserved (left.live natural) natural left.idle

theorem Tidy.listed (left : Tidy slot s t) (natural : 0 ≤ (t.conns slot).fd)
    (listed : Listed slot s) :
    Listed slot t ∧ t.reactor.entry = s.reactor.entry ∧
      (t.conns slot).fd = (s.conns slot).fd ∧ (t.conns slot).inUse = (s.conns slot).inUse := by
  obtain ⟨valid, fate⟩ := left.fate listed
  have inUse := left.live natural
  rcases fate with ⟨entry, fd, same⟩ | ⟨_, _, shut⟩ | ⟨_, _, free⟩
  · refine ⟨⟨valid, inUse, fun natural => ?_⟩, entry, fd, same⟩
    rw [entry, fd]
    exact listed.entry (fd ▸ natural)
  · omega
  · rw [free] at inUse
    cases inUse

theorem Tidy.tended (first : Tidy slot s t) (natural : 0 ≤ (t.conns slot).fd)
    (second : Tended slot t u) : Tended slot s u where
  frame := first.frame.trans second.frame
  others j h := (second.others j h).trans (first.others j h)
  cap := second.cap.trans first.cap
  tasks := second.tasks.trans first.tasks
  kept := second.kept
  fate listed := by
    obtain ⟨listed', entry, fd, inUse⟩ := first.listed natural listed
    obtain ⟨valid, fate⟩ := second.fate listed'
    refine ⟨valid, ?_⟩
    rcases fate with ⟨entry', fd', inUse'⟩ | ⟨entry', natural, fd'⟩ | ⟨_, shut, _⟩
    · exact .kept (entry'.trans entry) (fd'.trans fd) (inUse'.trans inUse)
    · exact .shut (by rw [entry', entry, fd]) (fd ▸ natural) fd'
    · omega

theorem Tidy.trans (first : Tidy slot s t) (natural : 0 ≤ (t.conns slot).fd)
    (second : Tidy slot t u) : Tidy slot s u :=
  ⟨first.tended natural second.toTended, second.jobs.trans first.jobs, second.idle, second.live⟩

/-- Two values of a slot with one connection and its buffers. -/
structure Alike (c c' : ControlConn) : Prop where
  held : c'.buffers = c.buffers
  inUse : c'.inUse = c.inUse
  fd : c'.fd = c.fd
  cap : c'.writeCap = c.writeCap

section

variable (unserved : Unserved slot s)
include unserved

theorem Tended.of_update (conns : t.conns = update s.conns slot c) (reactor : t.reactor = s.reactor)
    (frame : Frame s t) (tasks : t.tasks = s.tasks) (alike : Alike (s.conns slot) c)
    (stream : c.sseSubscribed = true → c.state = .sse ∨ c.state = .writing) : Tended slot s t := by
  have here : t.conns slot = c := by rw [conns, update_self]
  refine ⟨frame, fun j h => by rw [conns, update_of_ne h], by rw [here, alike.cap], tasks,
    ?_, fun listed => ⟨reactor ▸ listed.valid, .kept (by rw [reactor]) ?_ ?_⟩⟩
  · rw [here]
    exact .of_open (alike.held.trans unserved.held) (alike.inUse.trans unserved.inUse)
      (alike.fd ▸ unserved.natural) stream
  · rw [here, alike.fd]
  · rw [here, alike.inUse]

theorem Tidy.of_update (conns : t.conns = update s.conns slot c) (reactor : t.reactor = s.reactor)
    (frame : Frame s t) (tasks : t.tasks = s.tasks) (jobs : t.jobs = s.jobs)
    (alike : Alike (s.conns slot) c)
    (stream : c.sseSubscribed = true → c.state = .sse ∨ c.state = .writing)
    (idle : c.state ≠ .dispatching) : Tidy slot s t ∧ Unserved slot t := by
  have here : t.conns slot = c := by rw [conns, update_self]
  have left : Tidy slot s t := by
    refine ⟨.of_update unserved conns reactor frame tasks alike stream, jobs, here ▸ idle,
      fun _ => ?_⟩
    rw [here, alike.inUse]
    exact unserved.inUse
  refine ⟨left, left.unserved ?_⟩
  rw [here, alike.fd]
  exact unserved.natural

theorem Tidy.of_setConn (alike : Alike (s.conns slot) c)
    (stream : c.sseSubscribed = true → c.state = .sse ∨ c.state = .writing)
    (idle : c.state ≠ .dispatching) :
    Tidy slot s (s.setConn slot c) ∧ Unserved slot (s.setConn slot c) :=
  Tidy.of_update unserved rfl rfl ⟨⟨rfl, rfl, rfl⟩, rfl⟩ rfl rfl alike stream idle

end

theorem no_stream {state : ConnState} (unsubscribed : c.sseSubscribed = false) :
    c.sseSubscribed = true → state = .sse ∨ state = .writing := by
  intro subscribed
  rw [unsubscribed] at subscribed
  cases subscribed

end Slots

section Closing

variable {slot : Nat} {s : KithControl}

theorem shut_fd (c : ControlConn) : c.shut.fd = -1 := by
  simp only [ControlConn.shut]
  split <;> rfl

theorem shut_unsubscribed (c : ControlConn) : c.shut.sseSubscribed = false := by
  simp only [ControlConn.shut]
  split <;> rfl

theorem controlConnClose_fd (s : KithControl) (slot : Nat) :
    ((controlConnClose s slot).conns slot).fd < 0 := by
  simp only [controlConnClose]
  split
  · assumption
  · simp [shut_fd]

theorem controlConnClose_unsubscribed (natural : 0 ≤ (s.conns slot).fd) :
    ((controlConnClose s slot).conns slot).sseSubscribed = false := by
  simp only [controlConnClose]
  rw [if_neg (by omega)]
  simp [shut_unsubscribed]

theorem controlConnClose_tended (natural : 0 ≤ (s.conns slot).fd)
    (kept : WellKept (s.conns slot).shut) : Tended slot s (controlConnClose s slot) := by
  simp only [controlConnClose]
  rw [if_neg (by omega)]
  refine ⟨⟨⟨rfl, rfl, rfl⟩, rfl⟩, fun j h => update_of_ne h .., ?_, rfl, by simpa using kept,
    fun listed => ?_⟩
  · simp only [update_self, ControlConn.shut]
    split <;> rfl
  · obtain ⟨valid, entry⟩ := kithReactorDel_spec listed.valid (s.conns slot).fd
    simp only [connDeregister]
    rw [if_pos natural]
    exact ⟨valid, .shut entry natural (by simp [shut_fd])⟩

theorem controlConnClose_tidy (unserved : Unserved slot s) :
    Tidy slot s (controlConnClose s slot) := by
  have natural := unserved.natural
  have freed : (s.conns slot).shut = ControlConn.release { s.conns slot with
      fd := -1, sseSubscribed := false } := if_neg unserved.idle
  refine ⟨controlConnClose_tended natural ?_, ?_, ?_, fun live => ?_⟩
  · rw [freed]
    exact .of_free rfl rfl rfl unserved.idle
  · simp only [controlConnClose]
    rw [if_neg (by omega)]
  · simp only [controlConnClose]
    rw [if_neg (by omega)]
    simp only [update_self, freed]
    exact unserved.idle
  · exact absurd live (Int.not_le.mpr (controlConnClose_fd s slot))

theorem connRegister_conns (s : KithControl) (slot : Nat) (events : UInt32) :
    let t := connRegister s slot events
    t.conns = s.conns ∧ t.jobs = s.jobs ∧ t.tasks = s.tasks ∧ Frame s t := by
  rw [connRegister]
  split <;> exact ⟨rfl, rfl, rfl, ⟨rfl, rfl, rfl⟩, rfl⟩

/-- A second add for a registered descriptor changes nothing. -/
theorem connRegister_tidy (unserved : Unserved slot s) (events : UInt32) :
    Tidy slot s (connRegister s slot events) := by
  obtain ⟨conns, jobs, tasks, frame⟩ := connRegister_conns s slot events
  refine ⟨⟨frame, fun j _ => by rw [conns], by rw [conns], tasks, conns ▸ unserved.kept,
    fun listed => ?_⟩, jobs, conns ▸ unserved.idle, fun _ => conns ▸ unserved.inUse⟩
  have spec := kithReactorAdd_spec listed.valid (s.conns slot).fd events (.conn slot)
  have refused := spec.registered unserved.natural (listed.entry unserved.natural)
  rw [connRegister, if_neg (Int.not_lt.mpr unserved.natural)]
  exact ⟨spec.valid, .kept (spec.refused (by rw [refused]; simp)) rfl rfl⟩

end Closing

section Writing

variable {slot : Nat} {s : KithControl} {c : ControlConn}

def Unblocked (answer : Nat → WriteResult) : Prop :=
  ∀ k, answer k ≠ .wouldBlock ∧ answer k ≠ .intr

def Settled (c : ControlConn) : Prop := c.fd < 0 ∨ c.state ≠ .writing

/-- A connection that streams only if it has just attached. -/
def JustAttached (head : UInt32) (c : ControlConn) : Prop :=
  c.sseSubscribed = true →
    c.state = .sse ∧ c.resp.bytes = [] ∧ c.writePos = 0 ∧ c.resp.sse = true ∧ c.sseCursor = head

theorem justAttached_of_unsubscribed (head : UInt32) (unsubscribed : c.sseSubscribed = false) :
    JustAttached head c := by
  intro subscribed
  rw [unsubscribed] at subscribed
  cases subscribed

/-- How a callback leaves its connection to the next one. -/
structure Rested (slot : Nat) (s s' : KithControl) : Prop where
  settled : Unblocked s.socket.answer → Settled (s.conns slot) → Settled (s'.conns slot)
  attached : (s.conns slot).sseSubscribed = false →
    JustAttached s.eventBus.head (s'.conns slot)

/-- A tidy callback after which the connection may be left alone. -/
structure Finished (slot : Nat) (s s' : KithControl) : Prop extends Tidy slot s s', Rested slot s s'

variable (unserved : Unserved slot s)
include unserved

theorem Finished.refl : Finished slot s s :=
  ⟨.refl unserved, fun _ settled => settled, justAttached_of_unsubscribed _⟩

theorem Finished.close : Finished slot s (controlConnClose s slot) :=
  ⟨controlConnClose_tidy unserved, fun _ _ => .inl (controlConnClose_fd s slot),
    fun _ => justAttached_of_unsubscribed _ (controlConnClose_unsubscribed unserved.natural)⟩

omit unserved in
theorem drainWrites_unblocked {answer : Nat → WriteResult} (unblocked : Unblocked answer)
    (len fuel pos asked : Nat) : (drainWrites answer len fuel pos asked).1 ≠ .stalled := by
  induction fuel generalizing pos asked with
  | zero => simp [drainWrites]
  | succ fuel ih =>
    rw [drainWrites]
    split
    · simp
    · cases answered : answer asked with
      | wrote more => exact ih _ _
      | wouldBlock => exact absurd answered (unblocked asked).1
      | intr => exact absurd answered (unblocked asked).2
      | error => simp

/-- A write: told to wait, it leaves the position alone changed; otherwise the
response is all out, and the connection is closed, or a stream with nothing left to
write. -/
theorem handleWrite_spec :
    let t := handleWrite s slot
    Tidy slot s t ∧ (Unblocked s.socket.answer → (t.conns slot).fd < 0 ∨
        (t.conns slot).state = .sse ∧ (t.conns slot).resp.bytes = []) ∧
      ((s.conns slot).sseSubscribed = false → JustAttached s.eventBus.head (t.conns slot)) := by
  have moving := fun unblocked : Unblocked s.socket.answer =>
    drainWrites_unblocked unblocked (s.conns slot).resp.len
      ((s.conns slot).resp.len - (s.conns slot).writePos) (s.conns slot).writePos s.socket.asked
  simp only [handleWrite]
  generalize drainWrites s.socket.answer (s.conns slot).resp.len
    ((s.conns slot).resp.len - (s.conns slot).writePos) (s.conns slot).writePos s.socket.asked = d
    at moving ⊢
  obtain ⟨drained, pos, asked⟩ := d
  obtain ⟨step, moved⟩ : Tidy slot s { s with
      conns := update s.conns slot { s.conns slot with writePos := pos }
      socket := ⟨s.socket.answer, asked⟩ } ∧ Unserved slot _ :=
    Tidy.of_update unserved rfl rfl ⟨⟨rfl, rfl, rfl⟩, rfl⟩ rfl rfl ⟨rfl, rfl, rfl, rfl⟩
      unserved.stream unserved.idle
  have closed := Finished.close moved
  have shut := closed.attached
  cases drained with
  | stalled =>
    exact ⟨step, fun unblocked => absurd rfl (moving unblocked),
      fun plain => justAttached_of_unsubscribed _ (by simpa using plain)⟩
  | failed =>
    exact ⟨step.trans moved.natural closed.toTidy, fun _ => .inl (controlConnClose_fd _ slot),
      fun plain => shut (by simpa using plain)⟩
  | done =>
    simp only
    split
    · rename_i sse
      obtain ⟨entered, _⟩ : Tidy slot _ (enterStream { s with
          conns := update s.conns slot { s.conns slot with writePos := pos }
          socket := ⟨s.socket.answer, asked⟩ } slot) ∧ _ :=
        Tidy.of_update moved rfl rfl ⟨⟨rfl, rfl, rfl⟩, rfl⟩ rfl rfl ⟨rfl, rfl, rfl, rfl⟩
          (fun _ => .inl rfl) (by simp)
      refine ⟨step.trans moved.natural entered,
        fun _ => .inr ⟨by simp [enterStream], by simp [enterStream]⟩, fun plain _ => ?_⟩
      simp [enterStream, sse, plain]
    · exact ⟨step.trans moved.natural closed.toTidy, fun _ => .inl (controlConnClose_fd _ slot),
        fun plain => shut (by simpa using plain)⟩

/-- A callback whose last act is a write. -/
structure Written (slot : Nat) (s s' : KithControl) : Prop extends Tidy slot s s' where
  settled : Unblocked s.socket.answer → Settled (s'.conns slot)
  attached : (s.conns slot).sseSubscribed = false →
    JustAttached s.eventBus.head (s'.conns slot)

theorem handleWrite_written : Written slot s (handleWrite s slot) := by
  obtain ⟨left, out, attached⟩ := handleWrite_spec unserved
  exact ⟨left, fun unblocked => (out unblocked).imp_right fun ⟨stream, _⟩ => by simp [stream],
    attached⟩

theorem writeOut_written : Written slot s
      (if 0 ≤ ((handleWrite s slot).conns slot).fd ∧
          ((handleWrite s slot).conns slot).state = .writing then
        connRegister (handleWrite s slot) slot (reactorIn ||| reactorOut)
      else handleWrite s slot) := by
  have written := handleWrite_written unserved
  split
  · rename_i still
    have conns := (connRegister_conns (handleWrite s slot) slot (reactorIn ||| reactorOut)).1
    exact ⟨written.trans still.1 (connRegister_tidy (written.unserved still.1) _),
      conns ▸ written.settled, conns ▸ written.attached⟩
  · exact written

end Writing

section Requests

variable {parse : Nat → List UInt8 → Parsed} {slot : Nat} {s t u : KithControl} {c : ControlConn}

/-- A callback on a connection that no worker serves: it may hand the request to
the pool. -/
inductive Turn (slot : Nat) (s s' : KithControl) : Prop where
  | tidy (left : Finished slot s s')
  | dispatched (tended : Tended slot s s') (jobs : s'.jobs = s.jobs ++ [slot])
      (serving : (s'.conns slot).state = .dispatching)

theorem Turn.tended (turn : Turn slot s t) : Tended slot s t := by
  cases turn with
  | tidy left => exact left.toTended
  | dispatched tended _ _ => exact tended

theorem Turn.rested (turn : Turn slot s t) : Rested slot s t := by
  cases turn with
  | tidy left => exact left.toRested
  | dispatched tended _ serving =>
    exact ⟨fun _ _ => .inr (by simp [serving]), fun _ =>
      justAttached_of_unsubscribed _ (tended.kept.plain (by simp [serving]))⟩

theorem Finished.turn (first : Finished slot s t) (natural : 0 ≤ (t.conns slot).fd)
    (plain : (t.conns slot).sseSubscribed = false) (second : Turn slot t u) : Turn slot s u := by
  cases second with
  | tidy left =>
    refine .tidy ⟨first.trans natural left.toTidy, fun unblocked settled => ?_, fun _ => ?_⟩
    · exact left.settled (first.frame.answer ▸ unblocked) (first.settled unblocked settled)
    · exact first.frame.bus ▸ left.attached plain
  | dispatched tended jobs serving =>
    exact .dispatched (first.tended natural tended) (by rw [jobs, first.jobs]) serving

theorem Unserved.after_setConn (unserved : Unserved slot s)
    (later : Unserved slot (s.setConn slot c) → Turn slot (s.setConn slot c) u)
    (alike : Alike (s.conns slot) c) (plain : c.sseSubscribed = false)
    (idle : c.state ≠ .dispatching) (settled : Settled (s.conns slot) → Settled c) :
    Turn slot s u := by
  obtain ⟨step, opened⟩ := Tidy.of_setConn unserved alike (no_stream plain) idle
  have plain' : ((s.setConn slot c).conns slot).sseSubscribed = false := by simpa using plain
  have first : Finished slot s (s.setConn slot c) :=
    ⟨step, fun _ rest => by simpa using settled rest,
      fun _ => justAttached_of_unsubscribed _ plain'⟩
  exact first.turn opened.natural plain' (later opened)

/-- What a response leaves: still to be written, or in the hands of the pool. -/
inductive Responded (slot : Nat) (s s' : KithControl) : Prop where
  | tidy (left : Tidy slot s s') (plain : (s.conns slot).sseSubscribed = false →
      (s'.conns slot).sseSubscribed = false)
  | dispatched (tended : Tended slot s s') (jobs : s'.jobs = s.jobs ++ [slot])
      (serving : (s'.conns slot).state = .dispatching)

theorem handleRespond_responded (unserved : Unserved slot s)
    (unsubscribed : (s.conns slot).sseSubscribed = false) (out : Outside) :
    Responded slot s (handleRespond s slot out) := by
  have set : ∀ {c : ControlConn}, Alike (s.conns slot) c → c.sseSubscribed = false →
      c.state ≠ .dispatching → Responded slot s (s.setConn slot c) := fun alike plain idle =>
    .tidy (Tidy.of_setConn unserved alike (no_stream plain) idle).1 fun _ => by simpa using plain
  simp only [handleRespond]
  split
  · exact set ⟨rfl, rfl, rfl, rfl⟩ unsubscribed (by simp)
  · split
    · rw [dispatchToPool]
      split
      · exact .dispatched (.of_update unserved rfl rfl ⟨⟨rfl, rfl, rfl⟩, rfl⟩ rfl
          ⟨rfl, rfl, rfl, rfl⟩ (no_stream unsubscribed)) rfl (by simp)
      · exact .tidy (And.left (Tidy.of_update unserved rfl rfl ⟨⟨rfl, rfl, rfl⟩, rfl⟩ rfl rfl
          ⟨rfl, rfl, rfl, rfl⟩ (no_stream unsubscribed) (by simp)))
          fun _ => by simpa using unsubscribed
    · rename_i reply _
      split
      · obtain ⟨step, opened⟩ := Tidy.of_setConn (c := { s.conns slot with
            resp := reply.resp, writePos := 0 }) unserved ⟨rfl, rfl, rfl, rfl⟩
          (no_stream unsubscribed) unserved.idle
        exact .tidy (step.trans opened.natural (controlConnClose_tidy opened))
          fun _ => controlConnClose_unsubscribed opened.natural
      · exact set ⟨rfl, rfl, rfl, rfl⟩ unsubscribed (by simp)

theorem Responded.turn (responded : Responded slot s t)
    (write : Unserved slot t → Written slot t u) :
    Turn slot s (if 0 ≤ (t.conns slot).fd ∧ (t.conns slot).state = .writing then u else t) := by
  cases responded with
  | tidy left plain =>
    split
    · rename_i writing
      have written := write (left.unserved writing.1)
      refine .tidy
        ⟨left.trans writing.1 written.toTidy, fun unblocked _ => ?_, fun unsubscribed => ?_⟩
      · exact written.settled (left.frame.answer ▸ unblocked)
      · exact left.frame.bus ▸ written.attached (plain unsubscribed)
    · rename_i idle
      rw [not_and_or, Int.not_le] at idle
      exact .tidy ⟨left, fun _ _ => idle,
        fun unsubscribed => justAttached_of_unsubscribed _ (plain unsubscribed)⟩
  | dispatched tended jobs serving =>
    rw [if_neg (by simp [serving])]
    exact .dispatched tended jobs serving

section

variable (unserved : Unserved slot s)
include unserved

theorem handleRead_turn (unsubscribed : (s.conns slot).sseSubscribed = false) (out : Outside)
    (reads : List ReadResult) : Turn slot s (handleRead parse slot out reads s) := by
  induction reads generalizing s with
  | nil =>
    rw [handleRead]
    split
    · exact .tidy (.close unserved)
    · exact .tidy (.refl unserved)
  | cons result reads ih =>
    simp only [handleRead]
    split
    · exact .tidy (.close unserved)
    · cases result with
      | error => exact .tidy (.refl unserved)
      | eof => exact .tidy (.close unserved)
      | data first rest =>
        simp only
        split
        · exact unserved.after_setConn (fun opened =>
              (handleRespond_responded opened (by simpa using unsubscribed) out).turn
                writeOut_written)
            ⟨rfl, rfl, rfl, rfl⟩ unsubscribed (by simp) fun _ => .inr (by simp)
        · exact unserved.after_setConn (fun opened => .tidy (.close opened)) ⟨rfl, rfl, rfl, rfl⟩
            unsubscribed (by simp) fun _ => .inr (by simp)
        · exact unserved.after_setConn (fun opened => ih opened (by simpa using unsubscribed))
            ⟨rfl, rfl, rfl, rfl⟩ unsubscribed unserved.idle fun settled => settled

theorem handleReady_turn (events : UInt32) (out : Outside) :
    Turn slot s (handleReady parse s slot events out) := by
  have answered : ∀ {t : KithControl}, Unserved slot t → Turn slot t
      (if 0 ≤ ((respondPhase t slot out).conns slot).fd ∧
          ((respondPhase t slot out).conns slot).state = .writing then
        handleWrite (respondPhase t slot out) slot
      else respondPhase t slot out) := by
    intro t opened
    refine Responded.turn ?_ handleWrite_written
    rw [respondPhase]
    split
    · rename_i responding
      exact handleRespond_responded opened (opened.kept.plain (by simp [responding])) out
    · exact .tidy (.refl opened) fun plain => plain
  by_cases reading : events &&& reactorIn ≠ 0 ∧ (s.conns slot).state = .reading
  · have plain := unserved.kept.plain (by simp [reading.2])
    have read : Turn slot s (handleRead parse slot out out.reads s) :=
      handleRead_turn unserved plain out out.reads
    simp only [handleReady, readPhase, if_pos reading]
    generalize handleRead parse slot out out.reads s = t at read ⊢
    split
    · exact read
    · rename_i live
      split
      · cases read with
        | dispatched tended jobs serving =>
          have unanswered : respondPhase t slot out = t := by
            rw [respondPhase, if_neg (by simp [serving])]
          rw [unanswered, if_neg (by simp [serving])]
          exact .dispatched tended jobs serving
        | tidy left =>
          have opened := left.unserved (Int.not_lt.mp live)
          by_cases subscribed : (t.conns slot).sseSubscribed = true
          · -- the stream has just attached and has nothing to write
            have stream := (left.attached plain subscribed).1
            have unanswered : respondPhase t slot out = t := by
              rw [respondPhase, if_neg (by simp [stream])]
            rw [unanswered, if_neg (by simp [stream])]
            exact .tidy left
          · exact left.turn opened.natural (by simpa using subscribed) (answered opened)
      · exact read
  · simp only [handleReady, readPhase, if_neg reading]
    rw [if_neg (Int.not_lt.mpr unserved.natural)]
    split
    · exact answered unserved
    · exact .tidy (.refl unserved)

theorem controlConnEventHandler_turn (events : UInt32) (out : Outside) :
    Turn slot s (controlConnEventHandler parse s slot events out) := by
  rw [controlConnEventHandler]
  split
  · exact .tidy (.close unserved)
  · split
    · exact .tidy (.close unserved)
    · exact handleReady_turn unserved events out

end

/-- What a served slot keeps: everything but the descriptor of its connection. -/
def SameUse (c c' : ControlConn) : Prop := ∃ fd, c' = { c with fd := fd }

/-- On a connection that a worker serves, only an error matters, and it closes the
descriptor alone. -/
theorem controlConnEventHandler_serving (parse : Nat → List UInt8 → Parsed)
    (kept : WellKept (s.conns slot)) (natural : 0 ≤ (s.conns slot).fd)
    (serving : (s.conns slot).state = .dispatching) (events : UInt32) (out : Outside) :
    let t := controlConnEventHandler parse s slot events out
    Tended slot s t ∧ t.jobs = s.jobs ∧ SameUse (s.conns slot) (t.conns slot) := by
  have plain := kept.plain (by simp [serving])
  rw [controlConnEventHandler]
  split
  · have left : (s.conns slot).shut = { s.conns slot with fd := -1 } := by
      simp only [ControlConn.shut]
      rw [if_pos serving, ← plain]
    have closed : WellKept { s.conns slot with fd := -1 } :=
      ⟨kept.held, fun subscribed => by simp [plain] at subscribed, kept.serving, fun _ _ => serving⟩
    refine ⟨controlConnClose_tended natural (left ▸ closed), ?_, -1, ?_⟩
    · simp only [controlConnClose]
      rw [if_neg (by omega)]
    · simp only [controlConnClose]
      rw [if_neg (by omega)]
      simp [left]
  · have unread : readPhase parse s slot events out = s := by
      rw [readPhase, if_neg (by simp [serving])]
    have unanswered : respondPhase s slot out = s := by
      rw [respondPhase, if_neg (by simp [serving])]
    have idle : handleReady parse s slot events out = s := by
      simp [handleReady, unread, unanswered, serving]
    rw [if_neg (fun hup => hup.2 serving), idle]
    exact ⟨.refl kept, rfl, (s.conns slot).fd, rfl⟩

end Requests

section Flushing

variable {slot : Nat} {s : KithControl}

theorem sseFlushRecords_tidy (unserved : Unserved slot s) (start j : UInt32)
    (records : List EventRecord) :
    Tidy slot s (sseFlushRecords slot start records j s) ∧
      (Unblocked s.socket.answer → Settled (s.conns slot) →
        Settled ((sseFlushRecords slot start records j s).conns slot)) := by
  induction records generalizing s j with
  | nil => exact ⟨.refl unserved, fun _ settled => settled⟩
  | cons r records ih =>
    simp only [sseFlushRecords]
    split
    · obtain ⟨loaded, opened⟩ := Tidy.of_setConn (c := { s.conns slot with
          resp := { (s.conns slot).resp with bytes := sseLine r }, writePos := 0 }) unserved
        ⟨rfl, rfl, rfl, rfl⟩ unserved.stream unserved.idle
      obtain ⟨wrote, out, _⟩ := handleWrite_spec opened
      have written := loaded.trans opened.natural wrote
      generalize handleWrite _ slot = t at written out ⊢
      split
      · rename_i shut
        exact ⟨written, fun _ _ => .inl shut⟩
      · rename_i live
        have still := written.unserved (Int.not_lt.mp live)
        split
        · rename_i short
          obtain ⟨parked, waiting⟩ := Tidy.of_setConn (c := { t.conns slot with
              sseCursor := (start + j + 1) % t.eventBus.capacity, state := .writing }) still
            ⟨rfl, rfl, rfl, rfl⟩ (fun _ => .inr rfl) (by simp)
          refine ⟨written.trans still.natural
            (parked.trans waiting.natural (connRegister_tidy waiting _)), fun unblocked => ?_⟩
          rw [Response.len, ((out unblocked).resolve_left live).2] at short
          exact absurd short (Nat.not_lt_zero _)
        · obtain ⟨later, settled⟩ := ih still (j + 1)
          refine ⟨written.trans still.natural later, fun unblocked _ => ?_⟩
          refine settled (written.frame.answer ▸ unblocked) (.inr ?_)
          simp [((out unblocked).resolve_left live).1]
    · exact ih unserved _

variable (kept : WellKept (s.conns slot))
include kept

/-- A pass over a slot that is no stream at rest does nothing. -/
theorem sseFlushConn_cases :
    sseFlushConn s slot = s ∨ (s.conns slot).sseSubscribed = true ∧ Unserved slot s ∧
      Finished slot s (sseFlushConn s slot) := by
  by_cases skipped : (s.conns slot).inUse = false ∨ (s.conns slot).sseSubscribed = false ∨
      (s.conns slot).state = .writing
  · left
    rw [sseFlushConn, if_pos skipped]
  · right
    simp only [not_or, Bool.not_eq_false] at skipped
    obtain ⟨inUse, natural, state⟩ := kept.stream skipped.2.1
    have unserved : Unserved slot s := kept.unserved inUse natural (by
      rcases state with state | state <;> simp [state])
    refine ⟨skipped.2.1, unserved, ?_⟩
    obtain ⟨moved, opened⟩ := Tidy.of_setConn (c := { s.conns slot with
        sseCursor := (controlEventBusDrain s.eventBus 16 (s.conns slot).sseCursor).2 }) unserved
      ⟨rfl, rfl, rfl, rfl⟩ unserved.stream unserved.idle
    simp only [sseFlushConn]
    rw [if_neg (by simp [skipped])]
    obtain ⟨flushed, settled⟩ := sseFlushRecords_tidy opened (s.conns slot).sseCursor 0
      (controlEventBusDrain s.eventBus 16 (s.conns slot).sseCursor).1
    refine ⟨moved.trans opened.natural flushed, fun unblocked rest => ?_, fun plain => ?_⟩
    · exact settled unblocked (by simpa [Settled] using rest)
    · simp [skipped] at plain

theorem sseFlushConn_tended : Tended slot s (sseFlushConn s slot) := by
  rcases sseFlushConn_cases kept with same | ⟨_, _, left⟩
  · rw [same]
    exact .refl kept
  · exact left.toTended

theorem controlConnFlushTask_finished (serving : (s.conns slot).state = .dispatching) :
    Finished slot s (controlConnFlushTask s slot) := by
  have inUse := kept.serving serving
  have plain := kept.plain (by simp [serving])
  simp only [controlConnFlushTask]
  rw [if_neg (by simp [serving])]
  split
  · rename_i shut
    have here : (update s.conns slot { (s.conns slot).release with state := .reading }) slot =
        { (s.conns slot).release with state := .reading } := update_self ..
    refine ⟨⟨⟨⟨⟨rfl, rfl, rfl⟩, rfl⟩, fun j h => update_of_ne h .., ?_, rfl, ?_,
      fun listed => ⟨listed.valid, .freed rfl shut ?_⟩⟩, rfl, ?_, fun live => ?_⟩,
      fun _ _ => .inl ?_, fun _ => justAttached_of_unsubscribed _ ?_⟩
    all_goals simp only [KithControl.setConn, here] at *
    · rfl
    · exact .of_free rfl rfl plain (by simp)
    · rfl
    · simp
    · exact absurd live (Int.not_le.mpr shut)
    · exact shut
    · exact plain
  · rename_i live
    have conns :
        (s.setConn slot { s.conns slot with state := .writing, writePos := 0 }).conns slot =
        { s.conns slot with state := .writing, writePos := 0 } := update_self ..
    have opened : Unserved slot (s.setConn slot { s.conns slot with
        state := .writing, writePos := 0 }) := by
      constructor
      all_goals rw [conns]
      · exact kept.held.trans inUse
      · exact inUse
      · exact Int.not_lt.mp live
      · exact fun _ => .inr rfl
      · simp
    have step :
        Tidy slot s (s.setConn slot { s.conns slot with state := .writing, writePos := 0 }) :=
      ⟨⟨⟨⟨rfl, rfl, rfl⟩, rfl⟩, fun j h => update_of_ne h .., by rw [conns], rfl, opened.kept,
        fun listed => ⟨listed.valid, .kept rfl (by rw [conns]) (by rw [conns])⟩⟩, rfl, opened.idle,
        fun _ => opened.inUse⟩
    have written := writeOut_written opened
    exact ⟨step.trans opened.natural written.toTidy, fun unblocked _ => written.settled unblocked,
      fun _ => written.attached (by rw [conns]; exact plain)⟩

end Flushing

end Kith.Control
