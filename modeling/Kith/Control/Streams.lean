import Kith.Lib.LogRing
import Kith.Control.Dispatch

/-!
# Delivery on the event streams

The event bus is a ring that the flush pass reads through one cursor for each
attached stream. Here the control plane runs beside a record of what happened: the
events published, where in them each stream attached, and the bytes written to it
since. The flush pass is taken apart, one stream at a time and the reclaiming of the
ring in two steps, so that events are published at any point of it.
-/

namespace Kith.Control

open Kith.Reactor LogRing Runs Function List

section Machine

variable (s : KithControl)

/-- The bytes that `handle_write` puts on the slot's socket. -/
def writtenBy (slot : Nat) : List UInt8 :=
  let c := s.conns slot
  let (_, pos, _) :=
    drainWrites s.socket.answer c.resp.len (c.resp.len - c.writePos) c.writePos s.socket.asked
  (c.resp.bytes.drop c.writePos).take (pos - c.writePos)

/-- The bytes that the lines of the drained records put there. -/
def recordsWritten (slot : Nat) : List EventRecord → KithControl → List UInt8
  | [], _ => []
  | r :: records, s =>
    let c := s.conns slot
    let line := sseLine r
    if line.length < c.writeCap then
      let s := s.setConn slot { c with resp := { c.resp with bytes := line }, writePos := 0 }
      let s' := handleWrite s slot
      writtenBy s slot ++
        if (s'.conns slot).fd < 0 then []
        else if (s'.conns slot).writePos < (s'.conns slot).resp.len then []
        else recordsWritten slot records s'
    else recordsWritten slot records s

/-- The bytes that a flush pass over the slot puts there. -/
def passWritten (slot : Nat) : List UInt8 :=
  let c := s.conns slot
  if c.inUse = false ∨ c.sseSubscribed = false ∨ c.state = .writing then []
  else
    let (records, cursor) := controlEventBusDrain s.eventBus 16 c.sseCursor
    recordsWritten slot records (s.setConn slot { c with sseCursor := cursor })

/-- The bytes that the handler of a ready descriptor puts on a stream. -/
def readyWritten (slot : Nat) (events : UInt32) : List UInt8 :=
  if events &&& reactorErr ≠ 0 then []
  else if events &&& reactorHup ≠ 0 then []
  else if events &&& reactorOut ≠ 0 ∧ (s.conns slot).state = .writing then writtenBy s slot
  else []

/-- The bytes that an operation puts on the stream of a slot. -/
def callWritten (op : ControlOp) (i : Nat) : List UInt8 :=
  match op with
  | .ready fd events _ =>
    if runDispatch s.reactor fd = some (.conn i) then readyWritten s i events else []
  | _ => []

def stored (event : EventRecord) : EventRecord := { event with type := event.type.take 63 }

/-- The record that an operation appends to the published ones. -/
def callPublished : ControlOp → List EventRecord
  | .publish event => if (controlEventBusPublish s.eventBus event).1 then [stored event] else []
  | _ => []

/-- The first half of `control_bus_reclaim`: the cursor to release up to. -/
def reclaimCursor : UInt32 :=
  match (List.range s.connCount).foldl (minCursor s) none with
  | none => s.eventBus.head
  | some (_, cursor) => cursor

/-- Where the flush pass stands: before the slot `next`, or between the two halves of
the reclaim. -/
inductive Pass where
  | idle
  | flushing (next : Nat)
  | scanned (cursor : UInt32)

structure StreamRun where
  control : KithControl
  /-- The events published so far. -/
  log : List EventRecord
  /-- For the stream of a slot, how many events were published when it attached. -/
  joined : Nat → Nat
  /-- The bytes written to it since. -/
  sent : Nat → List UInt8
  pass : Pass

def Attaches (s t : KithControl) (i : Nat) : Prop :=
  (s.conns i).sseSubscribed = false ∧ (t.conns i).sseSubscribed = true

instance (s t : KithControl) (i : Nat) : Decidable (Attaches s t i) :=
  inferInstanceAs (Decidable (_ ∧ _))

/-- The books after a step of the control plane. -/
def StreamRun.enter (r : StreamRun) (control : KithControl) (written : Nat → List UInt8) :
    StreamRun :=
  { r with
    control := control
    joined := fun i => if Attaches r.control control i then r.log.length else r.joined i
    sent := fun i => if Attaches r.control control i then [] else r.sent i ++ written i }

inductive StreamOp where
  | call (op : ControlOp)
  | flush

def StreamRun.flushStep (r : StreamRun) : StreamRun :=
  match r.pass with
  | .idle => { r with pass := .flushing 0 }
  | .flushing slot =>
    if slot < r.control.connCount then
      { r.enter (sseFlushConn r.control slot)
          (fun i => if i = slot then passWritten r.control slot else []) with
        pass := .flushing (slot + 1) }
    else { r with pass := .scanned (reclaimCursor r.control) }
  | .scanned cursor =>
    { r with
      control := { r.control with eventBus := controlEventBusRelease r.control.eventBus cursor }
      pass := .idle }

variable (parse : Nat → List UInt8 → Parsed) (r : StreamRun)

def StreamRun.step : StreamOp → StreamRun
  | .call op =>
    { r.enter (r.control.step parse op) (callWritten r.control op) with
      log := r.log ++ callPublished r.control op }
  | .flush => r.flushStep

/-- Publishers and workers have threads of their own; the other callbacks wait for the
pass to end. -/
def StreamOp.Free : StreamOp → Prop
  | .call (.publish _) => True
  | .call (.worker _ _ _ _) => True
  | .call (.ready fd events out) =>
    r.pass = .idle ∧ (ControlOp.ready fd events out).Fresh r.control
  | .call .flush => r.pass = .idle
  | .call .sseFlush => False
  | .flush => True

/-- The line of a published event is shorter than the write buffers. -/
def StreamOp.Fits : StreamOp → Prop
  | .call (.publish event) => (sseLine (stored event)).length < r.control.writeBufferCap
  | _ => True

instance (r : StreamRun) (op : StreamOp) : Decidable (op.Fits r) := by
  unfold StreamOp.Fits
  split <;> infer_instance

end Machine

section Writing

variable {s : KithControl} {slot : Nat}

theorem drainWrites_spec (answer : Nat → WriteResult) (len : Nat) {fuel pos : Nat} (asked : Nat)
    (inside : pos ≤ len) (enough : len - pos ≤ fuel) :
    let d := drainWrites answer len fuel pos asked
    pos ≤ d.2.1 ∧ d.2.1 ≤ len ∧ (d.1 = .done → d.2.1 = len) ∧ (d.1 = .stalled → d.2.1 < len) := by
  induction fuel generalizing pos asked with
  | zero =>
    have whole : pos = len := by omega
    simp [drainWrites, whole]
  | succ fuel ih =>
    rw [drainWrites]
    split
    · have whole : pos = len := by omega
      simp [whole]
    · rename_i unfinished
      split
      · rename_i more _
        have inside' : pos + min (more + 1) (len - pos) ≤ len := by omega
        obtain ⟨forward, rest⟩ := ih (asked + 1) inside' (by omega)
        exact ⟨by omega, rest⟩
      · exact ⟨le_rfl, inside, by simp, fun _ => Nat.lt_of_not_le unfinished⟩
      · exact ⟨le_rfl, inside, by simp, fun _ => Nat.lt_of_not_le unfinished⟩
      · exact ⟨le_rfl, inside, by simp, by simp⟩

/-- What `handle_write` leaves of a connection that streams, and what it wrote. -/
inductive Wrote (head : UInt32) (c c' : ControlConn) (written : List UInt8) : Prop where
  | closed (unsubscribed : c'.sseSubscribed = false) (shut : c'.fd < 0)
  | stalled (pos : Nat) (forward : c.writePos ≤ pos) (short : pos < c.resp.len)
      (left : c' = { c with writePos := pos })
      (bytes : written = (c.resp.bytes.drop c.writePos).take (pos - c.writePos))
  | finished (left : c' = { c with
        writePos := 0
        resp := { c.resp with bytes := [] }
        state := .sse
        sseSubscribed := true
        sseCursor := if c.sseSubscribed then c.sseCursor else head })
      (bytes : written = c.resp.bytes.drop c.writePos)

theorem handleWrite_wrote (stream : (s.conns slot).resp.sse = true)
    (inside : (s.conns slot).writePos ≤ (s.conns slot).resp.len) (natural : 0 ≤ (s.conns slot).fd) :
    Wrote s.eventBus.head (s.conns slot) ((handleWrite s slot).conns slot) (writtenBy s slot) := by
  obtain ⟨forward, bound, done, stalled⟩ := drainWrites_spec s.socket.answer
    (s.conns slot).resp.len s.socket.asked inside le_rfl
  simp only [handleWrite, writtenBy]
  generalize drainWrites s.socket.answer (s.conns slot).resp.len
    ((s.conns slot).resp.len - (s.conns slot).writePos) (s.conns slot).writePos s.socket.asked
    = outcome at forward bound done stalled ⊢
  obtain ⟨drained, pos, asked⟩ := outcome
  simp only at forward bound done stalled ⊢
  cases drained with
  | stalled =>
    exact .stalled pos forward (stalled rfl) (by simp) rfl
  | failed =>
    refine .closed ?_ (controlConnClose_fd _ slot)
    simp only [controlConnClose, update_self]
    rw [if_neg (by omega)]
    simp [shut_unsubscribed]
  | done =>
    have whole := done rfl
    simp only [stream, if_true]
    refine .finished (by simp [enterStream]) ?_
    rw [whole]
    apply take_of_length_le
    rw [length_drop]
    exact le_rfl

end Writing

section Following

def linesOf (events : List EventRecord) : List UInt8 := (events.map sseLine).flatten

/-- The events from number `a` to before number `b`. -/
def eventsFrom (log : List EventRecord) (a b : Nat) : List EventRecord := (log.drop a).take (b - a)

variable {cap : Nat} {log : List EventRecord} {joined p : Nat} {c c' : ControlConn}
    {e : EventRecord}
  {sent written : List UInt8} {head : UInt32}

theorem eventsFrom_succ (hp : joined ≤ p) (entry : log[p]? = some e) :
    eventsFrom log joined (p + 1) = eventsFrom log joined p ++ [e] := by
  have next : (log.drop joined)[p - joined]? = some e := by
    rw [getElem?_drop, Nat.add_sub_cancel' hp, entry]
  have count : p + 1 - joined = p - joined + 1 := by omega
  rw [eventsFrom, eventsFrom, count, take_add_one, next, Option.toList_some]

theorem eventsFrom_append (hp : p ≤ log.length) (more : List EventRecord) :
    eventsFrom (log ++ more) joined p = eventsFrom log joined p := by
  rw [eventsFrom, eventsFrom, drop_append, take_append_of_le_length]
  rw [length_drop]
  omega

theorem linesOf_concat (events : List EventRecord) (e : EventRecord) :
    linesOf (events ++ [e]) = linesOf events ++ sseLine e := by
  simp [linesOf]

/-- The stream has all events up to number `p` and waits. -/
structure Resting (log : List EventRecord) (joined : Nat) (c : ControlConn) (sent : List UInt8)
    (p : Nat) : Prop where
  state : c.state = .sse
  bytes : sent = linesOf (eventsFrom log joined p)

/-- The line of event number `p` is in the write buffer, and a part of it is out. -/
structure Parked (log : List EventRecord) (joined : Nat) (c : ControlConn) (sent : List UInt8)
    (p : Nat) (e : EventRecord) : Prop where
  entry : log[p]? = some e
  behind : joined ≤ p
  state : c.state = .writing
  line : c.resp.bytes = sseLine e
  short : c.writePos < c.resp.len
  bytes : sent = linesOf (eventsFrom log joined p) ++ (sseLine e).take c.writePos

/-- An attached stream whose cursor stands before event number `p`. -/
structure Follows (cap : Nat) (log : List EventRecord) (joined : Nat) (c : ControlConn)
    (sent : List UInt8) (p : Nat) : Prop where
  cursor : c.sseCursor.toNat = p % cap
  behind : joined ≤ p
  within : p ≤ log.length
  sse : c.resp.sse = true
  at_rest : Resting log joined c sent p ∨ ∃ q e, p = q + 1 ∧ Parked log joined c sent q e

theorem Follows.append (follows : Follows cap log joined c sent p) (more : List EventRecord) :
    Follows cap (log ++ more) joined c sent p := by
  obtain ⟨cursor, behind, within, sse, resting | ⟨q, e, rfl, parked⟩⟩ := follows
  · refine ⟨cursor, behind, by rw [length_append]; omega, sse, .inl ⟨resting.state, ?_⟩⟩
    rw [eventsFrom_append within]
    exact resting.bytes
  · refine ⟨cursor, behind, by rw [length_append]; omega, sse,
      .inr ⟨q, e, rfl, { parked with entry := ?_, bytes := ?_ }⟩⟩
    · rw [getElem?_append_left (by omega)]
      exact parked.entry
    · rw [eventsFrom_append (by omega)]
      exact parked.bytes

theorem Parked.wrote (parked : Parked log joined c sent p e) (subscribed : c.sseSubscribed = true)
    (sse : c.resp.sse = true) (cursor : c.sseCursor.toNat = (p + 1) % cap)
    (wrote : Wrote head c c' written) (still : c'.sseSubscribed = true) :
    Follows cap log joined c' (sent ++ written) (p + 1) := by
  have within : p + 1 ≤ log.length := by
    obtain ⟨inside, _⟩ := List.getElem?_eq_some_iff.mp parked.entry
    exact inside
  have behind := parked.behind
  cases wrote with
  | closed unsubscribed _ =>
    rw [unsubscribed] at still
    cases still
  | stalled pos forward short left bytes =>
    subst left
    refine ⟨cursor, by omega, within, sse, .inr ⟨p, e, rfl, { parked with short, bytes := ?_ }⟩⟩
    rw [parked.bytes, bytes, parked.line, append_assoc]
    congr 1
    have split : pos = c.writePos + (pos - c.writePos) := by omega
    conv_rhs => rw [split, take_add]
  | finished left bytes =>
    subst left
    refine ⟨?_, by omega, within, sse, .inl ⟨rfl, ?_⟩⟩
    · simp only [subscribed, if_true]
      exact cursor
    · rw [eventsFrom_succ behind parked.entry, linesOf_concat, parked.bytes, bytes, parked.line,
        append_assoc, take_append_drop]

theorem Follows.attach (hcap : head.toNat = log.length % cap) (state : c.state = .sse)
    (sse : c.resp.sse = true) (cursor : c.sseCursor = head) :
    Follows cap log log.length c [] log.length := by
  refine ⟨by rw [cursor, hcap], le_rfl, le_rfl, sse, .inl ⟨state, ?_⟩⟩
  simp [eventsFrom, linesOf]

end Following

section Bus

variable {bus : EventBus} {log : List EventRecord} {low p q : Nat} {x y : UInt32}

/-- The ring holds the published events from number `low` on. -/
structure BusHolds (bus : EventBus) (log : List EventRecord) (low : Nat) : Prop where
  bound : bus.capacity.toNat ≤ 2 ^ 31
  holds : Holds bus.capacity.toNat bus.records log low
  head : bus.head.toNat = log.length % bus.capacity.toNat
  tail : bus.tail.toNat = low % bus.capacity.toNat

variable (held : BusHolds bus log low)
include held

theorem BusHolds.positive : 0 < bus.capacity.toNat := by
  have := held.holds.le
  have := held.holds.room
  omega

theorem BusHolds.cell_lt (p : Nat) :
    p % bus.capacity.toNat < bus.capacity.toNat := Nat.mod_lt _ held.positive

theorem BusHolds.advance (hx : x.toNat = p % bus.capacity.toNat) (few : y.toNat < 2 ^ 31) :
    ((x + y) % bus.capacity).toNat = (p + y.toNat) % bus.capacity.toNat := by
  have hlt := held.cell_lt p
  have hbound := held.bound
  have hsum : (x + y).toNat = x.toNat + y.toNat := by
    rw [UInt32.toNat_add, Nat.mod_eq_of_lt (by omega)]
  rw [UInt32.toNat_mod, hsum, hx, Nat.mod_add_mod]

theorem BusHolds.distance (hx : x.toNat = q % bus.capacity.toNat)
    (hy : y.toNat = p % bus.capacity.toNat) (near : p ≤ q) (lap : q < p + bus.capacity.toNat) :
    ((x + bus.capacity - y) % bus.capacity).toNat = q - p := by
  have hlt := held.cell_lt q
  have hlt' := held.cell_lt p
  have hbound := held.bound
  have hsum : (x + bus.capacity).toNat = x.toNat + bus.capacity.toNat := by
    rw [UInt32.toNat_add, Nat.mod_eq_of_lt (by omega)]
  have hle : y ≤ x + bus.capacity := by
    rw [UInt32.le_iff_toNat_le, hsum]
    omega
  rw [UInt32.toNat_mod, UInt32.toNat_sub_of_le _ _ hle, hsum, hx, hy]
  exact distance_eq near lap

theorem BusHolds.drain (max : Nat) (hlow : low ≤ p) (hp : p ≤ log.length)
    (hx : x.toNat = p % bus.capacity.toNat) :
    (controlEventBusDrain bus max x).1 = (log.drop p).take max ∧
      (controlEventBusDrain bus max x).2.toNat =
        (p + ((log.drop p).take max).length) % bus.capacity.toNat := by
  induction max generalizing p x with
  | zero => simp [controlEventBusDrain, hx]
  | succ max ih =>
    have room := held.holds.room
    rw [controlEventBusDrain]
    split
    · rename_i last
      have hend : p = log.length := by
        have lap : log.length < p + bus.capacity.toNat := by omega
        refine eq_of_cell_eq hp lap ?_
        rw [← hx, ← held.head, last]
      simp [hend, held.head, last]
    · rename_i more
      have inside : p < log.length := by
        refine Nat.lt_of_le_of_ne hp fun hend => more ?_
        apply UInt32.toNat_inj.mp
        rw [hx, held.head, hend]
      have next : ((x + 1) % bus.capacity).toNat = (p + 1) % bus.capacity.toNat :=
        held.advance hx (by decide)
      obtain ⟨records, cursor⟩ := ih (p := p + 1) (by omega) inside next
      have entry : bus.records x.toNat = log[p] := by rw [hx, held.holds.cell p inside hlow]
      dsimp only
      rw [drop_eq_getElem_cons inside, take_succ_cons, records, entry]
      refine ⟨rfl, ?_⟩
      rw [cursor, length_cons]
      congr 1
      omega

/-- What a stream at `p` still needs is in the ring. -/
theorem BusHolds.drain_all (hlow : low ≤ p) (hp : p ≤ log.length)
    (hx : x.toNat = p % bus.capacity.toNat) :
    (controlEventBusDrain bus log.length x).1 = log.drop p := by
  rw [(held.drain log.length hlow hp hx).1, take_of_length_le]
  rw [length_drop]
  omega

theorem BusHolds.publish (event : EventRecord) :
    BusHolds (controlEventBusPublish bus event).2
      (log ++ if (controlEventBusPublish bus event).1 then [stored event] else []) low := by
  have next : ((bus.head + 1) % bus.capacity).toNat = (log.length + 1) % bus.capacity.toNat :=
    held.advance held.head (by decide)
  simp only [controlEventBusPublish]
  split
  · simpa using held
  · rename_i room
    have space : log.length + 1 < low + bus.capacity.toNat := by
      have below := held.holds.room
      refine Nat.lt_of_le_of_ne below fun full => room ?_
      apply UInt32.toNat_inj.mp
      rw [next, held.tail]
      exact held.holds.full_iff.mpr full
    refine ⟨held.bound, ?_, ?_, held.tail⟩
    · rw [if_pos rfl, held.head]
      exact held.holds.append space (stored event)
    · simpa using next

theorem BusHolds.release (forward : low ≤ q) (hq : q ≤ log.length)
    (hx : x.toNat = q % bus.capacity.toNat) : BusHolds (controlEventBusRelease bus x) log q := by
  have room := held.holds.room
  have live := held.distance held.head held.tail held.holds.le room
  have ahead := held.distance hx held.tail forward (by omega)
  have inside : ¬ (bus.head + bus.capacity - bus.tail) % bus.capacity <
      (x + bus.capacity - bus.tail) % bus.capacity := by
    rw [UInt32.lt_iff_toNat_lt, live, ahead]
    omega
  simp only [controlEventBusRelease]
  rw [if_neg inside]
  exact ⟨held.bound, held.holds.release forward hq, held.head, hx⟩

end Bus

section Passing

variable {s : KithControl} {slot joined low : Nat} {log : List EventRecord} {sent : List UInt8}

/-- The slot with the line of `r` in its write buffer. -/
def loaded (s : KithControl) (slot : Nat) (r : EventRecord) : KithControl :=
  s.setConn slot { s.conns slot with
    resp := { (s.conns slot).resp with bytes := sseLine r }
    writePos := 0 }

/-- The lines of the next events, from a stream at rest before event number `p`: the
stream is gone, or it has some of them and perhaps a part of one more. The cursor is
already behind all of them, and a line that stalls takes it back. -/
theorem sseFlushRecords_follows (records : List EventRecord) {p p₀ : Nat} {start j : UInt32}
    (unserved : Unserved slot s) (held : BusHolds s.eventBus log low)
    (resting : Resting log joined (s.conns slot) sent p) (sse : (s.conns slot).resp.sse = true)
    (subscribed : (s.conns slot).sseSubscribed = true) (behind : joined ≤ p)
    (within : p ≤ log.length) (next : (log.drop p).take records.length = records)
    (cursor : (s.conns slot).sseCursor.toNat = (p + records.length) % s.eventBus.capacity.toNat)
    (from_start : start.toNat = p₀ % s.eventBus.capacity.toNat) (at_j : p = p₀ + j.toNat)
    (few : j.toNat + records.length ≤ 16)
    (fits : ∀ e ∈ records, (sseLine e).length < (s.conns slot).writeCap)
    (still : ((sseFlushRecords slot start records j s).conns slot).sseSubscribed = true) :
    ∃ q, p ≤ q ∧ Follows s.eventBus.capacity.toNat log joined
      ((sseFlushRecords slot start records j s).conns slot)
      (sent ++ recordsWritten slot records s) q := by
  induction records generalizing s j p sent with
  | nil =>
    rw [sseFlushRecords, recordsWritten, append_nil]
    exact ⟨p, le_rfl, cursor, behind, within, sse, .inl resting⟩
  | cons r records ih =>
    have inside : p < log.length := by
      have := congrArg length next
      simp only [length_take, length_drop, length_cons] at this
      omega
    rw [drop_eq_getElem_cons inside, length_cons, take_succ_cons, cons.injEq] at next
    have entry : log[p]? = some r := by rw [getElem?_eq_getElem inside, next.1]
    rw [length_cons] at cursor few
    have one_more : (j + 1).toNat = j.toNat + 1 := by
      rw [UInt32.toNat_add, Nat.mod_eq_of_lt]
      · rfl
      · have : (1 : UInt32).toNat = 1 := rfl
        omega
    -- The write of this line, from its first byte.
    have opened : Unserved slot (loaded s slot r) :=
      And.right (Tidy.of_setConn unserved ⟨rfl, rfl, rfl, rfl⟩ unserved.stream unserved.idle)
    have tidy := (handleWrite_spec opened).1
    have wrote : Wrote (loaded s slot r).eventBus.head ((loaded s slot r).conns slot)
        ((handleWrite (loaded s slot r) slot).conns slot) (writtenBy (loaded s slot r) slot) :=
      handleWrite_wrote (by simpa [loaded] using sse) (by simp [loaded]) opened.natural
    generalize result : handleWrite (loaded s slot r) slot = t at wrote tidy
    have bus : t.eventBus = s.eventBus := tidy.frame.bus
    have load : s.setConn slot { s.conns slot with
        resp := { (s.conns slot).resp with bytes := sseLine r }, writePos := 0 } =
          loaded s slot r := rfl
    simp only [sseFlushRecords] at still ⊢
    simp only [recordsWritten]
    rw [if_pos (fits r mem_cons_self), load, result] at still ⊢
    rw [if_pos (fits r mem_cons_self)]
    generalize writtenBy (loaded s slot r) slot = bytes at wrote ⊢
    have now : (loaded s slot r).conns slot = { s.conns slot with
        resp := { (s.conns slot).resp with bytes := sseLine r }, writePos := 0 } := by
      simp [loaded]
    rw [now] at wrote
    cases wrote with
    | closed unsubscribed shut =>
      rw [if_pos shut, unsubscribed] at still
      cases still
    | stalled pos forward short left out =>
      have fd : ¬ (t.conns slot).fd < 0 := by
        rw [left]
        exact Int.not_lt.mpr unserved.natural
      have parked : (t.conns slot).writePos < (t.conns slot).resp.len := by
        rw [left]
        exact short
      rw [if_neg fd, if_pos parked, (connRegister_conns _ _ _).1]
      rw [if_neg fd, if_pos parked, append_nil]
      simp only [KithControl.setConn, update_self, bus, left]
      refine ⟨p + 1, Nat.le_succ p, ?_, by omega, inside, sse,
        .inr ⟨p, r, rfl, entry, behind, rfl, rfl, short, ?_⟩⟩
      · rw [UInt32.add_assoc, held.advance from_start (by omega), at_j, one_more, Nat.add_assoc]
      · rw [resting.bytes, out]
        rfl
    | finished left out =>
      have fd : ¬ (t.conns slot).fd < 0 := by
        rw [left]
        exact Int.not_lt.mpr unserved.natural
      have empty : ¬ (t.conns slot).writePos < (t.conns slot).resp.len := by
        rw [left]
        exact Nat.not_lt_zero _
      rw [if_neg fd, if_neg empty] at still ⊢
      rw [if_neg fd, if_neg empty, ← append_assoc]
      have resting' : Resting log joined (t.conns slot) (sent ++ bytes) (p + 1) := by
        rw [left]
        refine ⟨rfl, ?_⟩
        rw [eventsFrom_succ behind entry, linesOf_concat, resting.bytes, out]
        rfl
      have cursor' : (t.conns slot).sseCursor.toNat =
          (p + 1 + records.length) % t.eventBus.capacity.toNat := by
        rw [left, bus]
        simp only [subscribed, if_true, cursor]
        congr 1
        omega
      have fits' : ∀ e ∈ records, (sseLine e).length < (t.conns slot).writeCap := by
        intro e he
        rw [left]
        exact fits e (mem_cons_of_mem _ he)
      rw [← bus] at held from_start
      obtain ⟨q, forward, follows⟩ := ih (tidy.unserved (Int.not_lt.mp fd)) held resting'
        (by rw [left]; exact sse) (by rw [left]) (by omega) inside next.2 cursor' from_start
        (by rw [at_j, one_more]; rfl) (by omega) fits' still
      exact ⟨q, by omega, bus ▸ follows⟩

theorem sseFlushConn_follows {p : Nat} (sound : Sound s) (held : BusHolds s.eventBus log low)
    (follows : Follows s.eventBus.capacity.toNat log joined (s.conns slot) sent p) (ahead : low ≤ p)
    (subscribed : (s.conns slot).sseSubscribed = true)
    (fits : ∀ e ∈ log, (sseLine e).length < s.writeBufferCap)
    (still : ((sseFlushConn s slot).conns slot).sseSubscribed = true) :
    ∃ q, p ≤ q ∧ Follows s.eventBus.capacity.toNat log joined ((sseFlushConn s slot).conns slot)
      (sent ++ passWritten s slot) q := by
  obtain ⟨inUse, natural, state⟩ := (sound.kept slot).stream subscribed
  simp only [sseFlushConn, passWritten] at still ⊢
  by_cases writing : (s.conns slot).state = .writing
  · rw [if_pos (.inr (.inr writing))]
    rw [if_pos (.inr (.inr writing)), append_nil]
    exact ⟨p, le_rfl, follows⟩
  · have unserved := (sound.kept slot).unserved inUse natural (by
      rcases state with state | state <;> simp [state])
    have due : ¬ ((s.conns slot).inUse = false ∨ (s.conns slot).sseSubscribed = false ∨
        (s.conns slot).state = .writing) := by
      simp [inUse, subscribed, writing]
    have resting : Resting log joined (s.conns slot) sent p := by
      rcases follows.at_rest with resting | ⟨q, e, _, parked⟩
      · exact resting
      · exact absurd parked.state writing
    rw [if_neg due] at still ⊢
    rw [if_neg due]
    obtain ⟨records, cursor⟩ := held.drain 16 ahead follows.within follows.cursor
    generalize controlEventBusDrain s.eventBus 16 (s.conns slot).sseCursor = drained
      at records cursor still ⊢
    obtain ⟨drained, behind⟩ := drained
    dsimp only at records cursor still ⊢
    have opened : Unserved slot (s.setConn slot { s.conns slot with sseCursor := behind }) :=
      And.right (Tidy.of_setConn unserved ⟨rfl, rfl, rfl, rfl⟩ unserved.stream unserved.idle)
    have whole : (log.drop p).take drained.length = drained := by
      rw [records, take_eq_take_iff, length_take]
      omega
    have at_start : p = p + (0 : UInt32).toNat := rfl
    refine sseFlushRecords_follows drained opened held
      ?_ (by simpa using follows.sse)
        (by simpa using subscribed) follows.behind follows.within whole
      ?_ follows.cursor at_start ?_ (fun e he => ?_) still
    · simp only [KithControl.setConn, update_self]
      exact ⟨resting.state, resting.bytes⟩
    · simp only [KithControl.setConn, update_self]
      rw [cursor, ← records]
    · rw [records, length_take]
      exact Nat.le_trans (Nat.add_le_add_left (Nat.min_le_left ..) _) (by decide)
    · simp only [KithControl.setConn, update_self]
      rw [sound.caps slot inUse]
      refine fits e (mem_of_mem_drop (mem_of_mem_take (?_ : e ∈ (log.drop p).take 16)))
      rw [← records]
      exact he

end Passing

end Kith.Control
