import Kith.Reactor.FdTable
import Kith.Control.Router

/-!
# Connections of the control plane

The connection table, the event bus, and the callbacks the reactor makes on
them: a readable listener or connection, a queued flush task, the periodic flush
of the event streams. The worker pool and the reactor's task queue are the lists
of slots they hold. The request parser is a parameter, and what handlers, reads
and the pool answer comes with each callback; writes answer from a script that
runs through the whole history, as allocations do.
-/

namespace Kith.Control

open Kith.Reactor Function

inductive ConnState where
  | reading | responding | dispatching | writing | sse | closing
  deriving DecidableEq

inductive ControlSite where
  | readBuffer | writeBuffer | headerScratch
  deriving DecidableEq

/-- Who is called for a ready descriptor; the reactor may serve others. -/
inductive Handler where
  | listener
  | conn (slot : Nat)
  | other (id : Nat)
  deriving DecidableEq

/-- `kith_control_conn`. `readBuf` holds the `read_pos` bytes read, and `buffers`
says whether its three buffers are allocated. -/
structure ControlConn where
  state : ConnState
  fd : Int
  inUse : Bool
  buffers : Bool
  readCap : Nat
  readBuf : List UInt8
  writeCap : Nat
  writePos : Nat
  request : Request
  resp : Response
  sseSubscribed : Bool
  sseCursor : UInt32
  deriving DecidableEq

def ControlConn.zero : ControlConn :=
  ⟨.reading, 0, false, false, 0, [], 0, 0, ⟨.get, [], [], []⟩, ⟨[], false⟩, false, 0⟩

structure EventRecord where
  tsMonoNs : UInt64
  type : List UInt8
  deriving DecidableEq

structure EventBus where
  records : Nat → EventRecord
  capacity : UInt32
  head : UInt32
  tail : UInt32

/-- What a `write` returns; a socket takes at least one byte or fails. -/
inductive WriteResult where
  | wrote (more : Nat)
  | wouldBlock
  | intr
  | error
  deriving DecidableEq

/-- The answers of all the writes, by the number of the call. -/
structure Socket where
  answer : Nat → WriteResult
  asked : Nat

structure KithControl where
  reactor : KithReactor Handler
  workers : Bool
  maxConnections : Nat
  readBufferCap : Nat
  writeBufferCap : Nat
  conns : Nat → ControlConn
  connCount : Nat
  routes : List RouteEntry
  eventBus : EventBus
  sseSubscribers : UInt32
  dispatchDropped : Nat
  /-- Slots whose route task the worker pool holds. -/
  jobs : List Nat
  /-- Slots whose flush task the reactor holds, in order. -/
  tasks : List Nat
  socket : Socket
  heap : Heap ControlSite

@[simp]
def KithControl.setConn (s : KithControl) (slot : Nat) (conn : ControlConn) : KithControl :=
  { s with conns := update s.conns slot conn }

section EventBus

/-- A publish into a full ring is dropped. Types are cut to 63 bytes. -/
def controlEventBusPublish (bus : EventBus) (event : EventRecord) : Bool × EventBus :=
  let next := (bus.head + 1) % bus.capacity
  if next = bus.tail then (false, bus)
  else
    (true, { bus with
      records := update bus.records bus.head.toNat
        { event with type := event.type.take 63 }
      head := next })

/-- At most `max` records from `cursor` on, and the cursor behind them. -/
def controlEventBusDrain (bus : EventBus) : Nat → UInt32 → List EventRecord × UInt32
  | 0, cursor => ([], cursor)
  | max + 1, cursor =>
    if cursor = bus.head then ([], cursor)
    else
      let (records, next) := controlEventBusDrain bus max ((cursor + 1) % bus.capacity)
      (bus.records cursor.toNat :: records, next)

def controlEventBusRelease (bus : EventBus) (cursor : UInt32) : EventBus :=
  let live := (bus.head + bus.capacity - bus.tail) % bus.capacity
  if live < (cursor + bus.capacity - bus.tail) % bus.capacity then bus
  else { bus with tail := cursor }

def sseLine (r : EventRecord) : List UInt8 :=
  ascii "data: \x7b\"type\":\"" ++ r.type ++ ascii "\",\"ts\":" ++
    ascii (toString r.tsMonoNs.toNat) ++ ascii "\x7d\n\n"

end EventBus

section Lifecycle

variable (s : KithControl)

def connRegister (slot : Nat) (events : UInt32) : KithControl :=
  if (s.conns slot).fd < 0 then s
  else { s with reactor := (kithReactorAdd s.reactor (s.conns slot).fd events (.conn slot)).2 }

def connDeregister (r : KithReactor Handler) (c : ControlConn) : KithReactor Handler :=
  if 0 ≤ c.fd then (kithReactorDel r c.fd).2 else r

/-- A cleared slot with its buffers, or as far as they were granted. -/
def allocBuffers (readCap writeCap : Nat) (heap : Heap ControlSite) :
    Bool × ControlConn × Heap ControlSite :=
  let blank := { ControlConn.zero with fd := -1 }
  match heap.request .readBuffer with
  | (false, heap) => (false, blank, heap)
  | (true, heap) =>
    match heap.request .writeBuffer with
    | (false, heap) => (false, { blank with readCap := readCap }, heap)
    | (true, heap) =>
      match heap.request .headerScratch with
      | (false, heap) => (false, { blank with readCap := readCap, writeCap := writeCap }, heap)
      | (true, heap) =>
        (true, { blank with
          readCap := readCap
          writeCap := writeCap
          buffers := true
          inUse := true }, heap)

/-- The first free slot; a refused buffer leaves it cleared and free. -/
def controlConnAlloc : Option Nat × KithControl :=
  match (List.range s.maxConnections).find? fun i => !(s.conns i).inUse with
  | none => (none, s)
  | some slot =>
    match allocBuffers s.readBufferCap s.writeBufferCap s.heap with
    | (false, c, heap) =>
      (none, { s with conns := update s.conns slot c, heap := heap })
    | (true, c, heap) =>
      (some slot, { s with
        conns := update s.conns slot c
        heap := heap
        connCount := if s.connCount ≤ slot then slot + 1 else s.connCount })

def ControlConn.release (c : ControlConn) : ControlConn :=
  { c with buffers := false, inUse := false }

/-- What a close leaves of a connection: one that a worker is serving keeps its
buffers and its slot. -/
def ControlConn.shut (c : ControlConn) : ControlConn :=
  let c := { c with fd := -1, sseSubscribed := false }
  if c.state = .dispatching then c else c.release

def controlConnClose (slot : Nat) : KithControl :=
  let c := s.conns slot
  if c.fd < 0 then s
  else
    { s with
      reactor := connDeregister s.reactor c
      conns := update s.conns slot c.shut
      sseSubscribers := if c.sseSubscribed then s.sseSubscribers - 1 else s.sseSubscribers }

/-- An accepted descriptor, and whether it could be made non-blocking. -/
structure Accepted where
  fd : Nat
  nonblocking : Bool
  deriving DecidableEq

def acceptConn (a : Accepted) : KithControl :=
  match controlConnAlloc s with
  | (none, s) => s
  | (some slot, s) =>
    if a.nonblocking = false then s.setConn slot (s.conns slot).release
    else
      connRegister (s.setConn slot { s.conns slot with fd := a.fd, state := .reading }) slot
        reactorIn

def handleAccept (accepts : List Accepted) : KithControl :=
  accepts.foldl acceptConn s

end Lifecycle

section Requests

inductive Parsed where
  | more
  | bad
  | complete (request : Request)
  deriving DecidableEq

inductive ReadResult where
  | data (first : UInt8) (rest : List UInt8)
  | eof
  | error
  deriving DecidableEq

inductive Drained where
  | done | stalled | failed
  deriving DecidableEq

/-- The write loop up to byte `len`: how it ended, the position reached, and the
number of writes made. Every successful write makes progress, so the bytes left
bound the rounds. -/
def drainWrites (answer : Nat → WriteResult) (len : Nat) : Nat → Nat → Nat → Drained × Nat × Nat
  | 0, pos, asked => (.done, pos, asked)
  | fuel + 1, pos, asked =>
    if len ≤ pos then (.done, pos, asked)
    else
      match answer asked with
      | .wrote more => drainWrites answer len fuel (pos + min (more + 1) (len - pos)) (asked + 1)
      | .wouldBlock => (.stalled, pos, asked + 1)
      | .intr => (.stalled, pos, asked + 1)
      | .error => (.failed, pos, asked + 1)

variable (s : KithControl)

/-- A stream whose bytes are out waits for events; a new one starts at the
publish head. -/
def enterStream (slot : Nat) : KithControl :=
  let c := s.conns slot
  { s with
    conns := update s.conns slot { c with
      writePos := 0
      resp := { c.resp with bytes := [] }
      state := .sse
      sseSubscribed := true
      sseCursor := if c.sseSubscribed then c.sseCursor else s.eventBus.head }
    sseSubscribers := if c.sseSubscribed then s.sseSubscribers else s.sseSubscribers + 1 }

def handleWrite (slot : Nat) : KithControl :=
  let c := s.conns slot
  let (drained, pos, asked) :=
    drainWrites s.socket.answer c.resp.len (c.resp.len - c.writePos) c.writePos s.socket.asked
  let s := { s with
    conns := update s.conns slot { c with writePos := pos }
    socket := ⟨s.socket.answer, asked⟩ }
  match drained with
  | .stalled => s
  | .failed => controlConnClose s slot
  | .done => if c.resp.sse then enterStream s slot else controlConnClose s slot

/-- What the outside answers within one readiness callback. -/
structure Outside where
  accepts : List Accepted
  reads : List ReadResult
  reply : Reply
  poolAccepts : Bool
  deriving DecidableEq

/-- Hands the request to the pool, or answers 503 when there is none or its queue
is full. -/
def dispatchToPool (slot : Nat) (c : ControlConn) (out : Outside) : KithControl :=
  if s.workers && out.poolAccepts then
    { s with
      conns := update s.conns slot { c with state := .dispatching }
      jobs := s.jobs ++ [slot] }
  else
    { s with
      conns := update s.conns slot { c with
        state := .writing
        resp := ⟨controlRouterWrite503 c.writeCap, false⟩ }
      dispatchDropped := s.dispatchDropped + 1 }

def handleRespond (slot : Nat) (out : Outside) : KithControl :=
  let c := { s.conns slot with resp := ⟨[], false⟩, writePos := 0 }
  if wantsWebsocket c.request then
    s.setConn slot { c with state := .writing, resp := ⟨controlRouterWrite501 c.writeCap, false⟩ }
  else
    match controlRouterDispatch s.routes c.writeCap c.request out.reply with
    | .deferred => dispatchToPool s slot c out
    | .answered reply =>
      if reply.rc ≠ 0 then controlConnClose (s.setConn slot { c with resp := reply.resp }) slot
      else s.setConn slot { c with resp := reply.resp, state := .writing }

/-- A complete request is answered at once; a response that could not be written
out asks for OUT. -/
def answerRequest (slot : Nat) (out : Outside) : KithControl :=
  let s := handleRespond s slot out
  if 0 ≤ (s.conns slot).fd ∧ (s.conns slot).state = .writing then
    let s := handleWrite s slot
    if 0 ≤ (s.conns slot).fd ∧ (s.conns slot).state = .writing then
      connRegister s slot (reactorIn ||| reactorOut)
    else s
  else s

variable (parse : Nat → List UInt8 → Parsed)

def handleRead (slot : Nat) (out : Outside) : List ReadResult → KithControl → KithControl
  | [], s => if (s.conns slot).readCap ≤ (s.conns slot).readBuf.length
      then controlConnClose s slot else s
  | result :: reads, s =>
    let c := s.conns slot
    let space := c.readCap - c.readBuf.length
    if space = 0 then controlConnClose s slot
    else
      match result with
      | .error => s
      | .eof => controlConnClose s slot
      | .data first rest =>
        let c := { c with readBuf := c.readBuf ++ (first :: rest).take space }
        match parse c.readCap c.readBuf with
        | .complete request =>
          answerRequest (s.setConn slot { c with state := .responding, request := request }) slot
            out
        | .bad => controlConnClose (s.setConn slot { c with state := .closing }) slot
        | .more => handleRead slot out reads (s.setConn slot c)

variable (s : KithControl) (slot : Nat)

def readPhase (events : UInt32) (out : Outside) : KithControl :=
  if events &&& reactorIn ≠ 0 ∧ (s.conns slot).state = .reading then
    handleRead parse slot out out.reads s
  else s

def respondPhase (out : Outside) : KithControl :=
  if (s.conns slot).state = .responding then handleRespond s slot out else s

/-- The handler of a ready connection behind its error branches. -/
def handleReady (events : UInt32) (out : Outside) : KithControl :=
  let s := readPhase parse s slot events out
  if (s.conns slot).fd < 0 then s
  else if events &&& reactorOut ≠ 0 then
    let s := respondPhase s slot out
    if 0 ≤ (s.conns slot).fd ∧ (s.conns slot).state = .writing then handleWrite s slot else s
  else s

def controlConnEventHandler (events : UInt32) (out : Outside) : KithControl :=
  if events &&& reactorErr ≠ 0 then controlConnClose s slot
  else if events &&& reactorHup ≠ 0 ∧ (s.conns slot).state ≠ .dispatching then
    controlConnClose s slot
  else handleReady parse s slot events out

end Requests

section Tasks

variable (s : KithControl)

/-- The route task: runs the handler, then posts the flush, which a full task
queue refuses. A finalizing interpreter drops the task. -/
def controlRouteWorkerTask (slot : Nat) (finalizing : Bool) (resp : Response)
    (posted : Bool) : KithControl :=
  if finalizing then { s with dispatchDropped := s.dispatchDropped + 1 }
  else
    let s := s.setConn slot { s.conns slot with resp := resp }
    if posted then { s with tasks := s.tasks ++ [slot] } else s

def controlConnFlushTask (slot : Nat) : KithControl :=
  let c := s.conns slot
  if c.state ≠ .dispatching then s
  else if c.fd < 0 then s.setConn slot { c.release with state := .reading }
  else
    let s := handleWrite (s.setConn slot { c with state := .writing, writePos := 0 }) slot
    if 0 ≤ (s.conns slot).fd ∧ (s.conns slot).state = .writing then
      connRegister s slot (reactorIn ||| reactorOut)
    else s

/-- The lines of the drained records; `start` is the cursor before the drain and
`j` the number of the next record. -/
def sseFlushRecords (slot : Nat) (start : UInt32) :
    List EventRecord → UInt32 → KithControl → KithControl
  | [], _, s => s
  | r :: records, j, s =>
    let c := s.conns slot
    let line := sseLine r
    if line.length < c.writeCap then
      let s := handleWrite
        (s.setConn slot { c with resp := { c.resp with bytes := line }, writePos := 0 }) slot
      let c := s.conns slot
      if c.fd < 0 then s
      else if c.writePos < c.resp.len then
        connRegister (s.setConn slot { c with
            sseCursor := (start + j + 1) % s.eventBus.capacity
            state := .writing }) slot
          (reactorIn ||| reactorOut)
      else sseFlushRecords slot start records (j + 1) s
    else sseFlushRecords slot start records (j + 1) s

def sseFlushConn (slot : Nat) : KithControl :=
  let c := s.conns slot
  if c.inUse = false ∨ c.sseSubscribed = false ∨ c.state = .writing then s
  else
    let (records, cursor) := controlEventBusDrain s.eventBus 16 c.sseCursor
    sseFlushRecords slot c.sseCursor records 0 (s.setConn slot { c with sseCursor := cursor })

/-- The subscriber cursor nearest to the tail, and its distance. -/
def minCursor (best : Option (UInt32 × UInt32)) (slot : Nat) : Option (UInt32 × UInt32) :=
  let c := s.conns slot
  if c.inUse = false ∨ c.sseSubscribed = false then best
  else
    let dist := (c.sseCursor + s.eventBus.capacity - s.eventBus.tail) % s.eventBus.capacity
    match best with
    | none => some (dist, c.sseCursor)
    | some (least, cursor) => if dist < least then some (dist, c.sseCursor)
      else some (least, cursor)

def controlBusReclaim : KithControl :=
  let cursor := match (List.range s.connCount).foldl (minCursor s) none with
    | none => s.eventBus.head
    | some (_, cursor) => cursor
  { s with eventBus := controlEventBusRelease s.eventBus cursor }

/-- The periodic flush; the next one is scheduled by a timer that is not part of
the model. -/
def controlSseFlush : KithControl :=
  controlBusReclaim ((List.range s.connCount).foldl sseFlushConn s)

end Tasks

end Kith.Control
