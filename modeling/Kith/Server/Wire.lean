import Kith.Net.Stream
import Kith.Reactor.Owners

/-!
# The server's wire table and the transport

The wire keeps an entry for each accepted connection and reacts to readiness by
reading, writing and re-arming. It closes its entry on a fixed set of return
codes. The transport closes a connection on more occasions than that: when the
input ring is exhausted, and when a message callback closes it. After such a read
the entry stays open on a closed connection whose descriptor is still registered;
after every other event the two sides agree.
-/

namespace Kith.Server

open Kith.Reactor Kith.Net Kith.Proto Function

inductive Handler where
  | listener
  | conn (slot : Nat)
  | other (id : Nat)
  deriving DecidableEq

inductive WireSite where
  | table | entry
  deriving DecidableEq

/-- `server_wire_conn`; `conn` and `session` say whether the pointers are set. -/
structure ServerWireConn where
  wire : Bool
  conn : Bool
  session : Bool
  fd : Int
  closed : Bool
  deriving DecidableEq

/-- `links` are the transport's connections by the entry that was given them. -/
structure ServerWire where
  reactor : KithReactor Handler
  conns : Nat → ServerWireConn
  links : Nat → Link
  connCount : Nat
  connCap : Nat
  freeWc : List Nat
  heap : Heap WireSite

variable (s : ServerWire) (slot : Nat)

def ServerWire.setLink (link : Link) : ServerWire :=
  { s with links := update s.links slot link }

section Table

def growTable : Bool × ServerWire :=
  if s.connCount = s.connCap then
    match s.heap.request .table with
    | (false, heap) => (false, { s with heap := heap })
    | (true, heap) => (true, { s with heap := heap, connCap := s.connCap * 2 })
  else (true, s)

def ServerWire.fill (link : Link) (fd : Int) : ServerWire :=
  { s with
    conns := update s.conns slot ⟨true, true, true, fd, false⟩
    links := update s.links slot link }

def serverWireConnAlloc (link : Link) (fd : Int) : Option Nat × ServerWire :=
  match s.freeWc with
  | slot :: freeWc => (some slot, { s.fill slot link fd with freeWc := freeWc })
  | [] =>
    match growTable s with
    | (false, s) => (none, s)
    | (true, s) =>
      match s.heap.request .entry with
      | (false, heap) => (none, { s with heap := heap })
      | (true, heap) =>
        (some s.connCount,
          { s.fill s.connCount link fd with heap := heap, connCount := s.connCount + 1 })

def serverWireConnClose : ServerWire :=
  let wc := s.conns slot
  if wc.closed then s
  else
    { s with
      reactor :=
        if 0 ≤ wc.fd ∧ wc.wire = true then (kithReactorDel s.reactor wc.fd).2 else s.reactor
      conns := update s.conns slot
        { wc with fd := -1, session := false, conn := false, closed := true }
      links := if wc.conn then update s.links slot (s.links slot).close else s.links
      freeWc := if wc.wire then slot :: s.freeWc else s.freeWc }

/-- A connection from `kith_net_accept`, and whether its session was created. -/
structure AcceptedConn where
  fd : Nat
  link : Link
  session : Bool

/-- One round of the accept loop; a failed add of the descriptor is ignored. -/
def acceptConn (a : AcceptedConn) : ServerWire :=
  if a.session = false then s
  else
    match serverWireConnAlloc s a.link a.fd with
    | (none, s) => s
    | (some slot, s) =>
      { s with reactor := (kithReactorAdd s.reactor a.fd reactorIn (.conn slot)).2 }

def serverWireHandleAccept (accepts : List AcceptedConn) : ServerWire :=
  accepts.foldl acceptConn s

end Table

variable (events : UInt32)

section Readiness

/-- What the socket and the message callback do within one callback. -/
structure ReadyCall where
  onMessage : Callback
  reads : List RecvResult
  sends : List SendResult

/-- The codes of a read on which the wire closes its entry. -/
def endsEntry (rc : Rc) : Bool :=
  rc = .err .econnreset ∨ rc = .err .eio ∨ rc = .err .eproto

/-- The read, and whether the handler returns after it. -/
def wireRead (call : ReadyCall) : Option (Bool × ServerWire) :=
  (kithNetConnRead call.onMessage call.reads (s.links slot)).map fun (rc, link) =>
    let s := s.setLink slot link
    if endsEntry rc then (true, serverWireConnClose s slot) else (false, s)

def wireWrite (call : ReadyCall) : Bool × ServerWire :=
  match kithNetConnWrite (s.links slot) call.sends with
  | (rc, link) =>
    let s := s.setLink slot link
    if rc = .err .econnreset ∨ rc = .err .eio then (true, serverWireConnClose s slot)
      else (false, s)

/-- IN always, OUT while output is queued. -/
def wireRearm : ServerWire :=
  let want :=
    if (kithNetConnEvents (s.links slot).conn).2 then reactorIn ||| reactorOut else reactorIn
  { s with reactor := (kithReactorMod s.reactor (s.conns slot).fd want).2 }

/-- The handler behind its read. -/
def wireFinish (call : ReadyCall) : ServerWire :=
  if (s.conns slot).closed then s
  else if events &&& reactorOut ≠ 0 then
    match wireWrite s slot call with
    | (true, s) => s
    | (false, s) => wireRearm s slot
  else wireRearm s slot

def serverWireConnHandler (call : ReadyCall) : Option ServerWire :=
  if (s.conns slot).wire = false ∨ (s.conns slot).closed = true then some s
  else if events &&& (reactorHup ||| reactorErr) ≠ 0 then some (serverWireConnClose s slot)
  else if events &&& reactorIn ≠ 0 then
    (wireRead s slot call).map fun (returned, s) =>
      if returned then s else wireFinish s slot events call
  else some (wireFinish s slot events call)

def serverWireArm : ServerWire :=
  (List.range s.connCount).foldl
    (fun s slot => if (s.conns slot).closed = true ∨ (s.conns slot).fd < 0 then s
      else wireRearm s slot) s

end Readiness

section Runs

/-- A descriptor is ready, a tick arms the connections, the gateway queues a frame
on a session's connection. -/
inductive WireOp where
  | ready (fd : Int) (events : UInt32) (accepts : List AcceptedConn) (call : ReadyCall)
  | arm
  | output (slot : Nat) (frame : List UInt8)

def ServerWire.step : WireOp → Option ServerWire
  | .ready fd events accepts call =>
    match runDispatch s.reactor fd with
    | some .listener => some (serverWireHandleAccept s accepts)
    | some (.conn slot) => serverWireConnHandler s slot events call
    | _ => some s
  | .arm => some (serverWireArm s)
  | .output slot frame =>
    if (s.conns slot).session then
      some (s.setLink slot (kithNetConnEnqueue (s.links slot) frame).2)
    else some s

def ServerWireConn.openFd (wc : ServerWireConn) : Option Int :=
  if wc.closed then none else some wc.fd

/-- Accepted connections are open, and on descriptors that no entry has. -/
def FreshAccepts : List AcceptedConn → ServerWire → Prop
  | [], _ => True
  | a :: accepts, s =>
    (a.link.conn.closed = false ∧ a.link.conn.inbuf.Valid ∧
      ∀ i, (s.conns i).openFd ≠ some a.fd) ∧
    FreshAccepts accepts (acceptConn s a)

def WireOp.Fresh : WireOp → Prop
  | .ready fd _ accepts _ => runDispatch s.reactor fd = some .listener → FreshAccepts accepts s
  | _ => True

/-- If the event makes the handler read, and the read closes the connection, it
returns a code on which the wire closes its entry. -/
def ReadHandled (call : ReadyCall) : Prop :=
  events &&& (reactorHup ||| reactorErr) = 0 → events &&& reactorIn ≠ 0 →
    ∀ rc link, kithNetConnRead call.onMessage call.reads (s.links slot) = some (rc, link) →
      link.conn.closed = true → endsEntry rc = true

def WireOp.Handled : WireOp → Prop
  | .ready fd events _ call =>
    ∀ slot, runDispatch s.reactor fd = some (.conn slot) → ReadHandled s slot events call
  | _ => True

/-- A read that the event makes is spared an exhausted ring, a refused allocation and a
callback that closes. -/
def WireOp.Spared : WireOp → Prop
  | .ready fd events _ call =>
    ∀ slot, runDispatch s.reactor fd = some (.conn slot) →
      events &&& (reactorHup ||| reactorErr) = 0 → events &&& reactorIn ≠ 0 →
        Net.Spared call.onMessage call.reads (s.links slot)
  | _ => True

/-- An entry that is not closed refers to a connection that is not closed, and a
registered descriptor is that of such a connection. -/
def Agrees : Prop :=
  ∀ slot, ((s.conns slot).closed = false →
      (s.conns slot).conn = true ∧ (s.links slot).conn.closed = false) ∧
    ∀ fd e, s.reactor.entry fd = some e → e.handler = some (.conn slot) →
      (s.links slot).conn.closed = false

/-- The wire as `server_wire_create` leaves it. -/
structure Started (s : ServerWire) : Prop where
  valid : s.reactor.Valid
  foreign : ∀ fd e i, s.reactor.entry fd = some e → e.handler ≠ some (.conn i)
  blank : ∀ i, (s.conns i).closed = true
  unlisted : s.freeWc = []

/-- The states of the runs in which every step is spared. -/
inductive Reaches (start : ServerWire) : ServerWire → Prop where
  | start : Reaches start start
  | step {s s' : ServerWire} (op : WireOp) (reached : Reaches start s) (fresh : op.Fresh s)
      (spared : op.Spared s) (stepped : s.step op = some s') : Reaches start s'

end Runs

end Kith.Server
