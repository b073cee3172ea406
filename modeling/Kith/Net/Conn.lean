import Kith.Net.Ringbuf
import Kith.Proto.Codec

/-!
# Connections of the transport

The configuration, the input path from `recv` to the message callback, and the
output queue with its `writev` drain. System calls are scripts: each call of the
read or the write consumes results from a list, and a list that has run out
reports that the call would block. A callback may close the connection and
enqueue output on it, which is what its contract allows.
-/

namespace Kith.Net

open Kith.Proto

section Config

/-- `kith_net_params_t`, the fields a connection is configured by; `size` and
`abiVersion` are checked against 112 and 1. -/
structure NetParams where
  size : UInt32
  abiVersion : UInt32
  readBufferInitial : UInt32
  readBufferMax : UInt32
  inHighWater : UInt32
  inLowWater : UInt32
  outHighWater : UInt32
  outLowWater : UInt32
  outDrainCap : UInt32
  deriving DecidableEq

structure ConnCfg where
  rbInitial : UInt32
  rbMax : UInt32
  inHighWater : UInt32
  inLowWater : UInt32
  outHighWater : UInt32
  outLowWater : UInt32
  outDrainCap : UInt32
  deriving DecidableEq

def resolveCfgField (value fallback : UInt32) : UInt32 := if value = 0 then fallback else value

def buildConnCfg (params : Option NetParams) : ConnCfg :=
  let p := params.getD ⟨112, 1, 0, 0, 0, 0, 0, 0, 0⟩
  { rbInitial := resolveCfgField p.readBufferInitial (4 * 1024)
    rbMax := resolveCfgField p.readBufferMax (256 * 1024)
    inHighWater := resolveCfgField p.inHighWater (192 * 1024)
    inLowWater := resolveCfgField p.inLowWater (96 * 1024)
    outHighWater := resolveCfgField p.outHighWater (256 * 1024)
    outLowWater := resolveCfgField p.outLowWater (128 * 1024)
    outDrainCap := resolveCfgField p.outDrainCap (64 * 1024) }

/-- The parameter checks of `kith_net_create`, and the configuration it resolves. -/
def kithNetCreate : Option NetParams → Except KithError ConnCfg
  | none => .ok (buildConnCfg none)
  | some p =>
    if p.abiVersion ≠ 1 then .error .eabiver
    else if p.size < 112 then .error .esize
    else if p.readBufferMax ≠ 0 ∧ p.readBufferMax < 8192 then .error .einval
    else .ok (buildConnCfg (some p))

end Config

/-- One queued outgoing frame and how much of it has been written. -/
structure OutItem where
  frame : List UInt8
  offset : Nat
  deriving DecidableEq

/-- `struct kith_net_conn`, its table slot and its reference count apart. -/
structure NetConn where
  fd : Int
  inbuf : Ringbuf
  outq : List OutItem
  outqBytes : Nat
  readBlocked : Bool
  closed : Bool
  cfg : ConnCfg

/-- A connection, what its calls use of the transport, and what has passed
through it: the frames handed to the callback and the bytes handed to the socket. -/
structure Link where
  conn : NetConn
  proto : KithProto
  rejections : UInt64
  writeDeferrals : UInt64
  heap : Heap NetSite
  delivered : List ProtoFrame
  sent : List UInt8

/-- `kith_conn_create` on an accepted socket; the inner `none` is a failure, on
which the caller closes the socket. A socket that cannot be made non-blocking
fails like the allocation after it. -/
def kithConnCreate (cfg : ConnCfg) (fd : Int) (heap : Heap NetSite) :
    Option (Option NetConn × Heap NetSite) :=
  match heap.request .conn with
  | (false, heap) => some (none, heap)
  | (true, heap) =>
    (kithRingbufInit heap cfg.rbInitial.toNat cfg.rbMax.toNat).map fun (inbuf, heap) =>
      match inbuf with
      | none => (none, heap)
      | some inbuf =>
        match heap.request .lock with
        | (false, heap) => (none, heap)
        | (true, heap) => (some ⟨fd, inbuf, [], 0, false, false, cfg⟩, heap)

def kithNetConnClose (c : NetConn) : NetConn :=
  if c.closed then c else { c with closed := true, fd := -1 }

variable (s : Link)

def Link.close : Link := { s with conn := kithNetConnClose s.conn }

section Output

def kithNetConnEnqueue (frame : List UInt8) : Rc × Link :=
  if s.conn.closed then (.err .estate, s)
  else if s.conn.cfg.outHighWater.toNat ≤ s.conn.outqBytes then (.err .eagain, s)
  else
    match s.heap.request .outItem with
    | (false, heap) => (.err .enomem, { s with heap := heap })
    | (true, heap) =>
      let total := s.conn.outqBytes + frame.length
      (.ok, { s with
        heap := heap
        conn := { s.conn with
          outq := s.conn.outq ++ [⟨frame, 0⟩]
          outqBytes := if 2 ^ 64 ≤ total then 2 ^ 64 - 1 else total } })

inductive SendResult where
  | sent (n : Nat)
  | wouldBlock
  | intr
  | error
  deriving DecidableEq

def OutItem.rem (item : OutItem) : Nat := item.frame.length - item.offset

/-- The unwritten parts of the first frames that have any, 64 at most. -/
def buildWritevBatch (outq : List OutItem) : List (List UInt8) :=
  ((outq.filter fun item => item.rem ≠ 0).take 64).map fun item => item.frame.drop item.offset

/-- The queue and its byte count after `remaining` bytes were written. -/
def advanceOutqAfterWrite : List OutItem → Nat → Nat → List OutItem × Nat
  | [], bytes, _ => ([], bytes)
  | head :: rest, bytes, remaining =>
    if remaining = 0 then (head :: rest, bytes)
    else
      let sent := min head.rem remaining
      let head := { head with offset := head.offset + sent }
      if head.frame.length ≤ head.offset then
        advanceOutqAfterWrite rest (bytes - min bytes head.frame.length) (remaining - sent)
      else (head :: rest, bytes)

/-- The drain loop; the flag says whether the cap stopped it. -/
def connWriteDrain : List SendResult → Nat → Link → (Rc × Bool) × Link
  | script, written, s =>
    if s.conn.outq = [] ∨ buildWritevBatch s.conn.outq = [] then ((.ok, false), s)
    else
      match script with
      | [] => ((.ok, false), s)
      | .wouldBlock :: _ => ((.ok, false), s)
      | .intr :: script => connWriteDrain script written s
      | .error :: _ => ((.err .eio, false), s)
      | .sent n :: script =>
        if n = 0 then ((.ok, false), s)
        else
          let (outq, bytes) := advanceOutqAfterWrite s.conn.outq s.conn.outqBytes n
          let s := { s with
            conn := { s.conn with outq := outq, outqBytes := bytes }
            sent := s.sent ++ (buildWritevBatch s.conn.outq).flatten.take n }
          let bounded := s.conn.cfg.outDrainCap ≠ 0xFFFFFFFF
          if bounded ∧ s.conn.cfg.outDrainCap.toNat ≤ written + n then ((.ok, true), s)
          else connWriteDrain script (written + n) s

def kithNetConnWrite (script : List SendResult) : Rc × Link :=
  if s.conn.closed then (.err .estate, s)
  else if s.conn.fd < 0 then (.err .estate, s)
  else
    match connWriteDrain script 0 s with
    | ((rc, capped), s) =>
      let s := if capped && !s.conn.outq.isEmpty then
        { s with writeDeferrals := s.writeDeferrals + 1 } else s
      match rc with
      | .ok => (.ok, s)
      | .err code => (.err code, s.close)

/-- `KITH_NET_IN` and `KITH_NET_OUT`. -/
def kithNetConnEvents (c : NetConn) : Bool × Bool := (!c.readBlocked, !c.outq.isEmpty)

end Output

section Input

/-- What a `recv` of at most 8192 bytes hands over. -/
abbrev Chunk := { bs : List UInt8 // bs.length ≤ 8192 }

inductive RecvResult where
  /-- The empty chunk is the end of the stream. -/
  | data (chunk : Chunk)
  | wouldBlock
  | intr
  | error

inductive CallbackAct where
  | close
  | enqueue (frame : List UInt8)
  deriving DecidableEq

/-- A callback sees every frame delivered so far, the current one last. -/
abbrev Callback := List ProtoFrame → List CallbackAct

def Link.act : CallbackAct → Link
  | .close => s.close
  | .enqueue frame => (kithNetConnEnqueue s frame).2

/-- `kith_proto_declared_total`, with the 0 its callers keep when it fails. -/
def declaredTotal (buf : List UInt8) : Nat :=
  match kithProtoDeclaredTotal buf with
  | .error _ => 0
  | .ok total => total

/-- The declared total of the leading frame, or 0 without a complete header. -/
def leadingFrameTotal (rb : Ringbuf) : Nat :=
  let head := kithRingbufPeek rb
  if 10 ≤ head.length then declaredTotal head
  else if kithRingbufUsed rb < 10 then 0
  else declaredTotal (kithRingbufCopy rb 10)

/-- An incomplete frame that declares more than the ring ceiling is rejected. -/
def finishPartialFrame (buf : List UInt8) : Rc × Link :=
  if 10 ≤ buf.length ∧ s.conn.cfg.rbMax.toNat < declaredTotal buf then
    (.err .eproto, { s with rejections := s.rejections + 1 })
  else (.ok, s)

def inputPauseAt (c : NetConn) : Nat :=
  min (max c.cfg.inHighWater.toNat (leadingFrameTotal c.inbuf)) c.cfg.rbMax.toNat

def recvIntoRingbuf : List RecvResult → Link → Option (Rc × Link)
  | [], s => some (.ok, s)
  | .wouldBlock :: _, s => some (.ok, s)
  | .intr :: script, s => recvIntoRingbuf script s
  | .error :: _, s => some (.err .eio, s)
  | .data chunk :: script, s =>
    if chunk.1 = [] then some (.err .econnreset, s)
    else
      match kithRingbufWrite s.conn.inbuf s.heap chunk.1 with
      | none => none
      | some (false, inbuf, heap) =>
        let s := { s with conn := { s.conn with inbuf := inbuf }, heap := heap }
        if s.conn.cfg.rbMax.toNat < leadingFrameTotal inbuf then
          some (.err .eproto, { s with rejections := s.rejections + 1 })
        else some (.err .enomem, s)
      | some (true, inbuf, heap) =>
        recvIntoRingbuf script { s with conn := { s.conn with inbuf := inbuf }, heap := heap }

/-- The bytes to decode: the contiguous ones, or all of them gathered when they
wrap; a gather of more than 256 bytes needs an allocation. -/
def gatherInput (rb : Ringbuf) (heap : Heap NetSite) : Option (List UInt8) × Heap NetSite :=
  let head := kithRingbufPeek rb
  let used := kithRingbufUsed rb
  if head.length < used then
    if 256 < used then
      match heap.request .gather with
      | (false, heap) => (none, heap)
      | (true, heap) => (some (kithRingbufCopy rb used), heap)
    else (some (kithRingbufCopy rb 256), heap)
  else (some head, heap)

/-- The end of an iteration of the delivery, after the callback. -/
def Link.consume (consumed : Nat) : Option Link :=
  let inbuf := kithRingbufConsume s.conn.inbuf consumed
  let readBlocked := if kithRingbufUsed inbuf ≤ s.conn.cfg.inLowWater.toNat then false
    else s.conn.readBlocked
  (kithRingbufMaybeShrink inbuf s.heap).map fun (_, inbuf, heap) =>
    { s with conn := { s.conn with inbuf := inbuf, readBlocked := readBlocked }, heap := heap }

def Link.deliver (onMessage : Callback) (frame : ProtoFrame) : Link :=
  let s := { s with delivered := s.delivered ++ [frame] }
  (onMessage s.delivered).foldl Link.act s

/-- The delivery loop; `none` is a loop that has not ended after `fuel` rounds. -/
def deliverLoop (onMessage : Callback) : Nat → Link → Option (Rc × Link)
  | 0, _ => none
  | fuel + 1, s =>
    if s.conn.closed then some (.ok, s)
    else if kithRingbufPeek s.conn.inbuf = [] then some (.ok, s)
    else
      match gatherInput s.conn.inbuf s.heap with
      | (none, heap) => some (.err .enomem, { s with heap := heap })
      | (some buf, heap) =>
        match kithProtoDecode s.proto buf with
        | (.error .eagain, proto) =>
          some (finishPartialFrame { s with heap := heap, proto := proto } buf)
        | (.error code, proto) => some (.err code, { s with heap := heap, proto := proto })
        | (.ok (frame, consumed), proto) =>
          let s := Link.deliver { s with heap := heap, proto := proto } onMessage frame
          (s.consume consumed).bind (deliverLoop onMessage fuel)

/-- Every frame takes at least ten bytes, so the bytes held bound the rounds. -/
def deliverFrames (onMessage : Callback) (s : Link) : Option (Rc × Link) :=
  deliverLoop onMessage (kithRingbufUsed s.conn.inbuf + 1) s

def kithNetConnRead (onMessage : Callback) (script : List RecvResult) (s : Link) :
    Option (Rc × Link) :=
  if s.conn.closed then some (.err .estate, s)
  else
    (recvIntoRingbuf script s).bind fun (rr, s) =>
      match rr with
      | .err code => some (.err code, s.close)
      | .ok =>
        (deliverFrames onMessage s).map fun (dr, s) =>
          match dr with
          | .err code => (.err code, s.close)
          | .ok =>
            let blocked := if inputPauseAt s.conn ≤ kithRingbufUsed s.conn.inbuf then true
              else s.conn.readBlocked
            (.ok, { s with conn := { s.conn with readBlocked := blocked } })

end Input

end Kith.Net
