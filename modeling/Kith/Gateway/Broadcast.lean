import Kith.Proto.Encode
import Kith.Net.Conn
import Kith.Gateway.SessionTable

/-!
# Cell-scoped broadcasts

Any thread submits a request into a bounded ring. The reactor thread takes the
whole ring at once and walks the session table: each session's window is read
under its lock and matched against the batch, and the session is sent one copy
of each request it covers. Between two sessions of a pass other threads submit,
change windows and tear the gateway down, so a pass is one step for the take and
one for each bucket. The session table belongs to the reactor thread and does
not change during a pass.
-/

namespace Kith.Gateway

open Kith.Net Kith.Proto BackShift Function List

structure BroadcastRequest where
  cell : CellKey
  typeId : UInt16
  payload : List UInt8
  deriving DecidableEq

def broadcastQueueCap : Nat := 64

structure BroadcastQueue where
  slots : Nat → BroadcastRequest
  head : Nat
  count : Nat
  frozen : Bool

def BroadcastQueue.entries (q : BroadcastQueue) : List BroadcastRequest :=
  Cyclic.window broadcastQueueCap q.slots q.head q.count

inductive BroadcastSite where
  | payload | frame
  deriving DecidableEq

/-- What the broadcasts use of a gateway. `windows` is keyed by the session's handle,
`links` by the address of the connection. -/
structure BroadcastGateway where
  proto : KithProto
  broadcasts : BroadcastQueue
  refusedTotal : UInt64
  droppedTotal : UInt64
  sessions : GatewaySessionTable
  windows : Nat → List CellKey
  links : UInt64 → Link
  heap : Heap BroadcastSite

section Submit

/-- The copy of the payload; an empty one needs none. -/
def copyPayload (payload : List UInt8) (heap : Heap BroadcastSite) : Bool × Heap BroadcastSite :=
  if 0 < payload.length then heap.request .payload else (true, heap)

def BroadcastQueue.push (q : BroadcastQueue) (r : BroadcastRequest) : BroadcastQueue :=
  { q with
    slots := update q.slots ((q.head + q.count) % broadcastQueueCap) r
    count := q.count + 1 }

def gatewayBroadcastSubmit (g : BroadcastGateway) (r : BroadcastRequest) : Rc × BroadcastGateway :=
  if 2 ^ 32 ≤ r.payload.length then (.err .eoverflow, g)
  else if (kithProtoEncode g.proto r.typeId 0 0 r.payload 0).1 = 0 then (.err .eproto, g)
  else
    match copyPayload r.payload g.heap with
    | (false, heap) => (.err .enomem, { g with heap := heap })
    | (true, heap) =>
      if g.broadcasts.frozen then (.err .estate, { g with heap := heap })
      else if broadcastQueueCap ≤ g.broadcasts.count then
        (.err .eagain, { g with heap := heap, refusedTotal := g.refusedTotal + 1 })
      else (.ok, { g with heap := heap, broadcasts := g.broadcasts.push r })

end Submit

section Drain

def broadcastTakeLocked (g : BroadcastGateway) : List BroadcastRequest × BroadcastGateway :=
  let q := g.broadcasts
  if q.frozen = false ∧ 0 < q.count then
    (q.entries, { g with broadcasts :=
      { q with head := (q.head + q.count) % broadcastQueueCap, count := 0 } })
  else ([], g)

/-- The measured length is cut to 32 bits when the frame is created, and the frame is
given up when the encoding is longer. -/
def gatewayDeliveryFrameBuild (g : BroadcastGateway) (typeId : UInt16) (payload : List UInt8) :
    Option (List UInt8) × BroadcastGateway :=
  let frameLen := (kithProtoEncode g.proto typeId 0 0 payload 0).1
  if frameLen = 0 then (none, g)
  else
    match g.heap.request .frame with
    | (false, heap) => (none, { g with heap := heap })
    | (true, heap) =>
      let (written, bytes) := kithProtoEncode g.proto typeId 0 0 payload frameLen
      if written = 0 ∨ frameLen % 2 ^ 32 < written then (none, { g with heap := heap })
      else (some bytes, { g with heap := heap })

/-- The state of one `broadcast_fanout`. -/
structure Fanout where
  batch : List BroadcastRequest
  frames : Nat → Option (List UInt8)
  dead : Nat → Bool
  dropped : UInt64
  bucket : Nat

/-- What became of one request at one session that covers it: a copy enqueued, a copy
refused by the connection, a frame that could not be built, or a request that was
given up at an earlier session. -/
inductive Outcome where
  | copied | refused | unbuilt | givenUp
  deriving DecidableEq

/-- The requests of the set bits of the mask, lowest bit first. -/
def gatewaySessionWindowMatches (window : List CellKey) (batch : List BroadcastRequest) :
    List (BroadcastRequest × Nat) :=
  batch.zipIdx.filter fun e => e.1.cell ∈ window

def enqueueCopy (g : BroadcastGateway) (f : Fanout) (conn : UInt64) (frame : List UInt8) :
    Outcome × BroadcastGateway × Fanout :=
  match kithNetConnEnqueue (g.links conn) frame with
  | (.ok, link) => (.copied, { g with links := update g.links conn link }, f)
  | (.err _, link) =>
    (.refused, { g with links := update g.links conn link },
      { f with dropped := f.dropped + 1 })

/-- The body of the mask loop for request `i` of the batch. -/
def fanoutCopy (g : BroadcastGateway) (f : Fanout) (conn : UInt64) (r : BroadcastRequest)
    (i : Nat) : Outcome × BroadcastGateway × Fanout :=
  if f.dead i then (.givenUp, g, f)
  else
    match f.frames i with
    | some frame => enqueueCopy g f conn frame
    | none =>
      match gatewayDeliveryFrameBuild g r.typeId r.payload with
      | (none, g) =>
        (.unbuilt, g, { f with dead := update f.dead i true, dropped := f.dropped + 1 })
      | (some frame, g) =>
        enqueueCopy g { f with frames := update f.frames i (some frame) } conn frame

def fanoutMask (conn : UInt64) : List (BroadcastRequest × Nat) → BroadcastGateway → Fanout →
    List (Nat × Outcome) × BroadcastGateway × Fanout
  | [], g, f => ([], g, f)
  | (r, i) :: mask, g, f =>
    let (outcome, g, f) := fanoutCopy g f conn r i
    let (rest, g, f) := fanoutMask conn mask g f
    ((i, outcome) :: rest, g, f)

def gatewayBroadcastTeardown (g : BroadcastGateway) : List BroadcastRequest × BroadcastGateway :=
  let q := g.broadcasts
  (q.entries, { g with
    broadcasts := { q with frozen := true, head := 0, count := 0 }
    droppedTotal := g.droppedTotal + UInt64.ofNat q.count })

end Drain

variable (r : BroadcastRun)

section Runs

/-- One session of a pass: its window as it was read, and what became of the requests
it covers. -/
structure Visit where
  session : SessionRef
  window : List CellKey
  outcomes : List (Nat × Outcome)
  deriving DecidableEq

/-- One pass: the requests taken before it, its batch, the sessions of the table, and
the visits made. -/
structure Pass where
  first : Nat
  batch : List BroadcastRequest
  sessions : List SessionRef
  visits : List Visit
  deriving DecidableEq

/-- A gateway with the pass it is in, and what has happened so far: the requests
accepted, in order, the finished passes, and the requests teardown released. -/
structure BroadcastRun where
  gateway : BroadcastGateway
  current : Option (Fanout × Pass)
  accepted : List BroadcastRequest
  passes : List Pass
  torn : List BroadcastRequest

def BroadcastRun.allPasses : List Pass :=
  r.passes ++ (r.current.map Prod.snd).toList

def BroadcastRun.drained : List BroadcastRequest :=
  r.allPasses.flatMap Pass.batch

inductive BroadcastOp where
  /-- Any thread. -/
  | submit (request : BroadcastRequest)
  | setWindow (handle : Nat) (window : List CellKey)
  /-- Whatever else happens to a connection. -/
  | setLink (conn : UInt64) (link : Link)
  | teardown
  /-- The reactor thread. -/
  | openSession (session : SessionRef)
  | closeSession (conn : UInt64)
  | drain
  | visit

/-- The visit of a bucket, or the end of the pass behind the last one. -/
def BroadcastRun.visit (f : Fanout) (p : Pass) : BroadcastRun :=
  if f.bucket < r.gateway.sessions.buckets then
    match r.gateway.sessions.slots f.bucket with
    | none => { r with current := some ({ f with bucket := f.bucket + 1 }, p) }
    | some s =>
      let window := r.gateway.windows s.handle
      let mask := gatewaySessionWindowMatches window f.batch
      let (outcomes, g, f) := fanoutMask s.conn mask r.gateway f
      { r with
        gateway := g
        current := some ({ f with bucket := f.bucket + 1 },
          { p with visits := p.visits ++ [⟨s, window, outcomes⟩] }) }
  else
    { r with
      gateway := { r.gateway with droppedTotal := r.gateway.droppedTotal + f.dropped }
      current := none
      passes := r.passes ++ [p] }

def BroadcastRun.take : BroadcastRun :=
  match broadcastTakeLocked r.gateway with
  | ([], g) => { r with gateway := g }
  | (q :: batch, g) =>
    { r with
      gateway := g
      current := some (⟨q :: batch, fun _ => none, fun _ => false, 0, 0⟩,
        ⟨r.drained.length, q :: batch, contents g.sessions.buckets g.sessions.slots, []⟩) }

def BroadcastRun.step : BroadcastOp → BroadcastRun
  | .submit request =>
    match gatewayBroadcastSubmit r.gateway request with
    | (.ok, g) => { r with gateway := g, accepted := r.accepted ++ [request] }
    | (.err _, g) => { r with gateway := g }
  | .setWindow handle window =>
    { r with gateway := { r.gateway with windows := update r.gateway.windows handle window } }
  | .setLink conn link =>
    { r with gateway := { r.gateway with links := update r.gateway.links conn link } }
  | .teardown =>
    let (batch, g) := gatewayBroadcastTeardown r.gateway
    { r with gateway := g, torn := r.torn ++ batch }
  | .openSession session =>
    match r.current with
    | some _ => r
    | none =>
      { r with gateway := { r.gateway with
        sessions := (gatewaySessionInsert r.gateway.sessions session).2 } }
  | .closeSession conn =>
    match r.current with
    | some _ => r
    | none =>
      { r with gateway :=
        { r.gateway with sessions := gatewaySessionRemove r.gateway.sessions conn } }
  | .drain =>
    match r.current with
    | some _ => r
    | none => r.take
  | .visit =>
    match r.current with
    | some (f, p) => r.visit f p
    | none => r

def BroadcastRun.run (ops : List BroadcastOp) : BroadcastRun :=
  ops.foldl BroadcastRun.step r

/-- A gateway that `kith_gateway_create` has set up. -/
def BroadcastRun.start (proto : KithProto) (sessions : GatewaySessionTable)
    (windows : Nat → List CellKey) (links : UInt64 → Link) (heap : Heap BroadcastSite) :
    BroadcastRun :=
  ⟨⟨proto, ⟨fun _ => ⟨⟨0, 0, 0, 0, 0⟩, 0, []⟩, 0, 0, false⟩, 0, 0, sessions, windows, links, heap⟩,
    none, [], [], []⟩

end Runs

section Queue

variable {q : BroadcastQueue}

theorem BroadcastQueue.length_entries (q : BroadcastQueue) : q.entries.length = q.count :=
  Cyclic.length_window ..

theorem BroadcastQueue.entries_push (room : q.count < broadcastQueueCap) (r : BroadcastRequest) :
    (q.push r).entries = q.entries ++ [r] := by
  rw [entries, push, Cyclic.window_add]
  congr 1
  · apply Cyclic.window_congr
    intro i hi
    apply update_of_ne
    dsimp only
    rw [broadcastQueueCap] at room ⊢
    omega
  · simp [Cyclic.window]

end Queue

section Fanout

/-- Sending copies changes nothing but the connections and the allocator. -/
structure Kept (g g' : BroadcastGateway) : Prop where
  broadcasts : g'.broadcasts = g.broadcasts
  droppedTotal : g'.droppedTotal = g.droppedTotal
  sessions : g'.sessions = g.sessions

theorem Kept.trans {g g' g'' : BroadcastGateway} (first : Kept g g') (second : Kept g' g'') :
    Kept g g'' :=
  ⟨second.broadcasts.trans first.broadcasts, second.droppedTotal.trans first.droppedTotal,
    second.sessions.trans first.sessions⟩

/-- A copy that did not reach its session is counted; a request given up was counted
when its frame could not be built. -/
def Outcome.counted : Outcome → Bool
  | .refused => true
  | .unbuilt => true
  | .copied => false
  | .givenUp => false

def drops (outcomes : List (Nat × Outcome)) : Nat := outcomes.countP fun e => e.2.counted

/-- The state of a fan-out against the outcomes so far: a request with a frame has
been offered to every session that covers it, a dead one was counted once and is
offered to none. -/
structure Told (f : Fanout) (outcomes : List (Nat × Outcome)) : Prop where
  consistent : ∀ i, f.frames i ≠ none → f.dead i = false
  offered : ∀ i o, (i, o) ∈ outcomes → o = .copied ∨ o = .refused → f.frames i ≠ none
  abandoned : ∀ i o, (i, o) ∈ outcomes → o = .unbuilt ∨ o = .givenUp → f.dead i = true
  once : ∀ i, outcomes.count (i, .unbuilt) = if f.dead i then 1 else 0
  dropped : f.dropped = UInt64.ofNat (drops outcomes)

variable {g : BroadcastGateway} {f : Fanout} {outcomes : List (Nat × Outcome)} {i : Nat}

variable (g : BroadcastGateway)

theorem gatewayDeliveryFrameBuild_kept (typeId : UInt16)
    (payload : List UInt8) : Kept g (gatewayDeliveryFrameBuild g typeId payload).2 := by
  rw [gatewayDeliveryFrameBuild]
  dsimp only
  split
  · exact ⟨rfl, rfl, rfl⟩
  · split
    · exact ⟨rfl, rfl, rfl⟩
    · split <;> exact ⟨rfl, rfl, rfl⟩

theorem Told.snoc (told : Told f outcomes) {f' : Fanout} {o : Outcome}
    (consistent : ∀ j, f'.frames j ≠ none → f'.dead j = false)
    (frames : ∀ j, f.frames j ≠ none → f'.frames j ≠ none)
    (dead : ∀ j, f'.dead j = (f.dead j || decide (o = .unbuilt ∧ j = i)))
    (alive : o = .unbuilt → f.dead i = false)
    (offered : o = .copied ∨ o = .refused → f'.frames i ≠ none)
    (abandoned : o = .givenUp → f.dead i = true)
    (dropped : f'.dropped = f.dropped + if o.counted then 1 else 0) :
    Told f' (outcomes ++ [(i, o)]) where
  consistent := consistent
  offered := by
    intro j p hj hp
    rcases mem_append.mp hj with hj | hj
    · exact frames j (told.offered j p hj hp)
    · cases mem_singleton.mp hj
      exact offered hp
  abandoned := by
    intro j p hj hp
    rw [dead]
    rcases mem_append.mp hj with hj | hj
    · rw [told.abandoned j p hj hp, Bool.true_or]
    · cases mem_singleton.mp hj
      rcases hp with rfl | rfl
      · simp
      · rw [abandoned rfl, Bool.true_or]
  once := by
    intro j
    rw [count_append, told.once, dead, count_singleton]
    by_cases hnew : o = .unbuilt ∧ j = i
    · obtain ⟨rfl, rfl⟩ := hnew
      simp [alive rfl]
    · have hne : ((i, o) == (j, Outcome.unbuilt)) = false := by
        rw [beq_eq_false_iff_ne]
        rintro ⟨⟩
        exact hnew ⟨rfl, rfl⟩
      simp [hnew, hne]
  dropped := by
    rw [dropped, told.dropped, drops, drops, countP_append]
    cases o <;> simp [Outcome.counted]

/-- Copies were sent with these outcomes in all; the batch and the place in the table stay. -/
structure Sent (g : BroadcastGateway) (f : Fanout) (outcomes : List (Nat × Outcome))
    (after : BroadcastGateway × Fanout) : Prop where
  kept : Kept g after.1
  told : Told after.2 outcomes
  batch : after.2.batch = f.batch
  bucket : after.2.bucket = f.bucket

theorem enqueueCopy_sent (conn : UInt64) (frame : List UInt8)
    (told : Told f outcomes) (built : f.frames i ≠ none) :
    Sent g f (outcomes ++ [(i, (enqueueCopy g f conn frame).1)])
      (enqueueCopy g f conn frame).2 := by
  rw [enqueueCopy]
  rcases kithNetConnEnqueue (g.links conn) frame with ⟨_ | code, link⟩ <;>
  · refine ⟨⟨rfl, rfl, rfl⟩, ?_, rfl, rfl⟩
    exact told.snoc told.consistent (fun _ h => h) (by simp) (by simp) (fun _ => built) (by simp)
      (by simp [Outcome.counted])

theorem Told.build (told : Told f outcomes) (frame : List UInt8) (alive : f.dead i = false) :
    Told { f with frames := update f.frames i (some frame) } outcomes := { told with
  consistent := by
    intro j hj
    by_cases hji : j = i
    · rw [hji]
      exact alive
    · dsimp only at hj
      rw [update_of_ne hji] at hj
      exact told.consistent j hj
  offered := by
    intro j o hj ho
    by_cases hji : j = i
    · simp [hji]
    · dsimp only
      rw [update_of_ne hji]
      exact told.offered j o hj ho }

theorem Told.giveUp (told : Told f outcomes) (alive : f.dead i = false)
    (unframed : f.frames i = none) :
    Told { f with dead := update f.dead i true, dropped := f.dropped + 1 }
      (outcomes ++ [(i, .unbuilt)]) := by
  refine told.snoc ?_ (fun _ h => h) ?_ (fun _ => alive) (by simp) (by simp)
    (by simp [Outcome.counted])
  · intro j hj
    have hji : j ≠ i := by
      rintro rfl
      exact hj unframed
    dsimp only
    rw [update_of_ne hji]
    exact told.consistent j hj
  · intro j
    by_cases hji : j = i
    · simp [hji]
    · simp [hji]

theorem fanoutCopy_sent (conn : UInt64) (r : BroadcastRequest) (i : Nat) (told : Told f outcomes) :
    Sent g f (outcomes ++ [(i, (fanoutCopy g f conn r i).1)]) (fanoutCopy g f conn r i).2 := by
  rw [fanoutCopy]
  by_cases gone : f.dead i = true
  · rw [if_pos gone]
    refine ⟨⟨rfl, rfl, rfl⟩, ?_, rfl, rfl⟩
    exact told.snoc told.consistent (fun _ h => h) (by simp) (by simp) (by simp) (fun _ => gone)
      (by simp [Outcome.counted])
  · rw [if_neg gone]
    have alive : f.dead i = false := by simpa using gone
    cases hframe : f.frames i with
    | some frame => exact enqueueCopy_sent g conn frame told (by simp [hframe])
    | none =>
      have kept := gatewayDeliveryFrameBuild_kept g r.typeId r.payload
      rcases hbuild : gatewayDeliveryFrameBuild g r.typeId r.payload with ⟨_ | frame, g'⟩
      · rw [hbuild] at kept
        exact ⟨kept, told.giveUp alive hframe, rfl, rfl⟩
      · rw [hbuild] at kept
        have sent := enqueueCopy_sent g' conn frame (told.build frame alive) (i := i) (by simp)
        exact ⟨kept.trans sent.kept, sent.told, sent.batch, sent.bucket⟩

theorem fanoutMask_sent (conn : UInt64) (mask : List (BroadcastRequest × Nat))
    (g : BroadcastGateway) (told : Told f outcomes) :
    Sent g f (outcomes ++ (fanoutMask conn mask g f).1) (fanoutMask conn mask g f).2 ∧
      (fanoutMask conn mask g f).1.map Prod.fst = mask.map Prod.snd := by
  induction mask generalizing g f outcomes with
  | nil =>
    refine ⟨⟨⟨rfl, rfl, rfl⟩, ?_, rfl, rfl⟩, rfl⟩
    rw [fanoutMask, append_nil]
    exact told
  | cons entry mask ih =>
    obtain ⟨r, i⟩ := entry
    have one := fanoutCopy_sent g conn r i told
    obtain ⟨rest, hfst⟩ := ih (fanoutCopy g f conn r i).2.1 one.told
    rw [fanoutMask]
    refine ⟨⟨one.kept.trans rest.kept, ?_, rest.batch.trans one.batch,
      rest.bucket.trans one.bucket⟩, ?_⟩
    · have told' := rest.told
      rw [append_assoc] at told'
      exact told'
    · rw [map_cons, map_cons, hfst]

def BroadcastRequest.frame (r : BroadcastRequest) : List UInt8 := frameBytes r.typeId 0 0 r.payload

/-- What a connection is sent for the outcomes of a visit. -/
def copiedItems (batch : List BroadcastRequest) (outcomes : List (Nat × Outcome)) : List OutItem :=
  (outcomes.filter (·.2 = .copied)).filterMap fun e => batch[e.1]?.map fun r => ⟨r.frame, 0⟩

/-- The frames that are kept are those of the batch. -/
def Fanout.Framed (f : Fanout) : Prop :=
  ∀ i frame, f.frames i = some frame → ∃ r, f.batch[i]? = some r ∧ frame = r.frame

/-- The connection's queue has grown by the frames of the copied requests, in order, and other
connections are as they were. -/
structure Queued (conn : UInt64) (g : BroadcastGateway) (f : Fanout)
    (outcomes : List (Nat × Outcome)) (after : BroadcastGateway × Fanout) : Prop where
  queue : (after.1.links conn).conn.outq =
    (g.links conn).conn.outq ++ copiedItems f.batch outcomes
  others : ∀ other, other ≠ conn → after.1.links other = g.links other
  batch : after.2.batch = f.batch
  framed : after.2.Framed

theorem gatewayDeliveryFrameBuild_spec (r : BroadcastRequest) :
    (gatewayDeliveryFrameBuild g r.typeId r.payload).2.links = g.links ∧
      ∀ frame, (gatewayDeliveryFrameBuild g r.typeId r.payload).1 = some frame →
        frame = r.frame := by
  rw [gatewayDeliveryFrameBuild]
  dsimp only
  split
  · exact ⟨rfl, nofun⟩
  · rename_i measured
    split
    · exact ⟨rfl, nofun⟩
    · split
      · exact ⟨rfl, nofun⟩
      · refine ⟨rfl, fun frame built => ?_⟩
        have accepted := (kithProtoEncode_pos_iff g.proto r.typeId 0 0 r.payload 0).mp
          (Nat.pos_of_ne_zero measured)
        rw [kithProtoEncode_accepted accepted, kithProtoEncode_accepted accepted,
          take_length] at built
        exact (Option.some.inj built).symm

theorem enqueueCopy_queued {r : BroadcastRequest} (conn : UInt64) (here : f.batch[i]? = some r)
    (framed : f.Framed) :
    Queued conn g f [(i, (enqueueCopy g f conn r.frame).1)] (enqueueCopy g f conn r.frame).2 := by
  have added : (kithNetConnEnqueue (g.links conn) r.frame).2.conn.outq = (g.links conn).conn.outq ++
      if (kithNetConnEnqueue (g.links conn) r.frame).1 = .ok then [⟨r.frame, 0⟩] else [] := by
    simp only [kithNetConnEnqueue]
    repeat' split
    all_goals simp_all
  rw [enqueueCopy]
  generalize kithNetConnEnqueue (g.links conn) r.frame = enqueued at added
  rcases enqueued with ⟨_ | code, link⟩
  · refine ⟨?_, fun other apart => update_of_ne apart .., rfl, framed⟩
    simpa [copiedItems, here] using added
  · refine ⟨?_, fun other apart => update_of_ne apart .., rfl, framed⟩
    simpa [copiedItems] using added

theorem fanoutCopy_queued {r : BroadcastRequest} (conn : UInt64) (here : f.batch[i]? = some r)
    (framed : f.Framed) :
    Queued conn g f [(i, (fanoutCopy g f conn r i).1)] (fanoutCopy g f conn r i).2 := by
  rw [fanoutCopy]
  split
  · exact ⟨by simp [copiedItems], fun _ _ => rfl, rfl, framed⟩
  · split
    · rename_i frame kept
      obtain ⟨r', here', rfl⟩ := framed i frame kept
      cases here.symm.trans here'
      exact enqueueCopy_queued g conn here framed
    · obtain ⟨links, frame⟩ := gatewayDeliveryFrameBuild_spec g r
      rcases built : gatewayDeliveryFrameBuild g r.typeId r.payload with ⟨_ | bytes, g'⟩
      · rw [built] at links
        dsimp only at links
        exact ⟨by simp [copiedItems, links], fun other _ => congrFun links other, rfl, framed⟩
      · rw [built] at links frame
        dsimp only at links
        obtain rfl := frame bytes rfl
        have queued :=
          enqueueCopy_queued g' (f := { f with frames := update f.frames i (some r.frame) })
          conn here (by
            intro j bytes kept
            dsimp only at kept ⊢
            rw [update_apply] at kept
            split at kept
            · rename_i same
              cases kept
              exact ⟨r, same ▸ here, rfl⟩
            · exact framed j bytes kept)
        exact ⟨links ▸ queued.queue, links ▸ queued.others, queued.batch, queued.framed⟩

theorem fanoutMask_queued (conn : UInt64) (mask : List (BroadcastRequest × Nat))
    (g : BroadcastGateway) (inside : ∀ e ∈ mask, f.batch[e.2]? = some e.1)
    (framed : f.Framed) :
    Queued conn g f (fanoutMask conn mask g f).1 (fanoutMask conn mask g f).2 := by
  induction mask generalizing g f with
  | nil => exact ⟨(append_nil _).symm, fun _ _ => rfl, rfl, framed⟩
  | cons entry mask ih =>
    obtain ⟨r, i⟩ := entry
    have one := fanoutCopy_queued g conn (inside _ mem_cons_self) framed
    have rest := ih (f := (fanoutCopy g f conn r i).2.2) (fanoutCopy g f conn r i).2.1
      (fun e member => one.batch ▸ inside e (mem_cons_of_mem _ member)) one.framed
    rw [fanoutMask]
    refine ⟨?_, fun other apart => (rest.others other apart).trans (one.others other apart),
      rest.batch.trans one.batch, rest.framed⟩
    have queue := rest.queue
    rw [one.queue, one.batch, append_assoc] at queue
    rw [queue]
    simp only [copiedItems, ← filterMap_append, ← filter_append]
    rfl

end Fanout

section Passes

theorem windowMatches_ascending (window : List CellKey) (batch : List BroadcastRequest) :
    ((gatewaySessionWindowMatches window batch).map Prod.snd).Pairwise (· < ·) := by
  have hall : (batch.zipIdx.map Prod.snd).Pairwise (· < ·) := by
    rw [zipIdx_map_snd]
    exact pairwise_lt_range'
  exact hall.sublist (filter_sublist.map _)

def Pass.outcomes (p : Pass) : List (Nat × Outcome) := p.visits.flatMap Visit.outcomes

/-- A visit answers each request its window covers once, in batch order. -/
def Visit.Answers (v : Visit) (batch : List BroadcastRequest) : Prop :=
  (v.outcomes.map Prod.fst).Pairwise (· < ·) ∧
    ∀ i, i ∈ v.outcomes.map Prod.fst ↔ ∃ q, batch[i]? = some q ∧ q.cell ∈ v.window

/-- A finished pass: every session of the table was visited once, and each request was
offered to every session that covers it, unless its frame could not be built, which was
counted once. -/
structure Pass.Settled (p : Pass) : Prop where
  visited : p.visits.map Visit.session = p.sessions
  distinct : p.sessions.Nodup
  answers : ∀ v ∈ p.visits, v.Answers p.batch
  offered : ∀ i, (∀ o, (i, o) ∈ p.outcomes → o = .copied ∨ o = .refused) ∨
    ((∀ o, (i, o) ∈ p.outcomes → o = .unbuilt ∨ o = .givenUp) ∧ p.outcomes.count (i, .unbuilt) = 1)

/-- A pass on the way through the table. -/
structure Walking (sessions : GatewaySessionTable) (f : Fanout) (p : Pass) : Prop where
  batch : f.batch = p.batch
  table : p.sessions = contents sessions.buckets sessions.slots
  bucket : f.bucket ≤ sessions.buckets
  visited : p.visits.map Visit.session = contents f.bucket sessions.slots
  answers : ∀ v ∈ p.visits, v.Answers p.batch
  told : Told f p.outcomes
  framed : f.Framed

variable {sessions : GatewaySessionTable} {f : Fanout} {p : Pass}

theorem Told.settled {outcomes : List (Nat × Outcome)} (told : Told f outcomes) (i : Nat) :
    (∀ o, (i, o) ∈ outcomes → o = .copied ∨ o = .refused) ∨
      ((∀ o, (i, o) ∈ outcomes → o = .unbuilt ∨ o = .givenUp) ∧
        outcomes.count (i, .unbuilt) = 1) := by
  by_cases gone : f.dead i = true
  · refine .inr ⟨?_, by rw [told.once, if_pos gone]⟩
    intro o ho
    have hnot : ¬ (o = .copied ∨ o = .refused) := by
      intro h
      have alive := told.consistent i (told.offered i o ho h)
      rw [alive] at gone
      cases gone
    cases o <;> simp at hnot ⊢
  · refine .inl ?_
    intro o ho
    have hnot : ¬ (o = .unbuilt ∨ o = .givenUp) := fun h => gone (told.abandoned i o ho h)
    cases o <;> simp at hnot ⊢

variable (walking : Walking sessions f p)
include walking

theorem Walking.settled (last : sessions.buckets ≤ f.bucket)
    (distinct : (contents sessions.buckets sessions.slots).Nodup) : p.Settled where
  visited := by
    have hend : f.bucket = sessions.buckets := Nat.le_antisymm walking.bucket last
    rw [walking.visited, walking.table, hend]
  distinct := walking.table ▸ distinct
  answers := walking.answers
  offered := walking.told.settled

theorem Walking.skip (below : f.bucket < sessions.buckets)
    (empty : sessions.slots f.bucket = none) :
    Walking sessions { f with bucket := f.bucket + 1 } p := { walking with
  bucket := below
  visited := by
    rw [walking.visited, contents_succ, empty, Option.toList_none, append_nil]
  told := { walking.told with } }

theorem Walking.visit (below : f.bucket < sessions.buckets) {s : SessionRef}
    (present : sessions.slots f.bucket = some s) (g : BroadcastGateway) (window : List CellKey) :
    let mask := gatewaySessionWindowMatches window f.batch
    let sent := fanoutMask s.conn mask g f
    Kept g sent.2.1 ∧ Queued s.conn g f sent.1 sent.2 ∧
      Walking sessions { sent.2.2 with bucket := sent.2.2.bucket + 1 }
        { p with visits := p.visits ++ [⟨s, window, sent.1⟩] } := by
  intro mask
  have queued := fanoutMask_queued s.conn mask g (f := f)
    (fun e member => mem_zipIdx_iff_getElem?.mp (mem_filter.mp member).1) walking.framed
  obtain ⟨⟨kept, told, hbatch, hbucket⟩, hfst⟩ := fanoutMask_sent s.conn mask g walking.told
  refine ⟨kept, queued, hbatch.trans walking.batch, walking.table, ?_, ?_, ?_, ?_, queued.framed⟩
  · dsimp only
    omega
  · dsimp only
    rw [map_append, walking.visited, hbucket, contents_succ, present]
    rfl
  · intro v hv
    rcases mem_append.mp hv with hv | hv
    · exact walking.answers v hv
    · obtain rfl := mem_singleton.mp hv
      refine ⟨?_, ?_⟩
      · dsimp only
        rw [hfst]
        exact windowMatches_ascending window f.batch
      · intro i
        rw [hfst, ← walking.batch]
        simp [mask, gatewaySessionWindowMatches, mem_zipIdx_iff_getElem?]
  · have houtcomes : Pass.outcomes
        { p with visits := p.visits ++ [⟨s, window, (fanoutMask s.conn mask g f).1⟩] } =
          p.outcomes ++ (fanoutMask s.conn mask g f).1 := by
      simp [Pass.outcomes]
    rw [houtcomes]
    exact { told with }

end Passes

section Accounting

/-- The positions, in the order of acceptance, of the requests a session was sent a
copy of. -/
def Pass.copies (p : Pass) (s : SessionRef) : List Nat :=
  (p.visits.filter (·.session = s)).flatMap fun v =>
    (v.outcomes.filter (·.2 = .copied)).map fun e => p.first + e.1

def BroadcastRun.copies (s : SessionRef) : List Nat :=
  r.allPasses.flatMap fun p => p.copies s

def BroadcastRun.dropCount : Nat := (r.passes.map fun p => drops p.outcomes).sum

/-- The passes took their batches one behind the other, from position `n` on. -/
def Placed : Nat → List Pass → Prop
  | _, [] => True
  | n, p :: passes => p.first = n ∧ Placed (n + p.batch.length) passes

structure Accounts (r : BroadcastRun) : Prop where
  table : ∃ present, Represents r.gateway.sessions present
  thawed : r.gateway.broadcasts.frozen = false → r.torn = []
  conserved : r.accepted = r.drained ++ r.torn ++ r.gateway.broadcasts.entries
  placed : Placed 0 r.allPasses
  settled : ∀ p ∈ r.passes, p.Settled
  walking : ∀ f p, r.current = some (f, p) → Walking r.gateway.sessions f p
  counted : r.gateway.droppedTotal = UInt64.ofNat (r.dropCount + r.torn.length)

variable {r : BroadcastRun} {n : Nat} {passes : List Pass} {t : GatewaySessionTable} {p : Pass}

theorem placed_append {more : List Pass} :
    Placed n (passes ++ more) ↔
      Placed n passes ∧ Placed (n + (passes.flatMap Pass.batch).length) more := by
  induction passes generalizing n with
  | nil => simp [Placed]
  | cons p passes ih =>
    rw [cons_append, Placed, Placed, ih, flatMap_cons, length_append, ← Nat.add_assoc, and_assoc]

theorem Placed.first_le (placed : Placed n passes) : ∀ p ∈ passes, n ≤ p.first := by
  induction passes generalizing n with
  | nil => simp
  | cons q passes ih =>
    intro p hp
    rcases mem_cons.mp hp with rfl | hp
    · exact placed.1.ge
    · exact (Nat.le_add_right ..).trans (ih placed.2 p hp)

theorem Placed.spaced (placed : Placed n passes) :
    passes.Pairwise fun p q => p.first + p.batch.length ≤ q.first := by
  induction passes generalizing n with
  | nil => exact .nil
  | cons p passes ih =>
    refine .cons ?_ (ih placed.2)
    rw [placed.1]
    exact placed.2.first_le

theorem Placed.located {front rest : List BroadcastRequest} (placed : Placed front.length passes) :
    ∀ p ∈ passes, ∀ i < p.batch.length,
      (front ++ (passes.flatMap Pass.batch ++ rest))[p.first + i]? = p.batch[i]? := by
  induction passes generalizing front with
  | nil => simp
  | cons q passes ih =>
    intro p hp i hi
    rw [flatMap_cons, append_assoc]
    rcases mem_cons.mp hp with rfl | hp
    · rw [placed.1, getElem?_append_right (by omega), Nat.add_sub_cancel_left,
        getElem?_append_left hi]
    · have behind := placed.2
      rw [← length_append] at behind
      rw [← append_assoc]
      exact ih behind p hp i hi

theorem Accounts.distinct (acc : Accounts r) :
    (contents r.gateway.sessions.buckets r.gateway.sessions.slots).Nodup := by
  obtain ⟨present, rep⟩ := acc.table
  exact rep.stored.nodup_iff.mpr rep.unique.of_map

theorem gatewayBroadcastSubmit_cases (g : BroadcastGateway) (q : BroadcastRequest) :
    (∃ code g', gatewayBroadcastSubmit g q = (.err code, g') ∧ Kept g g') ∨
      ∃ heap, g.broadcasts.frozen = false ∧ g.broadcasts.count < broadcastQueueCap ∧
        gatewayBroadcastSubmit g q =
          (.ok, { g with heap := heap, broadcasts := g.broadcasts.push q }) := by
  rw [gatewayBroadcastSubmit]
  split
  · exact .inl ⟨_, _, rfl, rfl, rfl, rfl⟩
  · split
    · exact .inl ⟨_, _, rfl, rfl, rfl, rfl⟩
    · rcases copyPayload q.payload g.heap with ⟨_ | _, heap⟩
      · exact .inl ⟨_, _, rfl, rfl, rfl, rfl⟩
      · dsimp only
        split
        · exact .inl ⟨_, _, rfl, rfl, rfl, rfl⟩
        · rename_i thawed
          split
          · exact .inl ⟨_, _, rfl, rfl, rfl, rfl⟩
          · exact .inr ⟨heap, by simpa using thawed, by omega, rfl⟩

section

variable (acc : Accounts r)
include acc

theorem Accounts.kept {g : BroadcastGateway} (kept : Kept r.gateway g) :
    Accounts { r with gateway := g } := { acc with
  table := kept.sessions ▸ acc.table
  thawed := kept.broadcasts ▸ acc.thawed
  conserved := by
    have h := acc.conserved
    rw [← kept.broadcasts] at h
    exact h
  walking := kept.sessions ▸ acc.walking
  counted := kept.droppedTotal.trans acc.counted }

theorem Accounts.submit (q : BroadcastRequest) : Accounts (r.step (.submit q)) := by
  rw [BroadcastRun.step]
  rcases gatewayBroadcastSubmit_cases r.gateway q with ⟨code, g', hsub, kept⟩ |
    ⟨heap, thawed, room, hsub⟩
  · rw [hsub]
    exact acc.kept kept
  · rw [hsub]
    refine { acc with conserved := ?_ }
    rw [BroadcastQueue.entries_push room, acc.conserved]
    simp [BroadcastRun.drained, BroadcastRun.allPasses]

theorem Accounts.teardown : Accounts (r.step .teardown) := by
  refine { acc with thawed := ?_, conserved := ?_, counted := ?_ }
  · intro thawed
    cases thawed
  · calc r.accepted = r.drained ++ r.torn ++ r.gateway.broadcasts.entries := acc.conserved
      _ = r.drained ++ (r.torn ++ r.gateway.broadcasts.entries) ++ [] := by simp
  · calc r.gateway.droppedTotal + UInt64.ofNat r.gateway.broadcasts.count
        = UInt64.ofNat (r.dropCount + r.torn.length + r.gateway.broadcasts.count) := by
          rw [acc.counted, ← UInt64.ofNat_add]
      _ = UInt64.ofNat (r.dropCount + (r.torn ++ r.gateway.broadcasts.entries).length) := by
          rw [length_append, BroadcastQueue.length_entries, Nat.add_assoc]

theorem Accounts.retable (idle : r.current = none) (rep : ∃ present, Represents t present) :
    Accounts { r with gateway := { r.gateway with sessions := t } } := { acc with
  table := rep
  walking := by
    intro f p h
    rw [idle] at h
    cases h }

theorem Accounts.take (idle : r.current = none) : Accounts r.take := by
  rw [BroadcastRun.take]
  by_cases ready : r.gateway.broadcasts.frozen = false ∧ 0 < r.gateway.broadcasts.count
  · have htake : broadcastTakeLocked r.gateway = (r.gateway.broadcasts.entries,
        { r.gateway with broadcasts := { r.gateway.broadcasts with
          head := (r.gateway.broadcasts.head + r.gateway.broadcasts.count) % broadcastQueueCap
          count := 0 } }) := if_pos ready
    have hlen := r.gateway.broadcasts.length_entries
    rw [htake]
    cases hbatch : r.gateway.broadcasts.entries with
    | nil =>
      rw [hbatch, length_nil] at hlen
      omega
    | cons q batch =>
      have hconserved := acc.conserved
      rw [acc.thawed ready.1, append_nil, hbatch] at hconserved
      have hall : r.allPasses = r.passes := by simp [BroadcastRun.allPasses, idle]
      have hdrained : r.drained = r.passes.flatMap Pass.batch := by
        rw [BroadcastRun.drained, hall]
      refine ⟨acc.table, fun _ => acc.thawed ready.1, ?_, ?_, acc.settled, ?_, acc.counted⟩
      · dsimp only
        rw [acc.thawed ready.1, hconserved, hdrained]
        simp [BroadcastRun.drained, BroadcastRun.allPasses, BroadcastQueue.entries, Cyclic.window]
      · refine placed_append.mpr ⟨hall ▸ acc.placed, ?_, trivial⟩
        rw [← hdrained, Nat.zero_add]
      · intro f p h
        obtain ⟨rfl, rfl⟩ := Prod.mk.inj (Option.some.inj h)
        refine ⟨rfl, rfl, Nat.zero_le _, rfl, by simp, ⟨by simp, ?_, ?_, ?_, rfl⟩,
          by rintro _ _ ⟨⟩⟩
        · intro i o ho
          cases ho
        · intro i o ho
          cases ho
        · intro i
          rfl
  · have htake : broadcastTakeLocked r.gateway = ([], r.gateway) := if_neg ready
    rw [htake]
    exact acc

theorem Accounts.visit {f : Fanout} (busy : r.current = some (f, p)) : Accounts (r.visit f p) := by
  have walking := acc.walking f p busy
  have hall : r.allPasses = r.passes ++ [p] := by simp [BroadcastRun.allPasses, busy]
  have hplaced := acc.placed
  have hconserved := acc.conserved
  rw [BroadcastRun.drained, hall] at hconserved
  rw [hall] at hplaced
  rw [BroadcastRun.visit]
  split
  · rename_i below
    cases hslot : r.gateway.sessions.slots f.bucket with
    | none =>
      refine { acc with conserved := hconserved, placed := hplaced, walking := ?_ }
      intro f' p' h
      obtain ⟨rfl, rfl⟩ := Prod.mk.inj (Option.some.inj h)
      exact walking.skip below hslot
    | some s =>
      obtain ⟨kept, _, walking'⟩ := walking.visit below hslot r.gateway (r.gateway.windows s.handle)
      have acc' := acc.kept kept
      refine ⟨acc'.table, acc'.thawed, ?_, ?_, acc.settled, ?_, acc'.counted⟩
      · calc r.accepted
            = (r.passes ++ [p]).flatMap Pass.batch ++ r.torn ++ r.gateway.broadcasts.entries :=
              hconserved
          _ = _ := by
            rw [← kept.broadcasts]
            simp [BroadcastRun.drained, BroadcastRun.allPasses]
      · obtain ⟨before, last⟩ := placed_append.mp hplaced
        exact placed_append.mpr ⟨before, last⟩
      · intro f' p' h
        obtain ⟨rfl, rfl⟩ := Prod.mk.inj (Option.some.inj h)
        dsimp only
        rw [kept.sessions]
        exact walking'
  · have hsettled := walking.settled (by omega) acc.distinct
    refine ⟨acc.table, acc.thawed, ?_, ?_, ?_, ?_, ?_⟩
    · simpa [BroadcastRun.drained, BroadcastRun.allPasses] using hconserved
    · simpa [BroadcastRun.allPasses] using hplaced
    · intro q hq
      rcases mem_append.mp hq with hq | hq
      · exact acc.settled q hq
      · exact mem_singleton.mp hq ▸ hsettled
    · intro f' p' h
      cases h
    · calc r.gateway.droppedTotal + f.dropped
          = UInt64.ofNat (r.dropCount + r.torn.length + drops p.outcomes) := by
            rw [acc.counted, walking.told.dropped, ← UInt64.ofNat_add]
        _ = _ := by
            congr 1
            simp only [BroadcastRun.dropCount, map_append, sum_append, map_cons,
              map_nil, sum_cons, sum_nil]
            omega

theorem Accounts.step (op : BroadcastOp) : Accounts (r.step op) := by
  cases op with
  | submit q => exact acc.submit q
  | setWindow handle window | setLink conn link => exact acc.kept ⟨rfl, rfl, rfl⟩
  | teardown => exact acc.teardown
  | openSession session =>
    obtain ⟨present, rep⟩ := acc.table
    cases busy : r.current with
    | some fp => simpa [BroadcastRun.step, busy] using acc
    | none =>
      obtain ⟨_, rep', _⟩ := gatewaySessionInsert_represents rep session
      simpa [BroadcastRun.step, busy] using acc.retable busy ⟨_, rep'⟩
  | closeSession conn =>
    obtain ⟨present, rep⟩ := acc.table
    cases busy : r.current with
    | some fp => simpa [BroadcastRun.step, busy] using acc
    | none =>
      obtain ⟨rep', _⟩ := gatewaySessionRemove_represents rep conn
      simpa [BroadcastRun.step, busy] using acc.retable busy ⟨_, rep'⟩
  | drain =>
    cases busy : r.current with
    | some fp => simpa [BroadcastRun.step, busy] using acc
    | none => simpa [BroadcastRun.step, busy] using acc.take busy
  | visit =>
    cases busy : r.current with
    | none => simpa [BroadcastRun.step, busy] using acc
    | some fp =>
      simpa [BroadcastRun.step, busy] using acc.visit busy

theorem Accounts.run (ops : List BroadcastOp) : Accounts (r.run ops) := by
  induction ops generalizing r with
  | nil => exact acc
  | cons op ops ih => exact ih (acc.step op)

end

theorem Accounts.visits_nodup (acc : Accounts r) (hp : p ∈ r.allPasses) :
    (p.visits.map Visit.session).Nodup ∧ ∀ v ∈ p.visits, v.Answers p.batch := by
  rcases mem_append.mp hp with hp | hp
  · have settled := acc.settled p hp
    exact ⟨settled.visited ▸ settled.distinct, settled.answers⟩
  · cases busy : r.current with
    | none =>
      rw [busy] at hp
      cases hp
    | some fp =>
      obtain ⟨f, q⟩ := fp
      rw [busy] at hp
      obtain rfl : p = q := by simpa using hp
      have walking := acc.walking f p busy
      refine ⟨?_, walking.answers⟩
      rw [walking.visited]
      have hsub : (contents f.bucket r.gateway.sessions.slots).Sublist
          (contents r.gateway.sessions.buckets r.gateway.sessions.slots) :=
        (range_sublist.mpr walking.bucket).filterMap _
      exact acc.distinct.sublist hsub

theorem Pass.copies_ascending (distinct : (p.visits.map Visit.session).Nodup)
    (answers : ∀ v ∈ p.visits, v.Answers p.batch) (s : SessionRef) :
    (p.copies s).Pairwise (· < ·) ∧ ∀ i ∈ p.copies s, p.first ≤ i ∧
      i < p.first + p.batch.length := by
  have hsub : ∀ v : Visit, ((v.outcomes.filter (·.2 = .copied)).map Prod.fst).Sublist
      (v.outcomes.map Prod.fst) := fun v => filter_sublist.map _
  have hmap : ∀ v : Visit, ((v.outcomes.filter (·.2 = .copied)).map fun e => p.first + e.1) =
      ((v.outcomes.filter (·.2 = .copied)).map Prod.fst).map (p.first + ·) := by
    intro v
    rw [map_map]
    rfl
  simp only [Pass.copies, hmap]
  refine ⟨?_, ?_⟩
  · rw [pairwise_flatMap]
    refine ⟨?_, ?_⟩
    · intro v hv
      rw [pairwise_map]
      have hasc := (answers v (mem_filter.mp hv).1).1
      exact (hasc.sublist (hsub v)).imp fun h => Nat.add_lt_add_left h _
    · -- Two visits of one session in a pass do not occur.
      have hpair : p.visits.Pairwise fun v w => v.session ≠ w.session := by
        rw [List.Nodup, pairwise_map] at distinct
        exact distinct
      refine (hpair.sublist filter_sublist).imp_of_mem ?_
      intro v w hv hw hne
      have hvs : v.session = s := by simpa using (mem_filter.mp hv).2
      have hws : w.session = s := by simpa using (mem_filter.mp hw).2
      exact absurd (hvs.trans hws.symm) hne
  · intro i hi
    obtain ⟨v, hv, hi⟩ := mem_flatMap.mp hi
    obtain ⟨j, hj, rfl⟩ := mem_map.mp hi
    obtain ⟨q, hq, _⟩ := ((answers v (mem_filter.mp hv).1).2 j).mp ((hsub v).subset hj)
    have hlt := (List.getElem?_eq_some_iff.mp hq).1
    omega

theorem Accounts.copies_ascending (acc : Accounts r) (s : SessionRef) :
    (r.copies s).Pairwise (· < ·) := by
  rw [BroadcastRun.copies, pairwise_flatMap]
  refine ⟨?_, ?_⟩
  · intro p hp
    obtain ⟨distinct, answers⟩ := acc.visits_nodup hp
    exact (Pass.copies_ascending distinct answers s).1
  · refine acc.placed.spaced.imp_of_mem ?_
    intro p q hp hq hle i hi j hj
    obtain ⟨distinct, answers⟩ := acc.visits_nodup hp
    obtain ⟨distinct', answers'⟩ := acc.visits_nodup hq
    have hi := (Pass.copies_ascending distinct answers s).2 i hi
    have hj := (Pass.copies_ascending distinct' answers' s).2 j hj
    omega

structure BroadcastsAccounted (r : BroadcastRun) : Prop where
  taken : r.accepted = r.drained ++ r.torn ++ r.gateway.broadcasts.entries
  lengths : r.accepted.length = r.drained.length + r.gateway.broadcasts.count + r.torn.length
  placed : ∀ p ∈ r.allPasses, ∀ i < p.batch.length, r.accepted[p.first + i]? = p.batch[i]?
  settled : ∀ p ∈ r.passes, p.Settled
  ordered : ∀ s, (r.copies s).Pairwise (· < ·)
  dropped : r.gateway.droppedTotal = UInt64.ofNat (r.dropCount + r.torn.length)
  /-- The next visit sends the session the frames of the requests it copies. -/
  enqueued : ∀ f p s, r.current = some (f, p) → f.bucket < r.gateway.sessions.buckets →
    r.gateway.sessions.slots f.bucket = some s → ∃ f' v,
      (r.step .visit).current = some (f', { p with visits := p.visits ++ [v] }) ∧ v.session = s ∧
      ((r.step .visit).gateway.links s.conn).conn.outq =
        (r.gateway.links s.conn).conn.outq ++ copiedItems p.batch v.outcomes ∧
      ∀ other, other ≠ s.conn → (r.step .visit).gateway.links other = r.gateway.links other

/-- A proto handle with the default payload limit, and an idle connection. -/
def plainProto : KithProto := ⟨[], 1048576, 0⟩

def idleLink : Link :=
  ⟨⟨3, ⟨fun _ => 0, 4096, 0, 0, 4096, 262144⟩, [], 0, false, false, buildConnCfg none⟩, plainProto,
    0, 0, ⟨fun _ _ => true, 3⟩, [], []⟩

def townSquare : CellKey := ⟨1, 2, 3, 0, 0⟩

theorem firstConn_bound : (8 : UInt64) ≠ 0 := by decide

theorem secondConn_bound : (16 : UInt64) ≠ 0 := by decide

/-- Two sessions cover one cell; a request for it is submitted and drained. -/
def twoListeners : List BroadcastOp :=
  [.openSession ⟨1, 8, firstConn_bound⟩, .openSession ⟨2, 16, secondConn_bound⟩,
    .setWindow 1 [townSquare], .setWindow 2 [townSquare], .submit ⟨townSquare, 7, [1, 2]⟩,
      .drain] ++
    List.replicate 17 .visit

def quietStart (frames : Bool) : BroadcastRun :=
  .start plainProto ⟨fun _ => none, 16, 0, 16⟩ (fun _ => []) (fun _ => idleLink)
    ⟨fun site _ => site = .payload ∨ frames, 0⟩

end Accounting

end Kith.Gateway
