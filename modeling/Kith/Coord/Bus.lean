import Kith.Base
import Kith.Lib.Bytes

/-!
# The coordination bus

Membership, publish and drain of the loopback transport, and the byte layout of
a rebalance contract. A drain takes the whole pending queue whatever room the
caller gives: what does not fit is moved to the drained queue, which the next
drain frees.
-/

namespace Kith.Coord

open Bytes List

inductive BusEventType where
  | rebalance | membership | snapshotRequest
  deriving DecidableEq

structure BusMember where
  instanceId : UInt32
  heartbeatMs : UInt64
  ownedCellCount : UInt32
  activeInputCount : UInt32
  deriving DecidableEq

/-- `coord_bus_event_slot`, and what a drain copies of it; the payload carries its length. -/
structure BusEvent where
  eventType : BusEventType
  zone : UInt32
  sourceInstanceId : UInt32
  timestampMs : UInt64
  payload : List UInt8
  deriving DecidableEq

structure Bus where
  instanceId : UInt32
  members : List BusMember
  memberCap : Nat
  pending : List BusEvent
  pendingCap : Nat
  drained : List BusEvent
  deriving DecidableEq

inductive BusSite where
  | handle | memberGrow | pendingGrow | payload
  deriving DecidableEq

variable (bus : Bus) (heap : Heap BusSite)

section Membership

def coordBusMemberAdd (instanceId : UInt32) (heartbeatMs : UInt64) : Rc × Bus × Heap BusSite :=
  let entry : BusMember := ⟨instanceId, heartbeatMs, 0, 0⟩
  if bus.members.length = bus.memberCap then
    match heap.request .memberGrow with
    | (false, heap) => (.err .enomem, bus, heap)
    | (true, heap) =>
      (.ok, { bus with
        members := bus.members ++ [entry]
        memberCap := if bus.memberCap = 0 then 8 else bus.memberCap * 2 }, heap)
  else (.ok, { bus with members := bus.members ++ [entry] }, heap)

def kithCoordBusCreate (instanceId : UInt32) (heap : Heap BusSite) :
    Except KithError Bus × Heap BusSite :=
  match heap.request .handle with
  | (false, heap) => (.error .enomem, heap)
  | (true, heap) =>
    match coordBusMemberAdd ⟨instanceId, [], 0, [], 0, []⟩ heap instanceId 0 with
    | (.ok, bus, heap) => (.ok bus, heap)
    | (.err code, _, heap) => (.error code, heap)

def coordBusMemberFind (instanceId : UInt32) : Option BusMember :=
  bus.members.find? fun m => m.instanceId = instanceId

/-- Writing through the pointer `coord_bus_member_find` returns: the first match only. -/
def setOwnedCellCount (instanceId owned : UInt32) : List BusMember → List BusMember
  | [] => []
  | m :: ms =>
    if m.instanceId = instanceId then { m with ownedCellCount := owned } :: ms
    else m :: setOwnedCellCount instanceId owned ms

def Bus.setLoad (instanceId owned : UInt32) : Bus :=
  { bus with members := setOwnedCellCount instanceId owned bus.members }

theorem setOwnedCellCount_ids (instanceId owned : UInt32) (ms : List BusMember) :
    (setOwnedCellCount instanceId owned ms).map BusMember.instanceId =
      ms.map BusMember.instanceId := by
  induction ms with
  | nil => rfl
  | cons m ms ih =>
    rw [setOwnedCellCount]
    split
    · rfl
    · simp [ih]

def Bus.ids : List UInt32 := bus.members.map BusMember.instanceId

@[simp] theorem setLoad_ids (instanceId owned : UInt32) :
    (bus.setLoad instanceId owned).ids = bus.ids :=
  setOwnedCellCount_ids instanceId owned bus.members

@[simp] theorem length_ids : bus.ids.length = bus.members.length := by
  simp [Bus.ids]

end Membership

section Queue

/-- The growth of the pending ring when it is full. -/
def Bus.reserve : Bool × Bus × Heap BusSite :=
  if bus.pending.length = bus.pendingCap then
    match heap.request .pendingGrow with
    | (false, heap) => (false, bus, heap)
    | (true, heap) =>
      (true, { bus with
        pendingCap := if bus.pendingCap = 0 then 64 else bus.pendingCap * 2 }, heap)
  else (true, bus, heap)

def Bus.event (eventType : BusEventType) (zone : UInt32) (payload : List UInt8) : BusEvent :=
  ⟨eventType, zone, bus.instanceId, 0, payload⟩

def kithCoordBusPublish (eventType : BusEventType)
    (zone : UInt32) (payload : List UInt8) : Rc × Bus × Heap BusSite :=
  match bus.reserve heap with
  | (false, bus, heap) => (.err .enomem, bus, heap)
  | (true, bus, heap) =>
    if payload = [] then
      (.ok, { bus with pending := bus.pending ++ [bus.event eventType zone payload] }, heap)
    else
      match heap.request .payload with
      | (false, heap) => (.err .enomem, bus, heap)
      | (true, heap) =>
        (.ok, { bus with pending := bus.pending ++ [bus.event eventType zone payload] }, heap)

/-- The copy loop of the drain; `out` says whether a buffer was given. -/
def drainLoop (out : Bool) (max : Nat) : Nat → List BusEvent → List BusEvent
  | _, [] => []
  | copied, e :: es =>
    if out = true ∧ copied < max then e :: drainLoop out max (copied + 1) es
    else drainLoop out max copied es

structure DrainResult where
  copied : List BusEvent
  outCount : Nat
  bus : Bus

def kithCoordBusDrain (out : Bool) (max : Nat) : DrainResult :=
  let drained := bus.pending
  let copied := drainLoop out max 0 drained
  { copied := copied
    outCount := if out = true then copied.length else drained.length
    bus := { bus with drained := drained, pending := [], pendingCap := 0 } }

theorem drainLoop_eq (out : Bool) (max copied : Nat) (es : List BusEvent) :
    drainLoop out max copied es = if out = true then es.take (max - copied) else [] := by
  induction es generalizing copied with
  | nil => simp [drainLoop]
  | cons e es ih =>
    cases out with
    | false => simpa [drainLoop] using ih copied
    | true =>
      by_cases room : copied < max
      · have hsub : max - copied = (max - (copied + 1)) + 1 := by omega
        simp only [drainLoop, room, and_self, if_true, ih, hsub, take_succ_cons]
      · have hsub : max - copied = 0 := by omega
        simp only [drainLoop, room, and_false, if_false, if_true, ih, hsub, take_zero]

/-- Whether the allocations of one publish are granted. -/
def Bus.publishGranted (payload : List UInt8) : Bool :=
  match bus.reserve heap with
  | (granted, _, heap) => granted && (payload.isEmpty || heap.grant .payload heap.calls)

theorem reserve_keeps {bus bus' : Bus} {heap heap' : Heap BusSite} {granted : Bool}
    (reserved : bus.reserve heap = (granted, bus', heap')) :
    bus'.pending = bus.pending ∧ bus'.instanceId = bus.instanceId ∧
      bus'.members = bus.members := by
  simp only [Bus.reserve, Heap.request] at reserved
  split at reserved
  · cases grant : heap.grant .pendingGrow heap.calls with
    | false | true =>
      rw [grant] at reserved
      cases reserved
      exact ⟨rfl, rfl, rfl⟩
  · cases reserved
    exact ⟨rfl, rfl, rfl⟩

/-- A publish appends its event when its allocations are granted, and otherwise
leaves the queue as it was. -/
structure PublishSpec (bus : Bus) (granted : Bool) (e : BusEvent)
    (r : Rc × Bus × Heap BusSite) : Prop where
  rc : r.1 = if granted then .ok else .err .enomem
  pending : r.2.1.pending = bus.pending ++ if granted then [e] else []
  members : r.2.1.members = bus.members

theorem kithCoordBusPublish_spec (eventType : BusEventType) (zone : UInt32) (payload : List UInt8) :
    PublishSpec bus (bus.publishGranted heap payload) (bus.event eventType zone payload)
      (kithCoordBusPublish bus heap eventType zone payload) := by
  cases reserved : bus.reserve heap with
  | mk granted rest =>
    obtain ⟨bus', heap'⟩ := rest
    obtain ⟨hpending, hinst, hmembers⟩ := reserve_keeps reserved
    have same : bus'.event eventType zone payload = bus.event eventType zone payload := by
      rw [Bus.event, Bus.event, hinst]
    simp only [kithCoordBusPublish, Bus.publishGranted, reserved]
    cases granted with
    | false => exact ⟨rfl, by simp [hpending], hmembers⟩
    | true =>
      by_cases empty : payload = []
      · subst empty
        exact ⟨by simp, by simp [hpending, same], by simpa using hmembers⟩
      · have nonempty : payload.isEmpty = false := by simpa using empty
        simp only [empty, if_false, nonempty, Bool.false_or, Bool.true_and, Heap.request]
        cases grant : heap'.grant .payload heap'.calls with
        | false => exact ⟨rfl, by simp [hpending], hmembers⟩
        | true => exact ⟨rfl, by simp [hpending, same], hmembers⟩

end Queue

section Contracts

/-- `kith_coord_rebalance_contract_t`. -/
structure RebalanceContract where
  key : CellKey
  sourceInstanceId : UInt32
  targetInstanceId : UInt32
  authorityEpoch : UInt32
  deriving DecidableEq

def u32Bytes (x : UInt32) : List UInt8 := leBytes 4 x.toNat

def u32At (bs : List UInt8) (off : Nat) : UInt32 := UInt32.ofNat (leValue ((bs.drop off).take 4))

/-- The 36 bytes of the struct as they are copied onto the bus: little-endian
words, the key's three pad bytes and the trailing pad word zero. -/
def RebalanceContract.bytes (c : RebalanceContract) : List UInt8 :=
  u32Bytes c.key.zone ++ (u32Bytes c.key.cellX.toUInt32 ++ (u32Bytes c.key.cellY.toUInt32 ++
    (u32Bytes c.key.cellZ.toUInt32 ++ (c.key.lod :: 0 :: 0 :: 0 ::
      (u32Bytes c.sourceInstanceId ++ (u32Bytes c.targetInstanceId ++
        (u32Bytes c.authorityEpoch ++ u32Bytes 0)))))))

/-- The struct read back through the payload pointer; shorter payloads hold none. -/
def contractOfBytes (bs : List UInt8) : Option RebalanceContract :=
  if bs.length < 36 then none
  else some {
    key := ⟨u32At bs 0, (u32At bs 4).toInt32, (u32At bs 8).toInt32, (u32At bs 12).toInt32,
      bs.getD 16 0⟩
    sourceInstanceId := u32At bs 20
    targetInstanceId := u32At bs 24
    authorityEpoch := u32At bs 28 }

@[simp] theorem length_u32Bytes (x : UInt32) : (u32Bytes x).length = 4 := by
  simp [u32Bytes]

theorem u32At_of_eq {bs rest : List UInt8} (pre : List UInt8) {x : UInt32} {off : Nat}
    (layout : bs = pre ++ (u32Bytes x ++ rest)) (hoff : pre.length = off) : u32At bs off = x := by
  have fits : x.toNat < 256 ^ 4 := x.toNat_lt
  subst hoff layout
  rw [u32At, drop_left, take_left' (length_u32Bytes x), u32Bytes,
    leValue_leBytes_of_lt fits, UInt32.ofNat_toNat]

theorem contractOfBytes_bytes (c : RebalanceContract) : contractOfBytes c.bytes = some c := by
  have len : ¬ c.bytes.length < 36 := by simp [RebalanceContract.bytes]
  let words := u32Bytes c.key.zone ++ u32Bytes c.key.cellX.toUInt32 ++
    u32Bytes c.key.cellY.toUInt32 ++ u32Bytes c.key.cellZ.toUInt32
  let key := words ++ [c.key.lod, 0, 0, 0]
  have zone : u32At c.bytes 0 = c.key.zone := u32At_of_eq [] rfl rfl
  have x : u32At c.bytes 4 = c.key.cellX.toUInt32 := u32At_of_eq (u32Bytes c.key.zone) rfl rfl
  have y : u32At c.bytes 8 = c.key.cellY.toUInt32 :=
    u32At_of_eq (u32Bytes c.key.zone ++ u32Bytes c.key.cellX.toUInt32)
      (append_assoc _ _ _).symm rfl
  have z : u32At c.bytes 12 = c.key.cellZ.toUInt32 :=
    u32At_of_eq (u32Bytes c.key.zone ++ u32Bytes c.key.cellX.toUInt32 ++
      u32Bytes c.key.cellY.toUInt32) (by simp only [append_assoc]; rfl) rfl
  have lod : c.bytes.getD 16 0 = c.key.lod := rfl
  have source : u32At c.bytes 20 = c.sourceInstanceId :=
    u32At_of_eq key (by simp [key, words, RebalanceContract.bytes]; rfl) rfl
  have target : u32At c.bytes 24 = c.targetInstanceId :=
    u32At_of_eq (key ++ u32Bytes c.sourceInstanceId)
      (by simp [key, words, RebalanceContract.bytes]; rfl) rfl
  have epoch : u32At c.bytes 28 = c.authorityEpoch :=
    u32At_of_eq (key ++ u32Bytes c.sourceInstanceId ++ u32Bytes c.targetInstanceId)
      (by simp [key, words, RebalanceContract.bytes]; rfl) rfl
  rw [contractOfBytes, if_neg len, zone, x, y, z, lod, source, target, epoch]
  simp

end Contracts

section Runs

inductive BusOp where
  | publish (eventType : BusEventType) (zone : UInt32) (payload : List UInt8)
  | drain (out : Bool) (max : Nat)
  deriving DecidableEq

/-- A bus with the record of what publishes accepted and what drains copied out. -/
structure BusRun where
  bus : Bus
  heap : Heap BusSite
  published : List BusEvent
  copied : List BusEvent

def BusRun.start : BusRun := ⟨bus, heap, bus.pending, []⟩

def BusRun.step (s : BusRun) : BusOp → BusRun
  | .publish eventType zone payload =>
    match kithCoordBusPublish s.bus s.heap eventType zone payload with
    | (.ok, bus, heap) =>
      { s with
        bus := bus
        heap := heap
        published := s.published ++ [⟨eventType, zone, s.bus.instanceId, 0, payload⟩] }
    | (.err _, bus, heap) => { s with bus := bus, heap := heap }
  | .drain out max =>
    let r := kithCoordBusDrain s.bus out max
    { s with bus := r.bus, copied := s.copied ++ r.copied }

def BusRun.run (s : BusRun) (ops : List BusOp) : BusRun := ops.foldl BusRun.step s

/-- Every drain that finds events pending is given a buffer for all of them. -/
def BusRun.Roomy : BusRun → List BusOp → Prop
  | _, [] => True
  | s, .publish eventType zone payload :: ops =>
    (s.step (.publish eventType zone payload)).Roomy ops
  | s, .drain out max :: ops =>
    (s.bus.pending = [] ∨ out = true ∧ s.bus.pending.length ≤ max) ∧
      (s.step (.drain out max)).Roomy ops

/-- Nothing is copied or still pending that was not published before, in that order. -/
def BusRun.InOrder (s : BusRun) : Prop := (s.copied ++ s.bus.pending).Sublist s.published

def BusRun.Complete (s : BusRun) : Prop := s.copied ++ s.bus.pending = s.published

theorem publish_step (s : BusRun) (eventType : BusEventType) (zone : UInt32)
    (payload : List UInt8) :
    let t := s.step (.publish eventType zone payload)
    ∃ new, t.copied = s.copied ∧ t.bus.pending = s.bus.pending ++ new ∧
      t.published = s.published ++ new := by
  have spec := kithCoordBusPublish_spec s.bus s.heap eventType zone payload
  simp only [BusRun.step]
  rcases result : kithCoordBusPublish s.bus s.heap eventType zone payload with ⟨rc, bus, heap⟩
  rw [result] at spec
  cases granted : s.bus.publishGranted s.heap payload with
  | true =>
    obtain rfl : rc = .ok := by simpa [granted] using spec.rc
    exact ⟨_, rfl, by simpa [granted, Bus.event] using spec.pending, rfl⟩
  | false =>
    obtain rfl : rc = .err .enomem := by simpa [granted] using spec.rc
    exact ⟨[], rfl, by simpa [granted] using spec.pending, by simp⟩

theorem drain_takes (out : Bool) (max : Nat) :
    (kithCoordBusDrain bus out max).copied = (if out = true then bus.pending.take max else []) ∧
      (kithCoordBusDrain bus out max).bus.pending = [] := by
  simp [kithCoordBusDrain, drainLoop_eq]

variable {s : BusRun}

theorem step_inOrder (inOrder : s.InOrder) (op : BusOp) : (s.step op).InOrder := by
  cases op with
  | publish eventType zone payload =>
    obtain ⟨new, hcopied, hpending, hpublished⟩ := publish_step s eventType zone payload
    rw [BusRun.InOrder, hcopied, hpending, hpublished, ← append_assoc]
    exact inOrder.append_right new
  | drain out max =>
    obtain ⟨taken, emptied⟩ := drain_takes s.bus out max
    have part : ((kithCoordBusDrain s.bus out max).copied).Sublist s.bus.pending := by
      rw [taken]
      split
      · exact take_sublist max _
      · exact nil_sublist _
    simp only [BusRun.InOrder, BusRun.step, emptied, append_nil]
    exact (part.append_left s.copied).trans inOrder

theorem run_inOrder (inOrder : s.InOrder) (ops : List BusOp) : (s.run ops).InOrder := by
  induction ops generalizing s with
  | nil => exact inOrder
  | cons op ops ih => exact ih (step_inOrder inOrder op)

theorem publish_complete_iff (s : BusRun) (eventType : BusEventType) (zone : UInt32)
    (payload : List UInt8) :
    (s.step (.publish eventType zone payload)).Complete ↔ s.Complete := by
  obtain ⟨new, hcopied, hpending, hpublished⟩ := publish_step s eventType zone payload
  rw [BusRun.Complete, hcopied, hpending, hpublished, ← append_assoc, append_left_inj]
  rfl

theorem drain_complete_iff (inOrder : s.InOrder) (out : Bool) (max : Nat) :
    (s.step (.drain out max)).Complete ↔
      s.Complete ∧ (s.bus.pending = [] ∨ out = true ∧ s.bus.pending.length ≤ max) := by
  obtain ⟨taken, emptied⟩ := drain_takes s.bus out max
  have fits : (kithCoordBusDrain s.bus out max).copied = s.bus.pending ↔
      s.bus.pending = [] ∨ out = true ∧ s.bus.pending.length ≤ max := by
    rw [taken]
    cases out with
    | false => simp [eq_comm]
    | true =>
      simp only [if_true, take_eq_self_iff, true_and]
      constructor
      · exact .inr
      · rintro (empty | short)
        · simp [empty]
        · exact short
  rw [← fits]
  simp only [BusRun.Complete, BusRun.step, emptied, append_nil]
  constructor
  · intro complete
    have whole :
        s.copied ++ s.bus.pending = s.copied ++ (kithCoordBusDrain s.bus out max).copied := by
      apply List.Sublist.antisymm
      · rw [complete]
        exact inOrder
      · apply List.Sublist.append_left
        rw [taken]
        split
        · exact take_sublist max _
        · exact nil_sublist _
    exact ⟨whole.trans complete, (append_cancel_left whole).symm⟩
  · rintro ⟨complete, whole⟩
    rw [whole, complete]

theorem run_complete_iff (inOrder : s.InOrder) (ops : List BusOp) :
    (s.run ops).Complete ↔ s.Complete ∧ s.Roomy ops := by
  induction ops generalizing s with
  | nil => simp [BusRun.run, BusRun.Roomy]
  | cons op ops ih =>
    have tail := ih (step_inOrder inOrder op)
    cases op with
    | publish eventType zone payload =>
      rw [publish_complete_iff] at tail
      exact tail
    | drain out max =>
      rw [drain_complete_iff inOrder, and_assoc] at tail
      exact tail

/-- Every drain takes the whole queue and copies out, in order, what fits the
buffer. What was copied out, followed by what is pending, is part of the
published sequence, in order, and it is all of it exactly when no drain was
given less room than there were events pending. -/
theorem bus_delivers_in_order (bus : Bus) (heap : Heap BusSite) (ops : List BusOp) :
    (∀ (b : Bus) (out : Bool) (max : Nat),
      (kithCoordBusDrain b out max).copied = (if out = true then b.pending.take max else []) ∧
        (kithCoordBusDrain b out max).bus.pending = []) ∧
    (((BusRun.start bus heap).run ops).copied ++
      ((BusRun.start bus heap).run ops).bus.pending).Sublist
        ((BusRun.start bus heap).run ops).published ∧
    (((BusRun.start bus heap).run ops).copied ++ ((BusRun.start bus heap).run ops).bus.pending =
      ((BusRun.start bus heap).run ops).published ↔ (BusRun.start bus heap).Roomy ops) := by
  have inOrder : (BusRun.start bus heap).InOrder := List.Sublist.refl _
  have complete : (BusRun.start bus heap).Complete := List.nil_append _
  refine ⟨drain_takes, run_inOrder inOrder ops, ?_⟩
  exact (run_complete_iff inOrder ops).trans (and_iff_right complete)

/-- Two accepted events, one slot in the buffer: the second is never handed out. -/
theorem drain_drops_second :
    let heap : Heap BusSite := ⟨fun _ _ => true, 0⟩
    let bus : Bus := ⟨1, [⟨1, 0, 0, 0⟩], 8, [], 0, []⟩
    let s := (BusRun.start bus heap).run
      [.publish .rebalance 7 [1], .publish .rebalance 7 [2], .drain true 1, .drain true 4]
    s.published.length = 2 ∧ s.copied ++ s.bus.pending ≠ s.published := by
  decide

end Runs

end Kith.Coord
