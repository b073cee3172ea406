import Kith.Coord.Announce
import Kith.Lib.Runs

/-!
# Draining the coordination bus

A tick of the server takes what is pending on the bus into a batch of sixteen
events, hands the rebalance contracts of the batch to the coord until one is
refused, and then ticks the coord, which may publish contracts of its own.
-/

namespace Kith.Server

open Kith.Coord Runs List

variable (r : PlaneRun)

section Tick

/-- The loop over the batch, with the events whose contract was handed to the coord. -/
def serverApplyEvents (c : KithCoord) : List BusEvent → Rc × KithCoord × List BusEvent
  | [] => (.ok, c, [])
  | e :: es =>
    -- another type of event, or a payload too short for a contract
    match e.contract? with
    | none => serverApplyEvents c es
    | some contract =>
      match kithCoordOnRebalance c contract with
      | (.err code, c) => (.err code, c, [e])
      | (.ok, c) =>
        match serverApplyEvents c es with
        | (rc, c, handed) => (rc, c, e :: handed)

def kithCoordBusTick (bus : Bus) (nowMs : UInt64) : Bus :=
  { bus with members := bus.members.modify 0 fun m => { m with heartbeatMs := nowMs } }

/-- The coord and the bus of a server; `published` records the events the bus accepted and
`handed` those that were passed to `kith_coord_on_rebalance`. -/
structure PlaneRun where
  coord : KithCoord
  bus : Bus
  heap : Heap BusSite
  published : List BusEvent
  handed : List BusEvent

/-- The part of a tick after a drain that went through. -/
def PlaneRun.tickCoord (nowMs : UInt64) : Rc × PlaneRun :=
  match coordTickOn ⟨r.coord, r.bus, r.heap⟩ nowMs with
  | (rc, t) =>
    let r := { r with
      coord := t.coord
      heap := t.heap
      published := r.published ++ t.bus.pending.drop r.bus.pending.length }
    match rc with
    | .err code => (.err code, { r with bus := t.bus })
    | .ok => (.ok, { r with bus := kithCoordBusTick t.bus nowMs })

/-- The planes of the coord; the gateway comes after them. -/
def serverTickPlanes (nowMs : UInt64) : Rc × PlaneRun :=
  let drained := kithCoordBusDrain r.bus true 16
  match serverApplyEvents r.coord drained.copied with
  | (rc, coord, handed) =>
    let r := { r with coord := coord, bus := drained.bus, handed := r.handed ++ handed }
    match rc with
    | .err code => (.err code, r)
    | .ok => r.tickCoord nowMs

inductive PlaneOp where
  | publish (eventType : BusEventType) (zone : UInt32) (payload : List UInt8)
  | tick (nowMs : UInt64)

def PlaneRun.next : PlaneOp → PlaneRun
  | .publish eventType zone payload =>
    match kithCoordBusPublish r.bus r.heap eventType zone payload with
    | (rc, bus, heap) =>
      { r with
        bus := bus
        heap := heap
        published := r.published ++ if rc = .ok then [r.bus.event eventType zone payload] else [] }
  | .tick nowMs => (serverTickPlanes r nowMs).2

def PlaneRun.start (coord : KithCoord) (bus : Bus) (heap : Heap BusSite) : PlaneRun :=
  ⟨coord, bus, heap, [], []⟩

end Tick

section Contracts

def rebalances (es : List BusEvent) : List BusEvent := es.filter fun e => e.eventType = .rebalance

def Carrying (es : List BusEvent) : Prop :=
  ∀ e ∈ es, e.eventType = .rebalance → e.contract?.isSome = true

variable {c : KithCoord}

theorem serverApplyEvents_valid (valid : c.Valid) (es : List BusEvent) :
    (serverApplyEvents c es).2.1.Valid := by
  induction es generalizing c with
  | nil => exact valid
  | cons e es ih =>
    rw [serverApplyEvents]
    cases e.contract? with
    | none => exact ih valid
    | some contract =>
      have after := (kithCoordOnRebalance_spec valid contract).1
      rcases applied : kithCoordOnRebalance c contract with ⟨_ | code, c'⟩
      · simp only [applied] at after ⊢
        exact ih after
      · simp only [applied] at after ⊢
        exact after

theorem serverApplyEvents_handed {es : List BusEvent} (carrying : Carrying es)
    (through : (serverApplyEvents c es).1 = .ok) :
    (serverApplyEvents c es).2.2 = rebalances es := by
  induction es generalizing c with
  | nil => rfl
  | cons e es ih =>
    obtain ⟨first, later⟩ := forall_mem_cons.mp carrying
    rw [serverApplyEvents] at through ⊢
    by_cases kind : e.eventType = .rebalance
    · obtain ⟨contract, read⟩ := Option.isSome_iff_exists.mp (first kind)
      rw [read] at through ⊢
      have keep : rebalances (e :: es) = e :: rebalances es := filter_cons_of_pos (by simp [kind])
      rcases applied : kithCoordOnRebalance c contract with ⟨_ | code, c'⟩
      · simp only [applied] at through ⊢
        rw [ih later through, keep]
      · simp only [applied] at through
        cases through
    · have drop : rebalances (e :: es) = rebalances es := filter_cons_of_neg (by simp [kind])
      rw [show e.contract? = none by simp [BusEvent.contract?, kind]] at through ⊢
      rw [drop]
      exact ih later through

/-- Each contract is accepted in the state that the ones before it have led to. -/
def Accepts : KithCoord → List BusEvent → Prop
  | _, [] => True
  | c, e :: es =>
    match e.contract? with
    | none => Accepts c es
    | some contract =>
      (kithCoordOnRebalance c contract).1 = .ok ∧ Accepts (kithCoordOnRebalance c contract).2 es

theorem accepts_iff {es : List BusEvent} : Accepts c es ↔ (serverApplyEvents c es).1 = .ok := by
  induction es generalizing c with
  | nil => exact iff_of_true trivial rfl
  | cons e es ih =>
    rw [Accepts, serverApplyEvents]
    cases e.contract? with
    | none => exact ih
    | some contract =>
      dsimp only
      rcases kithCoordOnRebalance c contract with ⟨_ | code, c'⟩
      · simp [ih]
      · simp

theorem coordTickOn_publishes {s : TickState} (valid : s.coord.Valid) (nowMs : UInt64) :
    (coordTickOn s nowMs).2.coord.Valid ∧
      ∃ new, (coordTickOn s nowMs).2.bus.pending = s.bus.pending ++ new ∧ Carrying new := by
  refine (tick_invariant (P := fun t => t.coord.Valid ∧
    ∃ new, t.bus.pending = s.bus.pending ++ new ∧ Carrying new) ?_ ?_ ?_).1
  · exact ⟨countTick_valid valid, [], (append_nil _).symm, forall_mem_nil _⟩
  · rw [tickStart_coord, tickStart_pending]
    exact ⟨countTick_valid valid, [], (append_nil _).symm, forall_mem_nil _⟩
  · rintro ⟨v, t⟩ _ ⟨valid, new, pending, carrying⟩
    cases planned : phasePlan nowMs v t with
    | none =>
      rw [coordTickPhase_of_plan_none planned]
      exact ⟨valid, new, pending, carrying⟩
    | some d =>
      have spec := coordTickPhase_of_plan_some valid planned
      refine ⟨spec.valid, new ++ _, by rw [spec.pending, pending, append_assoc], ?_⟩
      intro e member _
      rcases mem_append.mp member with old | fresh
      · exact carrying e old ‹_›
      · split at fresh
        · rw [mem_singleton.mp fresh, event_contract]
          rfl
        · cases fresh

end Contracts

section Runs

/-- The condition on a step: a published rebalance event carries a contract, and a tick finds
at most sixteen events pending and has none of their contracts refused. -/
def Lossless : PlaneOp → Prop
  | .publish eventType _ payload => eventType = .rebalance → 36 ≤ payload.length
  | .tick _ => r.bus.pending.length ≤ 16 ∧ Accepts r.coord r.bus.pending

/-- What was published has been handed over or is pending, in order. -/
structure PlaneRun.Accounted (r : PlaneRun) : Prop where
  valid : r.coord.Valid
  carrying : Carrying r.bus.pending
  split : rebalances r.published = r.handed ++ rebalances r.bus.pending

theorem rebalances_append (xs ys : List BusEvent) :
    rebalances (xs ++ ys) = rebalances xs ++ rebalances ys := filter_append ..

theorem Carrying.append {xs ys : List BusEvent} (left : Carrying xs) (right : Carrying ys) :
    Carrying (xs ++ ys) := by
  intro e member
  rcases mem_append.mp member with here | here
  · exact left e here
  · exact right e here

variable {r : PlaneRun}

section

variable (acc : r.Accounted)
include acc

theorem PlaneRun.Accounted.grow {t : PlaneRun} {new : List BusEvent} (valid : t.coord.Valid)
    (pending : t.bus.pending = r.bus.pending ++ new) (published : t.published = r.published ++ new)
    (handed : t.handed = r.handed) (carrying : Carrying new) : t.Accounted := by
  refine ⟨valid, ?_, ?_⟩
  · rw [pending]
    exact acc.carrying.append carrying
  · rw [published, pending, handed, rebalances_append, rebalances_append, acc.split, append_assoc]

theorem PlaneRun.Accounted.publish {eventType : BusEventType} (zone : UInt32) {payload : List UInt8}
    (whole : eventType = .rebalance → 36 ≤ payload.length) :
    (r.next (.publish eventType zone payload)).Accounted := by
  have spec := kithCoordBusPublish_spec r.bus r.heap eventType zone payload
  have carrying : Carrying [r.bus.event eventType zone payload] := by
    intro e member kind
    obtain rfl := mem_singleton.mp member
    have kind : eventType = .rebalance := kind
    simp [BusEvent.contract?, kind, contractOfBytes, Bus.event, Nat.not_lt.mpr (whole kind)]
  simp only [PlaneRun.next]
  rcases result : kithCoordBusPublish r.bus r.heap eventType zone payload with ⟨rc, bus, heap⟩
  rw [result] at spec
  refine acc.grow acc.valid spec.pending ?_ rfl ?_
  · cases granted : r.bus.publishGranted r.heap payload with
    | true => simp [show rc = .ok by simpa [granted] using spec.rc]
    | false => simp [show rc = .err .enomem by simpa [granted] using spec.rc]
  · split
    · exact carrying
    · exact forall_mem_nil _

theorem PlaneRun.Accounted.tickCoord (nowMs : UInt64) :
    (r.tickCoord nowMs).2.Accounted ∧ (r.tickCoord nowMs).2.handed = r.handed := by
  obtain ⟨valid, new, pending, carrying⟩ :=
    coordTickOn_publishes (s := ⟨r.coord, r.bus, r.heap⟩) acc.valid nowMs
  unfold PlaneRun.tickCoord
  rcases ticked : coordTickOn ⟨r.coord, r.bus, r.heap⟩ nowMs with ⟨rc, t⟩
  rw [ticked] at valid pending
  have published : r.published ++ t.bus.pending.drop r.bus.pending.length = r.published ++ new := by
    rw [pending, drop_left]
  cases rc with
  | err code | ok => exact ⟨acc.grow valid pending published rfl carrying, rfl⟩

theorem PlaneRun.Accounted.tick {nowMs : UInt64} (lossless : Lossless r (.tick nowMs)) :
    (r.next (.tick nowMs)).Accounted ∧ (r.next (.tick nowMs)).handed = rebalances r.published := by
  obtain ⟨few, accepted⟩ := lossless
  have through := accepts_iff.mp accepted
  have batch : (kithCoordBusDrain r.bus true 16).copied = r.bus.pending := by
    rw [(drain_takes r.bus true 16).1, if_pos rfl, take_of_length_le few]
  have handed := serverApplyEvents_handed acc.carrying through
  have valid := serverApplyEvents_valid acc.valid r.bus.pending
  simp only [PlaneRun.next, serverTickPlanes, batch]
  rcases applied : serverApplyEvents r.coord r.bus.pending with ⟨rc, coord, taken⟩
  rw [applied] at through handed valid
  obtain rfl : rc = .ok := through
  obtain rfl : taken = rebalances r.bus.pending := handed
  rw [← acc.split]
  have drained : PlaneRun.Accounted { r with
      coord := coord
      bus := (kithCoordBusDrain r.bus true 16).bus
      handed := rebalances r.published } :=
    ⟨valid, forall_mem_nil _, (append_nil _).symm⟩
  exact drained.tickCoord nowMs

end

/-- A coord of sixteen buckets, alone on its bus. -/
def loneBus : Bus := ⟨1, [⟨1, 0, 0, 0⟩], 8, [], 0, []⟩

def loneRun : PlaneRun := .start sampleCoord loneBus ⟨fun _ _ => true, 2⟩

def clearing : PlaneOp := .publish .rebalance 7 (RebalanceContract.bytes ⟨sampleCell 0, 1, 0, 1⟩)

end Runs

end Kith.Server
