import Kith.Lib.Runs
import Kith.Gateway.Delivery

/-!
# The full delivery strategy

Every pass sends the whole view. Membership events are kept in a backlog until
a frame that carries them is taken by the connection. The backlog is bounded:
what does not fit is dropped from its end, and a batch frame counts at most
65535 records. Nothing else is ever lost.
-/

namespace Kith.Gateway

open Runs List

inductive FullSite where
  | backlog | scratch
  deriving DecidableEq

structure FullState where
  pending : List ViewEvent
  pendingCap : Nat
  deriving DecidableEq

section Source

def fullBacklogCap (g : DeliveryGateway) : Nat := g.viewMaxSubjects.toNat * 4 + 8

/-- Room for one more event; `false` when the array could not be grown. -/
def fullBacklogGrow (st : FullState) (heap : Heap FullSite) : Bool × FullState × Heap FullSite :=
  if st.pending.length = st.pendingCap then
    match heap.request .backlog with
    | (false, heap) => (false, st, heap)
    | (true, heap) =>
      (true, { st with pendingCap := if st.pendingCap = 0 then 8 else st.pendingCap * 2 }, heap)
  else (true, st, heap)

def fullBacklogAbsorb (cap : Nat) :
    List ViewEvent → FullState → Heap FullSite → FullState × Heap FullSite
  | [], st, heap => (st, heap)
  | e :: delta, st, heap =>
    if st.pending.length = cap then (st, heap)
    else
      match fullBacklogGrow st heap with
      | (false, st, heap) => (st, heap)
      | (true, st, heap) =>
        fullBacklogAbsorb cap delta { st with pending := st.pending ++ [e] } heap

/-- `scratch` is the capacity of the calling thread's buffer, none when the thread could
not claim one. A frame of 2^32 bytes or more is not built. -/
def fullDeliverBatch (g : DeliveryGateway) (st : FullState) (wire : Wire) (heap : Heap FullSite)
    (subjects : List ViewSubject) (scratch : Option Nat) :
    DeliveryStats × FullState × Wire × Heap FullSite :=
  if subjects = [] ∧ st.pending = [] then (⟨0, 0, 0, 0⟩, st, wire, heap)
  else
    match scratch with
    | none => (⟨0, 1, 0, 0⟩, st, wire, heap)
    | some batchCap =>
      let need := 4 + (st.pending.length + subjects.length) * 68
      if 2 ^ 32 ≤ need then (⟨0, 0, 0, 0⟩, st, wire, heap)
      else
        match (if need ≤ batchCap then (true, heap) else heap.request .scratch) with
        | (false, heap) => (⟨0, 1, 0, 0⟩, st, wire, heap)
        | (true, heap) =>
          match gatewayDeliveryEnqueue wire g.replicationBatchTypeId
              (batchPayload (st.pending.map gatewayDeliverySerializeEvent ++
                subjects.map gatewayDeliverySerialize)) with
          | (true, wire) =>
            (⟨1, 0, .ofNat st.pending.length, 0⟩, { st with pending := [] }, wire, heap)
          | (false, wire) => (⟨0, 1, 0, 0⟩, st, wire, heap)

/-- The events that were not taken: the connection is left at the first refusal. -/
def fullSendEvents (g : DeliveryGateway) :
    List ViewEvent → DeliveryStats → Wire → List ViewEvent × DeliveryStats × Wire
  | [], stats, wire => ([], stats, wire)
  | e :: pending, stats, wire =>
    match gatewayDeliveryEnqueue wire g.replicationTypeId (gatewayDeliverySerializeEvent e) with
    | (true, wire) =>
      fullSendEvents g pending
        { stats with enqueued := stats.enqueued + 1, eventsEnqueued := stats.eventsEnqueued + 1 }
        wire
    | (false, wire) => (e :: pending, { stats with dropped := stats.dropped + 1 }, wire)

def fullDeliverOne (g : DeliveryGateway) (s : ViewSubject) (stats : DeliveryStats) (wire : Wire) :
    DeliveryStats × Wire :=
  match gatewayDeliveryEnqueue wire g.replicationTypeId (gatewayDeliverySerialize s) with
  | (true, wire) => ({ stats with enqueued := stats.enqueued + 1 }, wire)
  | (false, wire) => ({ stats with dropped := stats.dropped + 1 }, wire)

def fullSendSubjects (g : DeliveryGateway) :
    List ViewSubject → DeliveryStats → Wire → DeliveryStats × Wire
  | [], stats, wire => (stats, wire)
  | s :: subjects, stats, wire =>
    let (stats, wire) := fullDeliverOne g s stats wire
    fullSendSubjects g subjects stats wire

def fullDeliverSingle (g : DeliveryGateway) (st : FullState) (wire : Wire)
    (subjects : List ViewSubject) : DeliveryStats × FullState × Wire :=
  let (pending, stats, wire) := fullSendEvents g st.pending ⟨0, 0, 0, 0⟩ wire
  let (stats, wire) := fullSendSubjects g subjects stats wire
  (stats, { st with pending := pending }, wire)

/-- One call of the strategy: the delta it takes, the view, and the thread's scratch. -/
structure FullPass where
  delta : List ViewEvent
  subjects : List ViewSubject
  scratch : Option Nat
  deriving DecidableEq

/-- A session's strategy state, its connection and the allocator. `handed` lists every
event that was given to the backlog. -/
structure FullSession where
  st : FullState
  wire : Wire
  heap : Heap FullSite
  handed : List ViewEvent

def fullSessionInit (wire : Wire) (heap : Heap FullSite) : FullSession :=
  ⟨⟨[], 0⟩, wire, heap, []⟩

def fullDeliver (g : DeliveryGateway) (s : FullSession) (pass : FullPass) :
    (Rc × DeliveryStats) × FullSession :=
  if g.replicationBatchTypeId = 0 ∧ g.replicationTypeId = 0 then ((.err .estate, ⟨0, 0, 0, 0⟩), s)
  else
    let (st, heap) := fullBacklogAbsorb (fullBacklogCap g) pass.delta s.st s.heap
    let handed := s.handed ++ pass.delta
    if g.replicationBatchTypeId ≠ 0 then
      let (stats, st, wire, heap) :=
        fullDeliverBatch g st s.wire heap pass.subjects pass.scratch
      ((.ok, stats), ⟨st, wire, heap, handed⟩)
    else
      let (stats, st, wire) := fullDeliverSingle g st s.wire pass.subjects
      ((.ok, stats), ⟨st, wire, heap, handed⟩)

end Source

def events (rs : List Record) : List ViewEvent := rs.filterMap Record.event

section Lists

theorem events_append (rs later : List Record) : events (rs ++ later) = events rs ++ events later :=
  filterMap_append

theorem events_viewEvents (es : List ViewEvent) : events (es.map ViewEvent.record) = es := by
  rw [events, filterMap_map]
  exact (filterMap_congr fun e _ => event_viewEvent e).trans filterMap_some

theorem events_viewSubjects (subjects : List ViewSubject) :
    events (subjects.map ViewSubject.record) = [] := by
  rw [events, filterMap_map, filterMap_eq_nil_iff]
  exact fun s _ => event_viewSubject s

theorem departures_append (es later : List ViewEvent) :
    departures (es ++ later) = departures es ++ departures later :=
  filter_append ..

theorem departures_take {es : List ViewEvent} {n : Nat}
    (none : ∀ e ∈ es.drop n, e.kind.departure = false) :
    departures (es.take n) = departures es := by
  have rest : departures (es.drop n) = [] :=
    filter_eq_nil_iff.mpr fun e member => by rw [none e member]; decide
  rw [← append_nil (departures (es.take n)), ← rest, ← departures_append, take_append_drop]

end Lists

section Backlog

variable (st : FullState) {heap : Heap FullSite}

theorem fullBacklogGrow_granted (granted : ∀ n, heap.grant .backlog n = true) :
    ∃ st' heap', fullBacklogGrow st heap = (true, st', heap') ∧ st'.pending = st.pending ∧
      heap'.grant = heap.grant := by
  rw [fullBacklogGrow]
  split
  · rw [Heap.request, granted]
    exact ⟨_, _, rfl, rfl, rfl⟩
  · exact ⟨st, heap, rfl, rfl, rfl⟩

theorem fullBacklogAbsorb_granted {cap : Nat} (delta : List ViewEvent)
    (granted : ∀ n, heap.grant .backlog n = true) (fits : st.pending.length ≤ cap) :
    ∃ st' heap', fullBacklogAbsorb cap delta st heap = (st', heap') ∧
      st'.pending = (st.pending ++ delta).take cap ∧ heap'.grant = heap.grant := by
  induction delta generalizing st heap with
  | nil =>
    refine ⟨st, heap, rfl, ?_, rfl⟩
    rw [append_nil, take_of_length_le fits]
  | cons e delta ih =>
    rw [fullBacklogAbsorb]
    by_cases full : st.pending.length = cap
    · refine ⟨st, heap, if_pos full, ?_, rfl⟩
      rw [take_left' full]
    · obtain ⟨grown, heap₁, grow, same, kept⟩ := fullBacklogGrow_granted st granted
      have room : (grown.pending ++ [e]).length ≤ cap := by
        rw [length_append, length_singleton, same]
        omega
      obtain ⟨st', heap', absorbed, pending, kept'⟩ :=
        ih { grown with pending := grown.pending ++ [e] } (kept ▸ granted) room
      refine ⟨st', heap', ?_, ?_, kept'.trans kept⟩
      · rw [if_neg full, grow]
        exact absorbed
      · rw [pending, same, append_assoc, singleton_append]

end Backlog

section Pass

variable {g : DeliveryGateway} (pending : List ViewEvent) (subjects : List ViewSubject)

def fullRecords : List Record :=
  pending.map ViewEvent.record ++ subjects.map ViewSubject.record

theorem serialized_eq :
    pending.map gatewayDeliverySerializeEvent ++ subjects.map gatewayDeliverySerialize =
      (fullRecords pending subjects).map Record.bytes := by
  rw [fullRecords, map_append, map_map, map_map]
  rfl

theorem events_batch : events (received g [⟨g.replicationBatchTypeId,
      batchPayload ((fullRecords pending subjects).map Record.bytes)⟩]) = pending.take 65535 := by
  rw [received_batch, fullRecords, take_append, events_append, ← map_take, ← map_take,
    events_viewEvents, events_viewSubjects, append_nil]

theorem fullDeliverBatch_cases (st : FullState) (wire : Wire) (heap : Heap FullSite)
    (subjects : List ViewSubject) (scratch : Option Nat) :
    ∃ stats st' wire' heap',
      fullDeliverBatch g st wire heap subjects scratch = (stats, st', wire', heap') ∧
      heap'.grant = heap.grant ∧
      (st'.pending = st.pending ∧ wire'.sent = wire.sent ∨
        st'.pending = [] ∧ wire'.sent = wire.sent ++ [⟨g.replicationBatchTypeId,
          batchPayload ((fullRecords st.pending subjects).map Record.bytes)⟩]) := by
  unfold fullDeliverBatch
  split
  · exact ⟨_, st, wire, heap, rfl, rfl, .inl ⟨rfl, rfl⟩⟩
  cases scratch with
  | none => exact ⟨_, st, wire, heap, rfl, rfl, .inl ⟨rfl, rfl⟩⟩
  | some batchCap =>
    dsimp only
    split
    · exact ⟨_, st, wire, heap, rfl, rfl, .inl ⟨rfl, rfl⟩⟩
    have claimed : ∀ {need : Nat} {ok : Bool} {heap' : Heap FullSite},
        (if need ≤ batchCap then (true, heap) else heap.request .scratch) = (ok, heap') →
          heap'.grant = heap.grant := by
      intro need ok heap' claim
      split at claim <;> cases claim <;> rfl
    split
    · next heap' claim => exact ⟨_, st, wire, heap', rfl, claimed claim, .inl ⟨rfl, rfl⟩⟩
    · next heap' claim =>
      have grant := claimed claim
      rw [serialized_eq]
      obtain ⟨wire', taken, sent⟩ | ⟨wire', refused, sent⟩ := gatewayDeliveryEnqueue_cases wire
        g.replicationBatchTypeId (batchPayload ((fullRecords st.pending subjects).map Record.bytes))
      · rw [taken]
        exact ⟨_, _, wire', heap', rfl, grant, .inr ⟨rfl, sent⟩⟩
      · rw [refused]
        exact ⟨_, st, wire', heap', rfl, grant, .inl ⟨rfl, sent⟩⟩

section Single

variable (single : g.replicationBatchTypeId = 0) (used : g.replicationTypeId ≠ 0)

include single used

theorem fullSendEvents_confirmed (pending : List ViewEvent) (stats : DeliveryStats) (wire : Wire) :
    ∃ confirmed rest stats' wire', fullSendEvents g pending stats wire = (rest, stats', wire') ∧
      pending = confirmed ++ rest ∧
      events (received g wire'.sent) = events (received g wire.sent) ++ confirmed := by
  induction pending generalizing stats wire with
  | nil => exact ⟨[], [], stats, wire, rfl, rfl, (append_nil _).symm⟩
  | cons e pending ih =>
    rw [fullSendEvents]
    obtain ⟨wire₁, taken, sent⟩ | ⟨wire₁, refused, sent⟩ := gatewayDeliveryEnqueue_cases wire
      g.replicationTypeId (gatewayDeliverySerializeEvent e)
    · rw [taken]
      obtain ⟨confirmed, rest, stats', wire', later, split, told⟩ := ih _ wire₁
      refine ⟨e :: confirmed, rest, stats', wire', later, by rw [split, cons_append], ?_⟩
      have first : events [e.record] = [e] := events_viewEvents [e]
      rw [told, sent, received_append, gatewayDeliverySerializeEvent, received_single single used,
        events_append, first, append_assoc, singleton_append]
    · rw [refused]
      refine ⟨[], e :: pending, _, wire₁, rfl, rfl, ?_⟩
      rw [sent, append_nil]

theorem fullSendSubjects_silent (subjects : List ViewSubject) (stats : DeliveryStats)
    (wire : Wire) : events (received g (fullSendSubjects g subjects stats wire).2.sent) =
      events (received g wire.sent) := by
  induction subjects generalizing stats wire with
  | nil => rfl
  | cons s subjects ih =>
    rw [fullSendSubjects, ih, fullDeliverOne]
    obtain ⟨wire₁, taken, sent⟩ | ⟨wire₁, refused, sent⟩ := gatewayDeliveryEnqueue_cases wire
      g.replicationTypeId (gatewayDeliverySerialize s)
    · rw [taken]
      have nothing : events [s.record] = [] := events_viewSubjects [s]
      rw [sent, received_append, gatewayDeliverySerialize, received_single single used,
        events_append, nothing, append_nil]
    · rw [refused]
      rw [sent]

theorem fullDeliverSingle_confirmed (st : FullState) (wire : Wire) (subjects : List ViewSubject) :
    ∃ confirmed stats st' wire', fullDeliverSingle g st wire subjects = (stats, st', wire') ∧
      st.pending = confirmed ++ st'.pending ∧
      events (received g wire'.sent) = events (received g wire.sent) ++ confirmed := by
  obtain ⟨confirmed, rest, stats, wire₁, sent, split, told⟩ :=
    fullSendEvents_confirmed single used st.pending ⟨0, 0, 0, 0⟩ wire
  rw [fullDeliverSingle, sent]
  exact ⟨confirmed, _, _, _, rfl, split,
    (fullSendSubjects_silent single used subjects stats wire₁).trans told⟩

end Single

end Pass

section Runs

variable (g : DeliveryGateway) {es : List ViewEvent} {s : FullSession}

/-- How many events a pass can keep and send: the bound of the backlog, and of the
count of a batch frame. -/
def carriedLimit : Nat :=
  if g.replicationBatchTypeId ≠ 0 then min 65535 (fullBacklogCap g) else fullBacklogCap g

/-- No departure of the backlog and the delta stands past the limit. -/
def Spared (s : FullSession) (pass : FullPass) : Prop :=
  Enabled g → ∀ e ∈ (s.st.pending ++ pass.delta).drop (carriedLimit g), e.kind.departure = false

instance : DecidableRel (Spared g) := fun s pass =>
  inferInstanceAs (Decidable (_ → ∀ e ∈ (s.st.pending ++ pass.delta).drop (carriedLimit g), _))

/-- Every departure handed to the backlog has been sent once, or is still in it. -/
def Accounted (s : FullSession) : Prop :=
  departures s.handed = departures (events (received g s.wire.sent)) ++ departures s.st.pending

instance (s : FullSession) : Decidable (Accounted g s) := inferInstanceAs (Decidable (_ = _))

structure Held (s : FullSession) : Prop where
  accounted : Accounted g s
  bounded : s.st.pending.length ≤ fullBacklogCap g
  granted : ∀ n, s.heap.grant .backlog n = true

variable {g}

theorem take_carriedLimit (batch : g.replicationBatchTypeId ≠ 0) :
    (es.take (fullBacklogCap g)).take 65535 = es.take (carriedLimit g) := by
  rw [take_take, carriedLimit, if_pos batch]

theorem departures_absorbed (spared : ∀ e ∈ es.drop (carriedLimit g), e.kind.departure = false) :
    departures (es.take (fullBacklogCap g)) = departures es := by
  apply departures_take
  intro e member
  apply spared
  have below : carriedLimit g ≤ fullBacklogCap g := by
    rw [carriedLimit]
    split <;> omega
  rw [← Nat.add_sub_cancel' below, ← drop_drop] at member
  exact mem_of_mem_drop member

theorem Held.handed (held : Held g s) (delta : List ViewEvent) :
    departures (s.handed ++ delta) =
      departures (events (received g s.wire.sent)) ++ departures (s.st.pending ++ delta) := by
  rw [departures_append, held.accounted, departures_append, append_assoc]

theorem Held.deliver {pass : FullPass} (held : Held g s) (spared : Spared g s pass) :
    Held g (fullDeliver g s pass).2 := by
  rw [fullDeliver]
  split
  · exact held
  next enabled =>
    have spared := spared (by rw [Enabled]; tauto)
    obtain ⟨st, heap, absorbed, pending, grant⟩ :=
      fullBacklogAbsorb_granted s.st pass.delta held.granted held.bounded
    have bounded : st.pending.length ≤ fullBacklogCap g := by
      rw [pending]
      exact length_take_le ..
    rw [absorbed]
    dsimp only
    split
    · next batch =>
      obtain ⟨stats, st', wire', heap', delivered, grant', outcome⟩ :=
        fullDeliverBatch_cases (g := g) st s.wire heap pass.subjects pass.scratch
      rw [delivered]
      have granted' : ∀ n, heap'.grant .backlog n = true := by
        rw [grant', grant]
        exact held.granted
      obtain ⟨same, sent⟩ | ⟨empty, sent⟩ := outcome
      · refine ⟨?_, by rw [same]; exact bounded, granted'⟩
        rw [Accounted, held.handed, same, sent, pending, departures_absorbed spared]
      · refine ⟨?_, by rw [empty]; exact Nat.zero_le _, granted'⟩
        rw [Accounted, held.handed, empty, sent, received_append, events_append, events_batch,
          pending, take_carriedLimit batch, ← departures_take spared, departures_append]
        exact (append_nil _).symm
    · next single =>
      have single : g.replicationBatchTypeId = 0 := not_not.mp single
      have used : g.replicationTypeId ≠ 0 := fun zero => enabled ⟨single, zero⟩
      obtain ⟨confirmed, stats, st', wire', delivered, split, told⟩ :=
        fullDeliverSingle_confirmed single used st s.wire pass.subjects
      rw [delivered]
      refine ⟨?_, ?_, fun n => grant ▸ held.granted n⟩
      · rw [Accounted, held.handed, ← departures_absorbed spared, ← pending, split, told,
          departures_append, departures_append, append_assoc]
      · rw [split, length_append] at bounded
        exact Nat.le_of_add_left_le bounded

def fullStep (s : FullSession) (pass : FullPass) : Option ((Rc × DeliveryStats) × FullSession) :=
  some (fullDeliver g s pass)

end Runs

/-- While no pass finds a departure past the limit, every departure is sent once or kept. -/
theorem no_departure_lost (g : DeliveryGateway) (wire : Wire) (heap : Heap FullSite)
    (fresh : wire.sent = []) (granted : ∀ n, heap.grant .backlog n = true) (passes : List FullPass)
    (spared : Along (fullStep (g := g)) (Spared g) (fullSessionInit wire heap) passes) :
    ∃ replies s, run (fullStep (g := g)) (fullSessionInit wire heap) passes = some (replies, s) ∧
      Accounted g s := by
  have start : Held g (fullSessionInit wire heap) := by
    refine ⟨?_, Nat.zero_le _, granted⟩
    rw [Accounted, fullSessionInit, fresh]
    rfl
  have kept : ∀ s pass, Held g s → Spared g s pass →
      ∃ r s', fullStep (g := g) s pass = some (r, s') ∧ Held g s' :=
    fun s pass held spared => ⟨_, _, rfl, held.deliver spared⟩
  obtain ⟨replies, s, ran, held⟩ := run_invariant kept start passes spared
  exact ⟨replies, s, ran, held.accounted⟩

def plentyHeap : Heap FullSite := ⟨fun _ _ => true, 0⟩

/-- Single frames and a view of the player and one other actor. -/
def pairGateway : DeliveryGateway := ⟨1, 0, 2⟩

/-- The neighbour of the player changes every tick. -/
def churn (ticks : Nat) : List FullPass :=
  ⟨[⟨1, .enter⟩], [], none⟩ ::
    (List.range ticks).map fun i =>
      ⟨[⟨.ofNat (i + 2), .enter⟩, ⟨.ofNat (i + 1), .vanish⟩], [], none⟩

/-- Three passes are refused and the fourth sends the whole backlog. -/
theorem no_departure_lost_churn :
    ∃ replies s,
      run (fullStep (g := pairGateway))
        (fullSessionInit ⟨fun n => 3 ≤ n, 0, []⟩ plentyHeap) (churn 3) = some (replies, s) ∧
      Accounted pairGateway s :=
  no_departure_lost pairGateway ⟨fun n => 3 ≤ n, 0, []⟩ plentyHeap rfl (fun _ => rfl) (churn 3)
    (by decide)

/-- Eight ticks of refused frames fill the backlog of sixteen; the exit of the eighth
is neither sent nor kept. -/
theorem churned_departure_lost :
    ∃ replies s,
      run (fullStep (g := pairGateway))
        (fullSessionInit ⟨fun _ => false, 0, []⟩ plentyHeap) (churn 8) = some (replies, s) ∧
      ¬Accounted pairGateway s ∧ ⟨8, .vanish⟩ ∈ s.handed ∧ ⟨8, .vanish⟩ ∉ s.st.pending ∧
      s.wire.sent = [] :=
  ⟨_, _, rfl, by decide +kernel⟩

end Kith.Gateway
