import Kith.Base
import Kith.Lib.Bytes

/-!
# Replication records and frames

A record is 68 bytes: the words of one view subject, or a membership event,
which carries the marker bit in the last word. A frame holds one record, or a
16-bit count and the records. What a connection does with a frame is a script:
every pattern of accepted and refused frames is some script.
-/

namespace Kith.Gateway

open Bytes List

inductive ProductLevel where
  | full | reduced | crowd
  deriving DecidableEq

def ProductLevel.word : ProductLevel → UInt32
  | .full => 0
  | .reduced => 1
  | .crowd => 2

inductive ViewClass where
  | self | actor | crowd
  deriving DecidableEq

/-- `kith_gateway_view_subject_t`. -/
structure ViewSubject where
  actorId : UInt64
  posX : Int64
  posY : Int64
  posZ : Int64
  velX : Int64
  velY : Int64
  velZ : Int64
  inputTick : UInt32
  updateSeq : UInt32
  level : ProductLevel
  subjectClass : ViewClass
  sticky : Bool
  demoted : Bool
  deriving DecidableEq

inductive EventKind where
  | enter | exit | crowdEnter | crowdExit | vanish
  deriving DecidableEq

def EventKind.word : EventKind → UInt32
  | .enter => 0
  | .exit => 1
  | .crowdEnter => 2
  | .crowdExit => 3
  | .vanish => 4

def EventKind.departure : EventKind → Bool
  | .enter => false
  | .crowdEnter => false
  | .exit => true
  | .crowdExit => true
  | .vanish => true

/-- `struct gateway_view_event`; the crowd aggregate has id 0. -/
structure ViewEvent where
  actorId : UInt64
  kind : EventKind
  deriving DecidableEq

def departures (es : List ViewEvent) : List ViewEvent := es.filter fun e => e.kind.departure

def eventMarker : UInt32 := 0x80000000

structure Record where
  actorId : UInt64
  posX : UInt64
  posY : UInt64
  posZ : UInt64
  velX : UInt64
  velY : UInt64
  velZ : UInt64
  inputTick : UInt32
  updateSeq : UInt32
  level : UInt32
  deriving DecidableEq

section Serialize

def putBeU64 (v : UInt64) : List UInt8 := beBytes 8 v.toNat

def putBeU32 (v : UInt32) : List UInt8 := beBytes 4 v.toNat

def putBeU16 (v : UInt16) : List UInt8 := beBytes 2 v.toNat

def Record.bytes (r : Record) : List UInt8 :=
  putBeU64 r.actorId ++ putBeU64 r.posX ++ putBeU64 r.posY ++ putBeU64 r.posZ ++ putBeU64 r.velX ++
    putBeU64 r.velY ++ putBeU64 r.velZ ++ putBeU32 r.inputTick ++ putBeU32 r.updateSeq ++
    putBeU32 r.level

def ViewSubject.record (s : ViewSubject) : Record :=
  ⟨s.actorId, s.posX.toUInt64, s.posY.toUInt64, s.posZ.toUInt64, s.velX.toUInt64, s.velY.toUInt64,
    s.velZ.toUInt64, s.inputTick, s.updateSeq, s.level.word⟩

def ViewEvent.record (e : ViewEvent) : Record :=
  ⟨e.actorId, 0, 0, 0, 0, 0, 0, 0, 0, eventMarker ||| e.kind.word⟩

def gatewayDeliverySerialize (s : ViewSubject) : List UInt8 := s.record.bytes

def gatewayDeliverySerializeEvent (e : ViewEvent) : List UInt8 := e.record.bytes

/-- The count and the reserved word; a count above 65535 is written as 65535. -/
def batchHeader (count : Nat) : List UInt8 :=
  putBeU16 (if 0xffff < count then 0xffff else UInt16.ofNat count) ++ putBeU16 0

def batchPayload (records : List (List UInt8)) : List UInt8 :=
  batchHeader records.length ++ records.flatten

end Serialize

section Decode

/-- What a client reads: the words of a record. -/
def Record.ofBytes (bytes : List UInt8) : Record :=
  let u64 (i : Nat) : UInt64 := .ofNat (beValue ((bytes.drop i).take 8))
  let u32 (i : Nat) : UInt32 := .ofNat (beValue ((bytes.drop i).take 4))
  ⟨u64 0, u64 8, u64 16, u64 24, u64 32, u64 40, u64 48, u32 56, u32 60, u32 64⟩

/-- At most `n` records from the start of a byte string; a truncated one is ignored. -/
def decodeRecords : Nat → List UInt8 → List Record
  | 0, _ => []
  | n + 1, bytes =>
    if bytes.length < 68 then []
    else .ofBytes (bytes.take 68) :: decodeRecords n (bytes.drop 68)

/-- As many records as the count says. -/
def decodeBatch (payload : List UInt8) : List Record :=
  decodeRecords (beValue (payload.take 2)) (payload.drop 4)

def EventKind.ofWord (word : UInt32) : Option EventKind :=
  if word = 0 then some .enter
  else if word = 1 then some .exit
  else if word = 2 then some .crowdEnter
  else if word = 3 then some .crowdExit
  else if word = 4 then some .vanish
  else none

/-- The membership event of a marked record. -/
def Record.event (r : Record) : Option ViewEvent :=
  if r.level &&& eventMarker = 0 then none
  else (EventKind.ofWord (r.level &&& 0x7fffffff)).map fun kind => ⟨r.actorId, kind⟩

theorem length_bytes (r : Record) : r.bytes.length = 68 := by
  simp [Record.bytes, putBeU64, putBeU32]

@[simp] theorem length_putBeU64 (v : UInt64) : (putBeU64 v).length = 8 := length_beBytes ..

@[simp] theorem length_putBeU32 (v : UInt32) : (putBeU32 v).length = 4 := length_beBytes ..

theorem beValue_putBeU64 (v : UInt64) : UInt64.ofNat (beValue (putBeU64 v)) = v := by
  rw [putBeU64, beValue_beBytes_of_lt v.toNat_lt, UInt64.ofNat_toNat]

theorem beValue_putBeU32 (v : UInt32) : UInt32.ofNat (beValue (putBeU32 v)) = v := by
  rw [putBeU32, beValue_beBytes_of_lt v.toNat_lt, UInt32.ofNat_toNat]

theorem ofBytes_bytes (r : Record) : Record.ofBytes r.bytes = r := by
  simp [Record.ofBytes, Record.bytes, drop_append, drop_eq_nil_of_le,
    take_of_length_le, beValue_putBeU64, beValue_putBeU32]

theorem decodeRecords_flatten (n : Nat) (rs : List Record) :
    decodeRecords n (rs.map Record.bytes).flatten = rs.take n := by
  induction n generalizing rs with
  | zero => rfl
  | succ n ih =>
    cases rs with
    | nil => rfl
    | cons r rs =>
      have first := length_bytes r
      have long : ¬(r.bytes ++ (rs.map Record.bytes).flatten).length < 68 := by
        rw [length_append]
        omega
      rw [map_cons, flatten_cons, decodeRecords, if_neg long, take_left' first,
        drop_left' first, ofBytes_bytes, ih, take_succ_cons]

theorem length_batchHeader (n : Nat) : (batchHeader n).length = 4 := by
  simp [batchHeader, putBeU16]

/-- The count in the header stops at 65535. -/
theorem batchHeader_count (n : Nat) (rest : List UInt8) :
    beValue ((batchHeader n ++ rest).take 2) = min n 65535 := by
  have count : ∀ c : UInt16, beValue ((putBeU16 c ++ putBeU16 0 ++ rest).take 2) = c.toNat := by
    intro c
    rw [append_assoc, putBeU16, take_left' (length_beBytes ..), beValue_beBytes_of_lt c.toNat_lt]
  rw [batchHeader, count]
  split
  · next large => exact (Nat.min_eq_right (Nat.le_of_lt large)).symm
  · next small =>
    have fits : n < 2 ^ 16 := by omega
    rw [UInt16.toNat_ofNat_of_lt' fits]
    omega

theorem batchHeader_drop (n : Nat) (rest : List UInt8) : (batchHeader n ++ rest).drop 4 = rest :=
  drop_left' (length_batchHeader n)

theorem take_min_length {α : Type} (n : Nat) (xs : List α) :
    xs.take (min xs.length n) = xs.take n := by
  rw [← take_take, take_of_length_le]
  rw [length_take]
  exact Nat.min_le_right ..

theorem decodeBatch_batchPayload (rs : List Record) :
    decodeBatch (batchPayload (rs.map Record.bytes)) = rs.take 65535 := by
  rw [decodeBatch, batchPayload, batchHeader_count, batchHeader_drop, decodeRecords_flatten,
    length_map, take_min_length]

theorem length_batchPayload (rs : List Record) :
    (batchPayload (rs.map Record.bytes)).length = 4 + rs.length * 68 := by
  have records : (rs.map Record.bytes).flatten.length = rs.length * 68 := by
    induction rs with
    | nil => rfl
    | cons r rs ih =>
      rw [map_cons, flatten_cons, length_append, length_bytes, ih, length_cons]
      omega
  rw [batchPayload, length_append, records, length_batchHeader]

theorem event_word_marked (kind : EventKind) : (eventMarker ||| kind.word) &&& eventMarker ≠ 0 := by
  cases kind <;> decide

theorem ofWord_event_word (kind : EventKind) :
    EventKind.ofWord ((eventMarker ||| kind.word) &&& 0x7fffffff) = some kind := by
  cases kind <;> decide

theorem level_word_unmarked (level : ProductLevel) : level.word &&& eventMarker = 0 := by
  cases level <;> decide

@[simp] theorem event_viewEvent (e : ViewEvent) : e.record.event = some e := by
  rw [Record.event, ViewEvent.record, if_neg (event_word_marked e.kind), ofWord_event_word,
    Option.map_some]

@[simp] theorem event_viewSubject (s : ViewSubject) : s.record.event = none := by
  rw [Record.event, ViewSubject.record, if_pos (level_word_unmarked s.level)]

end Decode

/-- The settings of a gateway that delivery reads. -/
structure DeliveryGateway where
  replicationTypeId : UInt16
  replicationBatchTypeId : UInt16
  viewMaxSubjects : UInt32
  deriving DecidableEq

def Enabled (g : DeliveryGateway) : Prop := g.replicationBatchTypeId ≠ 0 ∨ g.replicationTypeId ≠ 0

instance (g : DeliveryGateway) : Decidable (Enabled g) := inferInstanceAs (Decidable (_ ∨ _))

structure DeliveryStats where
  enqueued : UInt32
  dropped : UInt32
  eventsEnqueued : UInt32
  suppressed : UInt32
  deriving DecidableEq

structure ReplicationFrame where
  typeId : UInt16
  payload : List UInt8
  deriving DecidableEq

/-- A connection: whether it takes the frame of each attempt, and what it took. -/
structure Wire where
  answers : Nat → Bool
  asked : Nat
  sent : List ReplicationFrame

/-- Encoding, the allocation of the frame and the connection's queue can each refuse. -/
def gatewayDeliveryEnqueue (w : Wire) (typeId : UInt16) (payload : List UInt8) : Bool × Wire :=
  if 2 ^ 32 ≤ payload.length then (false, w)
  else if w.answers w.asked then
    (true, { w with asked := w.asked + 1, sent := w.sent ++ [⟨typeId, payload⟩] })
  else (false, { w with asked := w.asked + 1 })

theorem gatewayDeliveryEnqueue_cases (w : Wire) (typeId : UInt16) (payload : List UInt8) :
    (∃ w', gatewayDeliveryEnqueue w typeId payload = (true, w') ∧
      w'.sent = w.sent ++ [⟨typeId, payload⟩]) ∨
    ∃ w', gatewayDeliveryEnqueue w typeId payload = (false, w') ∧ w'.sent = w.sent := by
  rw [gatewayDeliveryEnqueue]
  split_ifs with oversized taken
  · exact .inr ⟨w, rfl, rfl⟩
  · exact .inl ⟨_, rfl, rfl⟩
  · exact .inr ⟨_, rfl, rfl⟩

section Received

variable (g : DeliveryGateway)

def decodeFrame (f : ReplicationFrame) : List Record :=
  if f.typeId = g.replicationBatchTypeId then decodeBatch f.payload
  else if f.typeId = g.replicationTypeId then [.ofBytes f.payload]
  else []

/-- The records a client reads from the frames sent to it, in order. -/
def received (sent : List ReplicationFrame) : List Record := sent.flatMap (decodeFrame g)

variable {g}

theorem received_append (sent later : List ReplicationFrame) :
    received g (sent ++ later) = received g sent ++ received g later :=
  flatMap_append

theorem received_batch (rs : List Record) :
    received g [⟨g.replicationBatchTypeId, batchPayload (rs.map Record.bytes)⟩] =
      rs.take 65535 := by
  rw [received, flatMap_singleton, decodeFrame, if_pos rfl, decodeBatch_batchPayload]

theorem received_single (single : g.replicationBatchTypeId = 0) (used : g.replicationTypeId ≠ 0)
    (r : Record) : received g [⟨g.replicationTypeId, r.bytes⟩] = [r] := by
  rw [received, flatMap_singleton, decodeFrame, single, if_neg used, if_pos rfl, ofBytes_bytes]

end Received

section Client

variable (held : UInt64 → Option Record)

/-- What a client holds after one more record: any event but an entry removes its subject. -/
def absorbRecord (r : Record) : UInt64 → Option Record :=
  if r.level &&& eventMarker ≠ 0 then
    if r.level &&& 0x7fffffff = 0 then held else Function.update held r.actorId none
  else Function.update held r.actorId (some r)

def holdings (rs : List Record) : UInt64 → Option Record := rs.foldl absorbRecord fun _ => none

theorem holdings_append (rs later : List Record) :
    holdings (rs ++ later) = later.foldl absorbRecord (holdings rs) :=
  foldl_append

theorem departure_word (kind : EventKind) (departure : kind.departure = true) :
    (eventMarker ||| kind.word) &&& 0x7fffffff ≠ 0 := by
  cases kind
  case enter => cases departure
  case crowdEnter => cases departure
  all_goals decide

theorem absorbRecord_departure {e : ViewEvent} (departure : e.kind.departure = true) :
    absorbRecord held e.record = Function.update held e.actorId none :=
  (if_pos (event_word_marked e.kind)).trans (if_neg (departure_word e.kind departure))

theorem foldl_departures {es : List ViewEvent}
    (departures : ∀ e ∈ es, e.kind.departure = true) (id : UInt64) :
    (es.map ViewEvent.record).foldl absorbRecord held id =
      if id ∈ es.map ViewEvent.actorId then none else held id := by
  induction es generalizing held with
  | nil => rfl
  | cons e es ih =>
    simp only [forall_mem_cons] at departures
    simp only [map_cons, foldl_cons, mem_cons, ih _ departures.2,
      absorbRecord_departure _ departures.1]
    by_cases later : id ∈ es.map ViewEvent.actorId
    · simp [later]
    · by_cases now : id = e.actorId
      · simp [now]
      · simp [later, now]

end Client

end Kith.Gateway
