import Kith.Gateway.Full
import Kith.Gateway.TieredBatch

/-!
# Batch frames and the client that decodes them

The encoders are those of the two delivery strategies. The decoder is
`decode_actor_state_batch` of `_protocol.py`, which unpacks `>HH` and then one
`>QqqqqqqIII` for each record.
-/

namespace Kith.Gateway

open Bytes Runs List

section Client

/-- `ActorStateView`. -/
structure ActorStateView where
  actorId : Nat
  posX : Int
  posY : Int
  posZ : Int
  velX : Int
  velY : Int
  velZ : Int
  inputTick : Nat
  updateSeq : Nat
  productLevel : Nat
  deriving DecidableEq

def unpackSigned (bytes : List UInt8) : Int := (UInt64.ofNat (beValue bytes)).toInt64.toInt

/-- Without a value where the payload is too short and the decoder raises. -/
def decodeActorState (payload : List UInt8) : Option ActorStateView :=
  if payload.length < 68 then none
  else
    let word (i n : Nat) : List UInt8 := (payload.drop i).take n
    some ⟨beValue (word 0 8), unpackSigned (word 8 8), unpackSigned (word 16 8),
      unpackSigned (word 24 8), unpackSigned (word 32 8), unpackSigned (word 40 8),
      unpackSigned (word 48 8), beValue (word 56 4), beValue (word 60 4), beValue (word 64 4)⟩

/-- The loop over the count; a truncated record ends it. -/
def decodeViews : Nat → List UInt8 → List ActorStateView
  | 0, _ => []
  | n + 1, bytes =>
    if (bytes.take 68).length < 68 then []
    else (decodeActorState (bytes.take 68)).toList ++ decodeViews n (bytes.drop 68)

def decodeActorStateBatch (payload : List UInt8) : Option (List ActorStateView) :=
  if payload.length < 4 then none
  else some (decodeViews (beValue (payload.take 2)) (payload.drop 4))

def ViewSubject.view (s : ViewSubject) : ActorStateView :=
  ⟨s.actorId.toNat, s.posX.toInt, s.posY.toInt, s.posZ.toInt, s.velX.toInt, s.velY.toInt,
    s.velZ.toInt, s.inputTick.toNat, s.updateSeq.toNat, s.level.word.toNat⟩

def ViewEvent.view (e : ViewEvent) : ActorStateView :=
  ⟨e.actorId.toNat, 0, 0, 0, 0, 0, 0, 0, 0, (eventMarker ||| e.kind.word).toNat⟩

def Record.view (r : Record) : ActorStateView :=
  ⟨r.actorId.toNat, r.posX.toInt64.toInt, r.posY.toInt64.toInt, r.posZ.toInt64.toInt,
    r.velX.toInt64.toInt, r.velY.toInt64.toInt, r.velZ.toInt64.toInt, r.inputTick.toNat,
    r.updateSeq.toNat, r.level.toNat⟩

theorem view_subject (s : ViewSubject) : s.record.view = s.view := by
  simp [ViewSubject.record, Record.view, ViewSubject.view]

theorem view_event (e : ViewEvent) : e.record.view = e.view := rfl

theorem decodeActorState_bytes (r : Record) : decodeActorState r.bytes = some r.view := by
  have whole := length_bytes r
  have quad : ∀ v : UInt64, beValue (putBeU64 v) = v.toNat := fun v =>
    beValue_beBytes_of_lt v.toNat_lt
  have word : ∀ v : UInt32, beValue (putBeU32 v) = v.toNat := fun v =>
    beValue_beBytes_of_lt v.toNat_lt
  rw [decodeActorState, if_neg (by omega)]
  simp [Record.bytes, Record.view, drop_append, drop_eq_nil_of_le,
    take_of_length_le, unpackSigned, quad, word]

theorem decodeViews_flatten (n : Nat) (rs : List Record) :
    decodeViews n (rs.map Record.bytes).flatten = (rs.take n).map Record.view := by
  induction n generalizing rs with
  | zero => rfl
  | succ n ih =>
    cases rs with
    | nil => rfl
    | cons r rs =>
      have first := length_bytes r
      rw [map_cons, flatten_cons, decodeViews, take_left' first,
        drop_left' first, if_neg (by omega), decodeActorState_bytes, ih, take_succ_cons,
        map_cons]
      rfl

theorem decodeActorStateBatch_batchPayload (rs : List Record) :
    decodeActorStateBatch (batchPayload (rs.map Record.bytes)) =
      some ((rs.take 65535).map Record.view) := by
  have header : ¬(batchPayload (rs.map Record.bytes)).length < 4 := by
    rw [length_batchPayload]
    omega
  rw [decodeActorStateBatch, if_neg header, batchPayload, batchHeader_count, batchHeader_drop,
    decodeViews_flatten, length_map, take_min_length]

end Client

section Exactness

/-- The header counts the records of the payload, and the client reads the events and then
the subjects, with their fields. -/
structure CarriesExactly (payload : List UInt8) (events : List ViewEvent)
    (subjects : List ViewSubject) : Prop where
  counted : payload.length = 4 + beValue (payload.take 2) * 68
  decoded : decodeActorStateBatch payload =
    some (events.map ViewEvent.view ++ subjects.map ViewSubject.view)

theorem carriesExactly_iff (events : List ViewEvent) (subjects : List ViewSubject) :
    CarriesExactly (batchPayload ((fullRecords events subjects).map Record.bytes)) events subjects ↔
      events.length + subjects.length ≤ 65535 := by
  have views : (fullRecords events subjects).map Record.view =
      events.map ViewEvent.view ++ subjects.map ViewSubject.view := by
    simp [fullRecords, view_subject, view_event, Function.comp_def]
  have count : (fullRecords events subjects).length = events.length + subjects.length := by
    simp [fullRecords]
  generalize fullRecords events subjects = rs at views count ⊢
  constructor
  · intro exact_frame
    have decoded := exact_frame.decoded
    rw [decodeActorStateBatch_batchPayload, ← views, Option.some.injEq] at decoded
    have lengths := congrArg length decoded
    rw [length_map, length_map, length_take] at lengths
    omega
  · intro few
    refine ⟨?_, ?_⟩
    · rw [length_batchPayload, batchPayload, batchHeader_count, length_map]
      omega
    · rw [decodeActorStateBatch_batchPayload, take_of_length_le (by omega), views]

def FullSession.backlog (g : DeliveryGateway) (s : FullSession) (pass : FullPass) :
    List ViewEvent :=
  (fullBacklogAbsorb (fullBacklogCap g) pass.delta s.st s.heap).1.pending

variable {frame : ReplicationFrame} {g : DeliveryGateway}

theorem frame_of_append {sent sent' : List ReplicationFrame} {f : ReplicationFrame}
    (outcome : sent' = sent ∨ sent' = sent ++ [f]) (added : sent' = sent ++ [frame]) :
    frame = f := by
  rcases outcome with same | new
  · rw [same] at added
    cases self_eq_append_right.mp added
  · rw [new] at added
    exact (singleton_inj.mp (append_cancel_left added)).symm

theorem fullDeliver_frame (batch : g.replicationBatchTypeId ≠ 0) {s : FullSession} {pass : FullPass}
    (added : (fullDeliver g s pass).2.wire.sent = s.wire.sent ++ [frame]) :
    frame.payload =
      batchPayload ((fullRecords (s.backlog g pass) pass.subjects).map Record.bytes) := by
  rcases absorbed : fullBacklogAbsorb (fullBacklogCap g) pass.delta s.st s.heap with ⟨st, heap⟩
  obtain ⟨stats, st', wire', heap', delivered, _, outcome⟩ :=
    fullDeliverBatch_cases (g := g) st s.wire heap pass.subjects pass.scratch
  unfold fullDeliver at added
  rw [if_neg fun none => batch none.1, absorbed] at added
  dsimp only at added
  rw [if_pos batch, delivered] at added
  rw [frame_of_append (outcome.imp And.right And.right) added, FullSession.backlog, absorbed]

/-- A batch frame that a strategy has sent carries exactly what it was built from when this
is at most 65535 records. -/
theorem batch_frames_exact_iff (g : DeliveryGateway) (batch : g.replicationBatchTypeId ≠ 0) :
    (∀ (s : FullSession) (pass : FullPass) (frame : ReplicationFrame),
      (fullDeliver g s pass).2.wire.sent = s.wire.sent ++ [frame] →
        (CarriesExactly frame.payload (s.backlog g pass) pass.subjects ↔
          (s.backlog g pass).length + pass.subjects.length ≤ 65535)) ∧
    ∀ (config : Option TieredConfig) (wire : Wire) (heap : Heap TieredSite)
      (start s : TieredSession), tieredSessionInit config wire heap = .ok start →
      Path (tieredNext g) (fun _ _ => True) start s →
      ∀ (pass : TieredPass) (frame : ReplicationFrame),
        (tieredNext g s pass).wire.sent = s.wire.sent ++ [frame] →
          (CarriesExactly frame.payload (pendingViewEvents (s.absorb pass).1.entries)
              (dueSubjects (s.absorb pass).1 pass.nowMs true pass.subjects) ↔
            (pendingViewEvents (s.absorb pass).1.entries).length +
              (dueSubjects (s.absorb pass).1 pass.nowMs true pass.subjects).length ≤ 65535) := by
  constructor
  · intro s pass frame added
    rw [fullDeliver_frame batch added]
    exact carriesExactly_iff _ _
  · intro config wire heap start s started path pass frame added
    have kept := kept_of_path batch started path
    rw [frame_of_append (tieredDeliver_batch batch kept pass).1.sent_cases added]
    exact carriesExactly_iff _ _

def openSession : FullSession := fullSessionInit ⟨fun _ => true, 0, []⟩ plentyHeap

def exchangeFrame : ReplicationFrame :=
  ⟨2, batchPayload ((fullRecords exchange.delta exchange.subjects).map Record.bytes)⟩

theorem batch_frames_exact_iff_exchange : let paced := tieredStart fun _ => true
    (fullDeliver batchGateway openSession ⟨exchange.delta, exchange.subjects, some 0⟩).2.wire.sent =
        [exchangeFrame] ∧
      CarriesExactly exchangeFrame.payload exchange.delta exchange.subjects ∧
      (tieredNext batchGateway paced exchange).wire.sent = [exchangeFrame] ∧
      CarriesExactly exchangeFrame.payload
        (pendingViewEvents (paced.absorb exchange).1.entries)
        (dueSubjects (paced.absorb exchange).1 exchange.nowMs true exchange.subjects) := by
  intro paced
  obtain ⟨full, tiered⟩ := batch_frames_exact_iff batchGateway (by decide)
  have batched : (fullDeliver batchGateway openSession
      ⟨exchange.delta, exchange.subjects, some 0⟩).2.wire.sent =
        [exchangeFrame] := by decide +kernel
  have sent : (tieredNext batchGateway paced exchange).wire.sent = [exchangeFrame] := by
    decide +kernel
  exact ⟨batched, (full openSession _ exchangeFrame batched).mpr (by decide +kernel), sent,
    (tiered none _ _ paced paced rfl .start exchange exchangeFrame sent).mpr (by decide +kernel)⟩

/-- A gateway whose views hold more subjects than a frame can count. -/
def wideGateway : DeliveryGateway := ⟨1, 2, 70000⟩

def wideView : List ViewSubject := (List.range 65536).map fun i => standing (.ofNat (i + 1))

theorem length_wideView : wideView.length = 65536 := by
  rw [wideView, length_map, length_range]

theorem openSession_sends (batch : g.replicationBatchTypeId ≠ 0) {subjects : List ViewSubject}
    (viewed : subjects ≠ []) (small : 4 + subjects.length * 68 < 2 ^ 32) :
    (fullDeliver g openSession ⟨[], subjects, some 0⟩).2.wire.sent =
      [⟨g.replicationBatchTypeId, batchPayload ((fullRecords [] subjects).map Record.bytes)⟩] := by
  have size := length_batchPayload (fullRecords [] subjects)
  rw [fullRecords, map_nil, nil_append, length_map] at size
  have taken : gatewayDeliveryEnqueue openSession.wire g.replicationBatchTypeId
      (batchPayload ((fullRecords [] subjects).map Record.bytes)) =
      (true, ⟨fun _ => true, 1, [⟨g.replicationBatchTypeId,
        batchPayload ((fullRecords [] subjects).map Record.bytes)⟩]⟩) := by
    rw [fullRecords, gatewayDeliveryEnqueue, map_nil, nil_append, if_neg (by omega)]
    rfl
  have delivered :
      (fullDeliverBatch g ⟨[], 0⟩ openSession.wire plentyHeap subjects (some 0)).2.2.1.sent =
      [⟨g.replicationBatchTypeId, batchPayload ((fullRecords [] subjects).map Record.bytes)⟩] := by
    unfold fullDeliverBatch
    rw [if_neg fun none => viewed none.1]
    dsimp only [length_nil]
    rw [if_neg (by omega), if_neg (by omega), serialized_eq,
      show plentyHeap.request FullSite.scratch = (true, ⟨fun _ _ => true, 1⟩) from rfl]
    rw [taken]
  unfold fullDeliver
  rw [if_neg fun none => batch none.1, fullBacklogAbsorb]
  dsimp only
  rw [if_pos batch]
  exact delivered

/-- The frame of 65536 subjects counts one less, and the client does not read the last. -/
theorem wide_frame_truncated :
    ∃ frame, (fullDeliver wideGateway openSession ⟨[], wideView, some 0⟩).2.wire.sent = [frame] ∧
      ¬CarriesExactly frame.payload [] wideView := by
  have viewed : wideView ≠ [] := by
    intro none
    have length := length_wideView
    rw [none] at length
    cases length
  refine ⟨_, openSession_sends (by decide) viewed (by rw [length_wideView]; decide), ?_⟩
  rw [carriesExactly_iff [] wideView, length_wideView]
  decide

end Exactness

end Kith.Gateway
