import Kith.Lib.Runs
import Kith.Lib.SortedArray
import Kith.Gateway.Delivery

/-!
# The tiered delivery strategy

Each session keeps a ledger, sorted by actor id, of what the client was last
sent. A pass takes the membership delta into the ledger, sends the departure
events that are pending and the records that are due, and forgets the entries
the view no longer needs. Everything is sent in one batch frame or, with a
frame for each record, as far as the connection takes frames.
-/

namespace Kith.Gateway

open Runs SortedArray List

/-- The content of a state record; the update sequence is not part of it. -/
structure Payload where
  posX : Int64
  posY : Int64
  posZ : Int64
  velX : Int64
  velY : Int64
  velZ : Int64
  inputTick : UInt32
  level : ProductLevel
  deriving DecidableEq

def ViewSubject.payload (s : ViewSubject) : Payload :=
  ⟨s.posX, s.posY, s.posZ, s.velX, s.velY, s.velZ, s.inputTick, s.level⟩

structure TieredEntry where
  actorId : UInt64
  last : Payload
  hasRecord : Bool
  lastSendMs : UInt64
  seenPass : UInt64
  pendingKind : Option EventKind
  exiting : Bool
  deriving DecidableEq

def TieredEntry.key (e : TieredEntry) : Nat := e.actorId.toNat

def TieredEntry.fresh (actorId : UInt64) : TieredEntry :=
  ⟨actorId, ⟨0, 0, 0, 0, 0, 0, 0, .full⟩, false, 0, 0, none, false⟩

structure TieredState where
  fullIntervalMs : UInt32
  reducedIntervalMs : UInt32
  crowdIntervalMs : UInt32
  maxGapMs : UInt32
  entries : List TieredEntry
  cap : Nat
  pendingEvents : Nat
  pass : UInt64
  scratchCap : Nat
  frameCap : Nat
  deriving DecidableEq

/-- `kith_gateway_tiered_config_t`; `size` and `abiVersion` are checked against 88 and 1. -/
structure TieredConfig where
  size : UInt32
  abiVersion : UInt32
  fullIntervalMs : UInt32
  reducedIntervalMs : UInt32
  crowdIntervalMs : UInt32
  maxGapMs : UInt32

inductive TieredSite where
  | ledger | decisions | staging | frame
  deriving DecidableEq

variable (st : TieredState)

section Ledger

def TieredState.rewrite (i : Nat) (f : TieredEntry → TieredEntry) : TieredState :=
  { st with entries := st.entries.modify i f }

variable (actorId : UInt64)

def tieredEntryGetIndex : Option Nat :=
  find TieredEntry.key st.entries actorId.toNat

def tieredEntryGet : Option TieredEntry :=
  (tieredEntryGetIndex st actorId).bind fun i => st.entries[i]?

/-- The index of the entry, which is inserted when there is none. -/
def tieredEntryEnsure (heap : Heap TieredSite) : Option Nat × TieredState × Heap TieredSite :=
  let lo := lowerBound TieredEntry.key st.entries actorId.toNat
  if (st.entries[lo]?).map (·.actorId) = some actorId then (some lo, st, heap)
  else
    let inserted := st.entries.insertIdx lo (.fresh actorId)
    if st.entries.length = st.cap then
      match heap.request .ledger with
      | (false, heap) => (none, st, heap)
      | (true, heap) =>
        (some lo, { st with entries := inserted, cap := if st.cap = 0 then 16 else st.cap * 2 },
          heap)
    else (some lo, { st with entries := inserted }, heap)

def tieredSweep : TieredState :=
  { st with entries := st.entries.filter fun e =>
      e.pendingKind.isSome || !(e.exiting || e.seenPass ≠ st.pass) }

end Ledger

section Absorb

/-- A subject enters again: a stale mark of its departure is cleared. -/
def TieredEntry.enter (e : TieredEntry) : TieredEntry :=
  if e.exiting ∧ e.pendingKind = none then { e with exiting := false } else e

/-- A subject left the view; the newest kind of departure is the one that is sent. -/
def TieredEntry.depart (kind : EventKind) (e : TieredEntry) : TieredEntry :=
  { e with pendingKind := some kind, exiting := true }

def tieredAbsorbEvent (heap : Heap TieredSite) (e : ViewEvent) : TieredState × Heap TieredSite :=
  if e.kind = .enter ∨ e.kind = .crowdEnter then
    match tieredEntryGetIndex st e.actorId with
    | none => (st, heap)
    | some i => (st.rewrite i TieredEntry.enter, heap)
  else
    match tieredEntryEnsure st e.actorId heap with
    | (none, st, heap) => (st, heap)
    | (some i, st, heap) =>
      let fresh := (st.entries[i]?).any fun entry => entry.pendingKind.isNone
      let st :=
        { st with pendingEvents := if fresh then st.pendingEvents + 1 else st.pendingEvents }
      (st.rewrite i (TieredEntry.depart e.kind), heap)

def tieredAbsorbDelta : List ViewEvent → TieredState → Heap TieredSite →
    TieredState × Heap TieredSite
  | [], st, heap => (st, heap)
  | e :: delta, st, heap =>
    let (st, heap) := tieredAbsorbEvent st heap e
    tieredAbsorbDelta delta st heap

end Absorb

section Due

def tieredIntervalFor : ProductLevel → UInt32
  | .full => st.fullIntervalMs
  | .reduced => st.reducedIntervalMs
  | .crowd => st.crowdIntervalMs

def tieredDue (s : ViewSubject) (entry : Option TieredEntry) (nowMs : UInt64) : Bool :=
  match entry with
  | none => true
  | some e =>
    if e.hasRecord = false then true
    else if e.exiting then false
    else
      let cadenceOk := (tieredIntervalFor st s.level).toUInt64 ≤ nowMs - e.lastSendMs
      let changed := s.payload ≠ e.last
      let maxGapOk := st.maxGapMs.toUInt64 ≤ nowMs - e.lastSendMs
      (cadenceOk && changed) || maxGapOk

/-- A subject that was suppressed, the entry it was judged by and the frames that had
been sent by then. -/
structure Silence where
  subject : ViewSubject
  entry : TieredEntry
  sent : List ReplicationFrame

structure PassLog where
  stats : DeliveryStats
  silenced : List Silence

def PassLog.suppress (log : PassLog) (s : ViewSubject) (entry : Option TieredEntry)
    (sent : List ReplicationFrame) : PassLog :=
  ⟨{ log.stats with suppressed := log.stats.suppressed + 1 },
    log.silenced ++ entry.toList.map fun e => ⟨s, e, sent⟩⟩

def PassLog.drop (log : PassLog) : PassLog :=
  { log with stats := { log.stats with dropped := log.stats.dropped + 1 } }

def PassLog.enqueue (log : PassLog) (events : UInt32) : PassLog :=
  { log with stats := { log.stats with
      enqueued := log.stats.enqueued + 1, eventsEnqueued := log.stats.eventsEnqueued + events } }

/-- The mark of presence that keeps an entry from being swept. -/
def TieredState.stamp (actorId : UInt64) : TieredState :=
  match tieredEntryGetIndex st actorId with
  | none => st
  | some i => st.rewrite i fun e => { e with seenPass := st.pass }

def TieredEntry.commit (pass nowMs : UInt64) (s : ViewSubject) (e : TieredEntry) : TieredEntry :=
  { e with seenPass := pass, last := s.payload, hasRecord := true, lastSendMs := nowMs }

/-- A record was sent: its entry is found or inserted and takes the payload. Without memory
for a new entry there is none. -/
def tieredRecordSent (heap : Heap TieredSite) (s : ViewSubject) (nowMs : UInt64) :
    TieredState × Heap TieredSite :=
  match tieredEntryEnsure st s.actorId heap with
  | (none, st, heap) => (st, heap)
  | (some i, st, heap) => (st.rewrite i (TieredEntry.commit st.pass nowMs s), heap)

/-- The entry of a subject whose event was sent. -/
def TieredEntry.confirm (nowMs : UInt64) (e : TieredEntry) : TieredEntry :=
  if e.pendingKind.isSome then { e with pendingKind := none, lastSendMs := nowMs } else e

end Due

section Batch

/-- What a pass decided for a subject; `missing` is due and has no entry. -/
inductive Decision where
  | suppressed | missing
  | entry (index : Nat)
  deriving DecidableEq

/-- The loop over the view; the first subject is the session's own. -/
def tieredDecide (nowMs : UInt64) (sent : List ReplicationFrame) :
    Bool → List ViewSubject → TieredState → PassLog → List Decision × TieredState × PassLog
  | _, [], st, log => ([], st, log)
  | first, s :: subjects, st, log =>
    let isSelf := first || s.subjectClass = .self
    let index := tieredEntryGetIndex st s.actorId
    let entry := tieredEntryGet st s.actorId
    if isSelf || tieredDue st s entry nowMs then
      let (decisions, st, log) := tieredDecide nowMs sent false subjects (st.stamp s.actorId) log
      ((match index with | none => .missing | some i => .entry i) :: decisions, st, log)
    else
      let (decisions, st, log) := tieredDecide nowMs sent false subjects (st.stamp s.actorId)
        (log.suppress s entry sent)
      (.suppressed :: decisions, st, log)

def includedSubjects (subjects : List ViewSubject) (decisions : List Decision) : List ViewSubject :=
  ((subjects.zip decisions).filter fun e => e.2 ≠ .suppressed).map Prod.fst

def pendingViewEvents (entries : List TieredEntry) : List ViewEvent :=
  entries.filterMap fun e => e.pendingKind.map fun kind => ⟨e.actorId, kind⟩

def tieredAssemble (subjects : List ViewSubject) (decisions : List Decision)
    (totalRecords : Nat) : List UInt8 :=
  let eventRecords :=
    if 0 < st.pendingEvents then
      (pendingViewEvents st.entries).map gatewayDeliverySerializeEvent
    else []
  batchHeader totalRecords ++
    (eventRecords ++ (includedSubjects subjects decisions).map gatewayDeliverySerialize).flatten

def tieredCommitEvents (nowMs : UInt64) : TieredState :=
  if 0 < st.pendingEvents then
    { st with
      entries := st.entries.map (TieredEntry.confirm nowMs)
      pendingEvents := st.pendingEvents - st.entries.countP fun e => e.pendingKind.isSome }
  else st

variable (heap : Heap TieredSite)

/-- An index is used only while the entry there is the subject's; insertions move entries. -/
def tieredCommitSubject (s : ViewSubject)
    (decision : Decision) (nowMs : UInt64) : TieredState × Heap TieredSite :=
  let kept := match decision with
    | .entry i => if (st.entries[i]?).map (·.actorId) = some s.actorId then some i else none
    | _ => none
  match kept with
  | some i => (st.rewrite i (TieredEntry.commit st.pass nowMs s), heap)
  | none => tieredRecordSent st heap s nowMs

def tieredCommitSubjects (nowMs : UInt64) :
    List (ViewSubject × Decision) → TieredState → Heap TieredSite → TieredState × Heap TieredSite
  | [], st, heap => (st, heap)
  | (s, decision) :: rest, st, heap =>
    if decision = .suppressed then tieredCommitSubjects nowMs rest st heap
    else
      let (st, heap) := tieredCommitSubject st heap s decision nowMs
      tieredCommitSubjects nowMs rest st heap

def tieredCommit (subjects : List ViewSubject)
    (decisions : List Decision) (nowMs : UInt64) : TieredState × Heap TieredSite :=
  tieredCommitSubjects nowMs (subjects.zip decisions) (tieredCommitEvents st nowMs) heap

def tieredScratchEnsure (subjectCount : Nat) : Bool × TieredState × Heap TieredSite :=
  if subjectCount ≤ st.scratchCap then (true, st, heap)
  else if 2 ^ 64 ≤ subjectCount * 2 * 68 then (false, st, heap)
  else
    match heap.request .decisions with
    | (false, heap) => (false, st, heap)
    | (true, heap) =>
      match heap.request .staging with
      | (false, heap) => (false, st, heap)
      | (true, heap) => (true, { st with scratchCap := subjectCount * 2 }, heap)

/-- Room for the frame; a frame of 2^32 bytes or more is not built. -/
def tieredFrameEnsure (need : Nat) : Bool × TieredState × Heap TieredSite :=
  if need ≤ st.frameCap then (true, st, heap)
  else
    match heap.request .frame with
    | (false, heap) => (false, st, heap)
    | (true, heap) => (true, { st with frameCap := need }, heap)

def tieredDeliverBatch (g : DeliveryGateway) (st : TieredState) (wire : Wire)
    (heap : Heap TieredSite) (subjects : List ViewSubject) (nowMs : UInt64) :
    PassLog × TieredState × Wire × Heap TieredSite :=
  match tieredScratchEnsure st heap subjects.length with
  | (false, st, heap) => (⟨⟨0, 1, 0, 0⟩, []⟩, st, wire, heap)
  | (true, st, heap) =>
    let (decisions, st, log) := tieredDecide nowMs wire.sent true subjects st ⟨⟨0, 0, 0, 0⟩, []⟩
    let totalRecords := st.pendingEvents + (includedSubjects subjects decisions).length
    let need := 4 + totalRecords * 68
    if 2 ^ 32 ≤ need then (log.drop, st, wire, heap)
    else
      match tieredFrameEnsure st heap need with
      | (false, st, heap) => (if totalRecords = 0 then log.drop else log.drop.drop, st, wire, heap)
      | (true, st, heap) =>
        match gatewayDeliveryEnqueue wire g.replicationBatchTypeId
            (tieredAssemble st subjects decisions totalRecords) with
        | (false, wire) => (log.drop, st, wire, heap)
        | (true, wire) =>
          let log := log.enqueue (.ofNat st.pendingEvents)
          let (st, heap) := tieredCommit st heap subjects decisions nowMs
          (log, tieredSweep st, wire, heap)

end Batch

section Single

/-- The pending events, up to the first refusal; whether there was none. -/
def tieredSendEvents (g : DeliveryGateway) (nowMs : UInt64) :
    List TieredEntry → PassLog → Wire → Bool × List TieredEntry × PassLog × Wire
  | [], log, wire => (true, [], log, wire)
  | e :: entries, log, wire =>
    match e.pendingKind with
    | none =>
      let (clean, entries, log, wire) := tieredSendEvents g nowMs entries log wire
      (clean, e :: entries, log, wire)
    | some kind =>
      match gatewayDeliveryEnqueue wire g.replicationTypeId
          (gatewayDeliverySerializeEvent ⟨e.actorId, kind⟩) with
      | (false, wire) => (false, e :: entries, log.drop, wire)
      | (true, wire) =>
        let (clean, entries, log, wire) := tieredSendEvents g nowMs entries (log.enqueue 1) wire
        (clean, e.confirm nowMs :: entries, log, wire)

def tieredSendSubject (g : DeliveryGateway) (nowMs : UInt64) (isSelf : Bool) (s : ViewSubject)
    (st : TieredState) (log : PassLog) (wire : Wire) (heap : Heap TieredSite) :
    Bool × TieredState × PassLog × Wire × Heap TieredSite :=
  let entry := tieredEntryGet st s.actorId
  let st := st.stamp s.actorId
  if isSelf = false ∧ tieredDue st s entry nowMs = false then
    (true, st, log.suppress s entry wire.sent, wire, heap)
  else
    match gatewayDeliveryEnqueue wire g.replicationTypeId (gatewayDeliverySerialize s) with
    | (false, wire) => (false, st, log.drop, wire, heap)
    | (true, wire) =>
      let (st, heap) := tieredRecordSent st heap s nowMs
      (true, st, log.enqueue 0, wire, heap)

def tieredSendSubjects (g : DeliveryGateway) (nowMs : UInt64) :
    Bool → List ViewSubject → TieredState → PassLog → Wire → Heap TieredSite →
      TieredState × PassLog × Wire × Heap TieredSite
  | _, [], st, log, wire, heap => (st, log, wire, heap)
  | first, s :: subjects, st, log, wire, heap =>
    let isSelf := first || s.subjectClass = .self
    match tieredSendSubject g nowMs isSelf s st log wire heap with
    | (false, st, log, wire, heap) => (st, log, wire, heap)
    | (true, st, log, wire, heap) => tieredSendSubjects g nowMs false subjects st log wire heap

def tieredDeliverSingle (g : DeliveryGateway) (st : TieredState) (wire : Wire)
    (heap : Heap TieredSite) (subjects : List ViewSubject) (nowMs : UInt64) :
    PassLog × TieredState × Wire × Heap TieredSite :=
  let (clean, entries, log, wire) := tieredSendEvents g nowMs st.entries ⟨⟨0, 0, 0, 0⟩, []⟩ wire
  let st := { st with entries := entries }
  if clean then
    let (st, log, wire, heap) := tieredSendSubjects g nowMs true subjects st log wire heap
    (log, tieredSweep st, wire, heap)
  else (log, st, wire, heap)

end Single

section Session

def tieredResolveConfig (config : Option TieredConfig) : Except KithError TieredState :=
  let defaults : TieredState := ⟨0, 200, 500, 1000, [], 0, 0, 0, 0, 0⟩
  match config with
  | none => .ok defaults
  | some c =>
    if c.size < 88 then .error .esize
    else if c.abiVersion ≠ 1 then .error .eabiver
    else
      .ok { defaults with
        fullIntervalMs := if c.fullIntervalMs ≠ 0 then c.fullIntervalMs else 0
        reducedIntervalMs := if c.reducedIntervalMs ≠ 0 then c.reducedIntervalMs else 200
        crowdIntervalMs := if c.crowdIntervalMs ≠ 0 then c.crowdIntervalMs else 500
        maxGapMs := if c.maxGapMs ≠ 0 then c.maxGapMs else 1000 }

structure TieredPass where
  delta : List ViewEvent
  subjects : List ViewSubject
  nowMs : UInt64
  deriving DecidableEq

/-- A session's ledger, its connection and the allocator; the view of the last pass, the
actors the session was bound to in the views before it, and all that was suppressed. -/
structure TieredSession where
  st : TieredState
  wire : Wire
  heap : Heap TieredSite
  view : List ViewSubject
  formerSelves : List UInt64
  silenced : List Silence

def tieredSessionInit (config : Option TieredConfig) (wire : Wire) (heap : Heap TieredSite) :
    Except KithError TieredSession :=
  (tieredResolveConfig config).map fun st => ⟨st, wire, heap, [], [], []⟩

def tieredDeliver (g : DeliveryGateway) (s : TieredSession) (pass : TieredPass) :
    (Rc × DeliveryStats) × TieredSession :=
  if g.replicationBatchTypeId = 0 ∧ g.replicationTypeId = 0 then ((.err .estate, ⟨0, 0, 0, 0⟩), s)
  else
    let st := { s.st with pass := s.st.pass + 1 }
    let (st, heap) := tieredAbsorbDelta pass.delta st s.heap
    let (log, st, wire, heap) :=
      if g.replicationBatchTypeId ≠ 0 then
        tieredDeliverBatch g st s.wire heap pass.subjects pass.nowMs
      else tieredDeliverSingle g st s.wire heap pass.subjects pass.nowMs
    ((.ok, log.stats),
      ⟨st, wire, heap, pass.subjects,
        s.formerSelves ++ (s.view.head?.map ViewSubject.actorId).toList,
        s.silenced ++ log.silenced⟩)

end Session

section Written

/-- The entry `id`, present or fresh, was replaced by its image under `f`. -/
def Written (id : UInt64) (f : TieredEntry → TieredEntry) (entries entries' : List TieredEntry) :
    Prop :=
  ∃ before e after, e.actorId = id ∧ Sorted TieredEntry.key (before ++ e :: after) ∧
    (entries = before ++ e :: after ∨ entries = before ++ after ∧ e = .fresh id) ∧
    entries' = before ++ f e :: after

def Absent (id : UInt64) (entries : List TieredEntry) : Prop := ∀ e ∈ entries, e.actorId ≠ id

variable {id : UInt64} {f : TieredEntry → TieredEntry} {entries entries' : List TieredEntry}
    {x : TieredEntry}

theorem apart_of_sorted {before after : List TieredEntry} {e : TieredEntry}
    (sorted : Sorted TieredEntry.key (before ++ e :: after)) :
    Absent e.actorId (before ++ after) := by
  obtain ⟨below, above⟩ := sorted.middle
  intro x member same
  have key : x.key = e.key := congrArg UInt64.toNat same
  rcases mem_append.mp member with member | member
  · exact (below x member).ne key
  · exact (above x member).ne' key

variable (written : Written id f entries entries')
include written

theorem Written.mem (member : x ∈ entries') :
    (x ∈ entries ∧ x.actorId ≠ id) ∨
      ∃ e, (e ∈ entries ∨ e = .fresh id) ∧ e.actorId = id ∧ x = f e := by
  obtain ⟨before, e, after, rfl, sorted, was, rfl⟩ := written
  have apart := apart_of_sorted sorted
  simp only [mem_append, mem_cons] at member
  rcases was with rfl | ⟨rfl, new⟩
  · rcases member with left | rfl | right
    · exact .inl ⟨by simp [left], apart x (by simp [left])⟩
    · exact .inr ⟨e, .inl (by simp), rfl, rfl⟩
    · exact .inl ⟨by simp [right], apart x (by simp [right])⟩
  · rcases member with left | rfl | right
    · exact .inl ⟨by simp [left], apart x (by simp [left])⟩
    · exact .inr ⟨e, .inr new, rfl, rfl⟩
    · exact .inl ⟨by simp [right], apart x (by simp [right])⟩

variable {p : TieredEntry → Prop}

theorem Written.forall (others : ∀ e ∈ entries, e.actorId ≠ id → p e)
    (image : ∀ e, e ∈ entries ∨ e = .fresh id → e.actorId = id → p (f e)) :
    ∀ x ∈ entries', p x := by
  intro x member
  rcases written.mem member with ⟨old, other⟩ | ⟨e, was, named, rfl⟩
  · exact others x old other
  · exact image e was named

theorem Written.keeps (all : ∀ e ∈ entries, p e) (fresh : p (.fresh id))
    (image : ∀ e, p e → p (f e)) : ∀ x ∈ entries', p x := by
  refine written.forall (fun e old _ => all e old) ?_
  rintro e (old | rfl) _
  · exact image e (all e old)
  · exact image _ fresh

theorem Written.keep (member : x ∈ entries) (other : x.actorId ≠ id) : x ∈ entries' := by
  obtain ⟨before, e, after, rfl, _, rfl | ⟨rfl, _⟩, rfl⟩ := written
  · simp only [mem_append, mem_cons] at member ⊢
    rcases member with left | rfl | right
    · exact .inl left
    · exact absurd rfl other
    · exact .inr (.inr right)
  · simp only [mem_append, mem_cons] at member ⊢
    exact member.imp_right .inr

theorem Written.image (member : x ∈ entries) (same : x.actorId = id) : f x ∈ entries' := by
  obtain ⟨before, e, after, rfl, sorted, was, rfl⟩ := written
  have apart := apart_of_sorted sorted
  rcases was with rfl | ⟨rfl, _⟩
  · simp only [mem_append, mem_cons] at member
    rcases member with left | rfl | right
    · exact absurd same (apart x (by simp [left]))
    · simp
    · exact absurd same (apart x (by simp [right]))
  · exact absurd same (apart x member)

theorem Written.exists_image : ∃ e, e.actorId = id ∧ f e ∈ entries' := by
  obtain ⟨before, e, after, named, _, _, rfl⟩ := written
  exact ⟨e, named, by simp⟩

theorem Written.sorted (kept : ∀ e, (f e).actorId = e.actorId) :
    Sorted TieredEntry.key entries' := by
  obtain ⟨before, e, after, _, sorted, _, rfl⟩ := written
  exact sorted.rewrite (congrArg UInt64.toNat (kept e))

theorem Written.pendingViewEvents_eq (named : ∀ e, (f e).actorId = e.actorId)
    (kept : ∀ e, (f e).pendingKind = e.pendingKind) :
    pendingViewEvents entries' = pendingViewEvents entries := by
  obtain ⟨before, e, after, _, _, rfl | ⟨rfl, rfl⟩, rfl⟩ := written
  · simp [pendingViewEvents, filterMap_cons, named, kept]
  · simp [pendingViewEvents, kept, TieredEntry.fresh]

end Written

theorem length_pendingViewEvents (entries : List TieredEntry) :
    (pendingViewEvents entries).length = entries.countP fun e => e.pendingKind.isSome := by
  simp [pendingViewEvents, length_filterMap_eq_countP]

section LedgerSpecs

variable {st : TieredState} (sorted : Sorted TieredEntry.key st.entries) {id : UInt64}
    {e : TieredEntry} {before after entries entries' : List TieredEntry} {i : Nat}

include sorted

theorem tieredEntryGetIndex_cases (id : UInt64) :
    (∃ before e after, st.entries = before ++ e :: after ∧ e.actorId = id ∧
      tieredEntryGetIndex st id = some before.length ∧ tieredEntryGet st id = some e) ∨
    (tieredEntryGetIndex st id = none ∧ tieredEntryGet st id = none ∧ Absent id st.entries) := by
  unfold tieredEntryGet tieredEntryGetIndex
  rcases sorted.find_cases id.toNat with
    ⟨before, e, after, split, named, _, _, found⟩ |
      ⟨before, after, split, _, _, missing, below, above⟩
  · refine .inl ⟨before, e, after, split, UInt64.toNat_inj.mp named, found, ?_⟩
    rw [found, split]
    simp
  · refine .inr ⟨missing, by rw [missing]; rfl, ?_⟩
    intro e member same
    have key : e.key = id.toNat := congrArg UInt64.toNat same
    rw [split] at member
    rcases mem_append.mp member with member | member
    · exact (below e member).ne key
    · exact (above e member).ne' key

theorem tieredEntryGet_mem (found : tieredEntryGet st id = some e) :
    e ∈ st.entries ∧ e.actorId = id := by
  rcases tieredEntryGetIndex_cases sorted id with ⟨before, x, after, split, named, _, at_x⟩ |
    ⟨_, none, _⟩
  · cases at_x.symm.trans found
    exact ⟨by rw [split]; simp, named⟩
  · cases none.symm.trans found

theorem tieredEntryGet_eq (id : UInt64) :
    tieredEntryGet st id = lookup TieredEntry.key st.entries id.toNat := by
  unfold tieredEntryGet tieredEntryGetIndex
  rcases sorted.find_cases id.toNat with
    ⟨before, e, after, split, _, held, _, found⟩ | ⟨_, _, _, unheld, _, missing, _⟩
  · rw [found, held, split]
    simp
  · rw [missing, unheld]
    rfl

omit sorted in
theorem modify_middle (f : TieredEntry → TieredEntry) :
    (before ++ e :: after).modify before.length f = before ++ f e :: after := by
  induction before with
  | nil => rfl
  | cons b before ih => exact congrArg (b :: ·) ih

omit sorted in
theorem insertIdx_middle (before after : List TieredEntry) (e : TieredEntry) :
    (before ++ after).insertIdx before.length e = before ++ e :: after := by
  induction before with
  | nil => rfl
  | cons b before ih => exact congrArg (b :: ·) ih

theorem rewrite_found (split : st.entries = before ++ e :: after) (f : TieredEntry → TieredEntry) :
    Written e.actorId f st.entries (st.rewrite before.length f).entries := by
  refine ⟨before, e, after, rfl, split ▸ sorted, .inl split, ?_⟩
  rw [TieredState.rewrite, split, modify_middle]

theorem rewrite_at (at_i : st.entries[i]? = some e) (f : TieredEntry → TieredEntry) :
    Written e.actorId f st.entries (st.rewrite i f).entries := by
  obtain ⟨inside, rfl⟩ := List.getElem?_eq_some_iff.mp at_i
  have split : st.entries = st.entries.take i ++ st.entries[i] :: st.entries.drop (i + 1) := by
    rw [getElem_cons_drop, take_append_drop]
  have length : (st.entries.take i).length = i := length_take_of_le inside.le
  have written := rewrite_found sorted split f
  rwa [length] at written

theorem stamp_cases (id : UInt64) :
    ∃ entries, st.stamp id = { st with entries := entries } ∧ (entries = st.entries ∨
      Written id (fun e => { e with seenPass := st.pass }) st.entries entries) := by
  unfold TieredState.stamp
  rcases tieredEntryGetIndex_cases sorted id with
    ⟨before, e, after, split, named, found, _⟩ | ⟨missing, _⟩
  · rw [found]
    exact ⟨_, rfl, .inr (named ▸ rewrite_found sorted split _)⟩
  · rw [missing]
    exact ⟨_, rfl, .inl rfl⟩

omit sorted in
/-- The entry `id` stands at index `i` of `entries'`, where it was found or inserted. -/
def Located (id : UInt64) (i : Nat) (entries entries' : List TieredEntry) : Prop :=
  ∃ before e after, e.actorId = id ∧ before.length = i ∧
    Sorted TieredEntry.key (before ++ e :: after) ∧
    (entries = before ++ e :: after ∨ entries = before ++ after ∧ e = .fresh id) ∧
    entries' = before ++ e :: after

omit sorted in
theorem Located.written (located : Located id i entries entries') (f : TieredEntry → TieredEntry) :
    Written id f entries (entries'.modify i f) := by
  obtain ⟨before, e, after, named, rfl, sorted, was, rfl⟩ := located
  exact ⟨before, e, after, named, sorted, was, modify_middle f⟩

omit sorted in
theorem Located.length_depart (located : Located id i entries entries') (kind : EventKind) :
    (pendingViewEvents (entries'.modify i (TieredEntry.depart kind))).length =
      (pendingViewEvents entries).length +
        if (entries'[i]?).any fun e => e.pendingKind.isNone then 1 else 0 := by
  obtain ⟨before, e, after, _, rfl, _, was, rfl⟩ := located
  rw [modify_middle]
  rcases was with rfl | ⟨rfl, rfl⟩
  · cases pending : e.pendingKind with
    | none =>
      simp [pendingViewEvents, TieredEntry.depart, pending]
      omega
    | some kind => simp [pendingViewEvents, TieredEntry.depart, pending]
  · simp [pendingViewEvents, TieredEntry.depart, TieredEntry.fresh]
    omega

theorem tieredEntryEnsure_cases (id : UInt64) (heap : Heap TieredSite) :
    (∃ i st' heap', tieredEntryEnsure st id heap = (some i, st', heap') ∧
      Located id i st.entries st'.entries ∧ st'.pass = st.pass ∧
      st'.pendingEvents = st.pendingEvents ∧ heap'.grant = heap.grant) ∨
    ∃ heap', tieredEntryEnsure st id heap = (none, st, heap') ∧ Absent id st.entries ∧
      heap'.grant = heap.grant ∧ ∃ n, heap.grant .ledger n = false := by
  unfold tieredEntryEnsure
  rcases sorted.find_cases id.toNat with
    ⟨before, e, after, split, named, _, bound, _⟩ |
      ⟨before, after, split, _, bound, _, below, above⟩
  · have named := UInt64.toNat_inj.mp named
    have here : (st.entries[before.length]?).map (·.actorId) = some id := by
      rw [split]
      simp [named]
    left
    refine ⟨before.length, st, heap, ?_, ?_, rfl, rfl, rfl⟩
    · simp [bound, here]
    · exact ⟨before, e, after, named, rfl, split ▸ sorted, .inl split, split⟩
  · have fresh : Sorted TieredEntry.key (before ++ .fresh id :: after) :=
      (split ▸ sorted : Sorted TieredEntry.key (before ++ after)).insert below above
    have elsewhere : Absent id st.entries := split ▸ apart_of_sorted fresh
    have absent : ¬(st.entries[before.length]?).map (·.actorId) = some id := by
      intro here
      obtain ⟨e, at_e, same⟩ := Option.map_eq_some_iff.mp here
      exact elsewhere e (mem_of_getElem? at_e) same
    have inserted : Located id before.length st.entries
        (st.entries.insertIdx before.length (.fresh id)) :=
      ⟨before, .fresh id, after, rfl, rfl, fresh, .inr ⟨split, rfl⟩, by
        rw [split, insertIdx_middle]⟩
    simp only [bound, absent, if_false]
    by_cases full : st.entries.length = st.cap
    · simp only [full, if_true, Heap.request]
      cases granted : heap.grant .ledger heap.calls with
      | false => exact .inr ⟨_, rfl, elsewhere, rfl, _, granted⟩
      | true => exact .inl ⟨_, _, _, rfl, inserted, rfl, rfl, rfl⟩
    · simp only [full, if_false]
      exact .inl ⟨_, _, _, rfl, inserted, rfl, rfl, rfl⟩

end LedgerSpecs

section RecordSpecs

/-- The ledger's side of a record that was sent. -/
structure RecordStep (s : ViewSubject) (nowMs : UInt64) (st st' : TieredState) : Prop where
  entries : Written s.actorId (TieredEntry.commit st.pass nowMs s) st.entries st'.entries ∨
    st'.entries = st.entries ∧ Absent s.actorId st.entries
  pendingEvents : st'.pendingEvents = st.pendingEvents

variable {st st' : TieredState} {s : ViewSubject} {nowMs : UInt64}

theorem RecordStep.pendingViewEvents_eq (step : RecordStep s nowMs st st') :
    pendingViewEvents st'.entries = pendingViewEvents st.entries := by
  rcases step.entries with written | ⟨same, _⟩
  · exact written.pendingViewEvents_eq (fun _ => rfl) fun _ => rfl
  · rw [same]

variable (sorted : Sorted TieredEntry.key st.entries)

include sorted

theorem tieredRecordSent_step (heap : Heap TieredSite) (s : ViewSubject) (nowMs : UInt64) :
    RecordStep s nowMs st (tieredRecordSent st heap s nowMs).1 := by
  unfold tieredRecordSent
  rcases tieredEntryEnsure_cases sorted s.actorId heap with
    ⟨i, st', heap', ensured, located, pass, pending, _⟩ | ⟨heap', refused, absent, _⟩
  · rw [ensured]
    exact ⟨.inl (pass ▸ located.written _), pending⟩
  · rw [refused]
    exact ⟨.inr ⟨rfl, absent⟩, rfl⟩

theorem tieredCommitSubject_step (heap : Heap TieredSite) (s : ViewSubject) (decision : Decision)
    (nowMs : UInt64) : RecordStep s nowMs st (tieredCommitSubject st heap s decision nowMs).1 := by
  unfold tieredCommitSubject
  dsimp only
  split
  · next i kept =>
    split at kept
    · next j =>
      split at kept
      · next here =>
        cases kept
        obtain ⟨e, at_e, named⟩ := Option.map_eq_some_iff.mp here
        exact ⟨.inl (named ▸ rewrite_at sorted at_e _), rfl⟩
      · cases kept
    · cases kept
  · exact tieredRecordSent_step sorted heap s nowMs

end RecordSpecs

section AbsorbSpecs

/-- What one event of the delta does to the ledger; a departure is lost when there is no
memory for its entry. -/
inductive AbsorbStep (grant : TieredSite → Nat → Bool) (e : ViewEvent) :
    List TieredEntry → List TieredEntry → Prop
  | unknown {entries : List TieredEntry} (enters : e.kind.departure = false) :
      AbsorbStep grant e entries entries
  | enter {entries entries' : List TieredEntry} (enters : e.kind.departure = false)
      (written : Written e.actorId TieredEntry.enter entries entries') :
      AbsorbStep grant e entries entries'
  | depart {entries entries' : List TieredEntry} (departs : e.kind.departure = true)
      (written : Written e.actorId (TieredEntry.depart e.kind) entries entries') :
      AbsorbStep grant e entries entries'
  | lost {entries : List TieredEntry} (departs : e.kind.departure = true)
      (refused : ∃ n, grant .ledger n = false) : AbsorbStep grant e entries entries

inductive Absorbs (grant : TieredSite → Nat → Bool) :
    List ViewEvent → List TieredEntry → List TieredEntry → Prop
  | nil (entries : List TieredEntry) : Absorbs grant [] entries entries
  | cons {e : ViewEvent} {delta : List ViewEvent} {entries entries₁ entries' : List TieredEntry}
      (first : AbsorbStep grant e entries entries₁) (rest : Absorbs grant delta entries₁ entries') :
      Absorbs grant (e :: delta) entries entries'

def TieredState.Counted : Prop :=
  st.pendingEvents = (pendingViewEvents st.entries).length

theorem enters_iff (kind : EventKind) :
    (kind = .enter ∨ kind = .crowdEnter) ↔ kind.departure = false := by
  cases kind <;> simp [EventKind.departure]

theorem enter_actorId (e : TieredEntry) : e.enter.actorId = e.actorId := by
  unfold TieredEntry.enter
  split <;> rfl

theorem enter_pendingKind (e : TieredEntry) : e.enter.pendingKind = e.pendingKind := by
  unfold TieredEntry.enter
  split <;> rfl

theorem tieredAbsorbEvent_step {st : TieredState} (sorted : Sorted TieredEntry.key st.entries)
    (heap : Heap TieredSite) (e : ViewEvent) :
    ∃ st' heap', tieredAbsorbEvent st heap e = (st', heap') ∧ heap'.grant = heap.grant ∧
      AbsorbStep heap.grant e st.entries st'.entries ∧ (st.Counted → st'.Counted) := by
  unfold tieredAbsorbEvent
  split
  · next kind =>
    have enters := (enters_iff e.kind).mp kind
    rcases tieredEntryGetIndex_cases sorted e.actorId with
      ⟨before, x, after, split, named, found, _⟩ | ⟨missing, _⟩
    · rw [found]
      have written : Written e.actorId TieredEntry.enter st.entries _ :=
        named ▸ rewrite_found sorted split TieredEntry.enter
      refine ⟨_, heap, rfl, rfl, .enter enters written, ?_⟩
      intro counted
      exact counted.trans
        (congrArg length (written.pendingViewEvents_eq enter_actorId enter_pendingKind).symm)
    · rw [missing]
      exact ⟨st, heap, rfl, rfl, .unknown enters, id⟩
  · next kind =>
    have departs : e.kind.departure = true := by
      rw [enters_iff] at kind
      exact eq_true_of_ne_false kind
    rcases tieredEntryEnsure_cases sorted e.actorId heap with
      ⟨i, st', heap', ensured, located, _, pending, grant⟩ | ⟨heap', refused, _, grant, denied⟩
    · rw [ensured]
      refine ⟨_, heap', rfl, grant, .depart departs (located.written _), ?_⟩
      intro counted
      change (if _ then st'.pendingEvents + 1 else st'.pendingEvents) = length _
      rw [TieredState.rewrite, located.length_depart, pending, counted]
      split <;> rfl
    · rw [refused]
      exact ⟨st, heap', rfl, grant, .lost departs denied, id⟩

variable {grant : TieredSite → Nat → Bool} {entries entries' : List TieredEntry}
    {delta : List ViewEvent}

theorem AbsorbStep.sorted {e : ViewEvent} (step : AbsorbStep grant e entries entries')
    (sorted : Sorted TieredEntry.key entries) : Sorted TieredEntry.key entries' := by
  cases step with
  | unknown | lost => exact sorted
  | enter _ written => exact written.sorted enter_actorId
  | depart _ written => exact written.sorted fun _ => rfl

theorem tieredAbsorbDelta_absorbs (delta : List ViewEvent) (st : TieredState)
    (sorted : Sorted TieredEntry.key st.entries) (heap : Heap TieredSite) :
    ∃ st' heap', tieredAbsorbDelta delta st heap = (st', heap') ∧
      Absorbs heap.grant delta st.entries st'.entries ∧ (st.Counted → st'.Counted) := by
  induction delta generalizing st heap with
  | nil => exact ⟨st, heap, rfl, .nil _, id⟩
  | cons e delta ih =>
    obtain ⟨st₁, heap₁, absorbed, grant, step, counted⟩ := tieredAbsorbEvent_step sorted heap e
    obtain ⟨st', heap', rest, absorbs, counted'⟩ := ih st₁ (step.sorted sorted) heap₁
    unfold tieredAbsorbDelta
    rw [absorbed]
    exact ⟨st', heap', rest, .cons step (grant ▸ absorbs), counted' ∘ counted⟩

theorem Absorbs.sorted (absorbs : Absorbs grant delta entries entries')
    (sorted : Sorted TieredEntry.key entries) : Sorted TieredEntry.key entries' := by
  induction absorbs with
  | nil => exact sorted
  | cons first _ ih => exact ih (first.sorted sorted)

theorem Written.length_pending_le {id : UInt64} {f : TieredEntry → TieredEntry}
    (written : Written id f entries entries') :
    (pendingViewEvents entries').length ≤ (pendingViewEvents entries).length + 1 := by
  simp only [length_pendingViewEvents]
  obtain ⟨before, e, after, _, _, rfl | ⟨rfl, _⟩, rfl⟩ := written
  · simp only [countP_append, countP_cons]
    split <;> split <;> omega
  · simp only [countP_append, countP_cons]
    split <;> omega

theorem Absorbs.length_pending_le (absorbs : Absorbs grant delta entries entries') :
    (pendingViewEvents entries').length ≤
      (pendingViewEvents entries).length + (departures delta).length := by
  induction absorbs with
  | nil => exact Nat.le_add_right ..
  | cons first rest ih =>
    cases first with
    | unknown enters => simpa [departures, enters] using ih
    | lost departs =>
      simp [departures, departs] at ih ⊢
      omega
    | enter enters written =>
      rw [written.pendingViewEvents_eq enter_actorId enter_pendingKind] at ih
      simpa [departures, enters] using ih
    | depart departs written =>
      have one := written.length_pending_le
      simp [departures, departs] at ih ⊢
      omega

end AbsorbSpecs

end Kith.Gateway
