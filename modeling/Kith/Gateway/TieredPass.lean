import Kith.Gateway.TieredClient

/-!
# Passes of the tiered strategy

A batch pass ends in one of five ways. Which one, and what it counts, is a matter of the
ledger, of the subjects that are due by it, and of the allocator's and the connection's
answers. In either framing a pass moves the ledger and the client together.
-/

namespace Kith.Gateway

open Runs SortedArray Relation List

section Due

/-- The subjects that are due by the ledger: the first, the session's own, and those that
`tiered_due` says. -/
def dueSubjects (st : TieredState) (nowMs : UInt64) : Bool → List ViewSubject → List ViewSubject
  | _, [] => []
  | first, s :: subjects =>
    if first || s.subjectClass = .self || tieredDue st s (tieredEntryGet st s.actorId) nowMs then
      s :: dueSubjects st nowMs false subjects
    else dueSubjects st nowMs false subjects

theorem length_dueSubjects_le (st : TieredState) (nowMs : UInt64) (first : Bool)
    (subjects : List ViewSubject) :
    (dueSubjects st nowMs first subjects).length ≤ subjects.length := by
  induction subjects generalizing first with
  | nil => exact Nat.le_refl _
  | cons s subjects ih =>
    rw [dueSubjects]
    split
    · exact Nat.succ_le_succ (ih false)
    · exact (ih false).trans (Nat.le_succ _)

/-- What `tiered_due` reads of an entry. -/
def TieredEntry.judged (e : TieredEntry) : Bool × Bool × UInt64 × Payload :=
  (e.hasRecord, e.exiting, e.lastSendMs, e.last)

variable {st : TieredState}

theorem tieredDue_congr {st' : TieredState} {s : ViewSubject} {nowMs : UInt64}
    {entry entry' : Option TieredEntry}
    (intervals : tieredIntervalFor st' s.level = tieredIntervalFor st s.level)
    (gap : st'.maxGapMs = st.maxGapMs)
    (judged : entry'.map TieredEntry.judged = entry.map TieredEntry.judged) :
    tieredDue st' s entry' nowMs = tieredDue st s entry nowMs := by
  cases entry with
  | none =>
    rw [Option.map_none, Option.map_eq_none_iff] at judged
    rw [judged]
    rfl
  | some e =>
    cases entry' with
    | none => cases judged
    | some e' =>
      simp only [Option.map_some, Option.some.injEq, TieredEntry.judged, Prod.mk.injEq] at judged
      obtain ⟨record, exiting, sent, last⟩ := judged
      simp only [tieredDue, record, exiting, sent, last, intervals, gap]

section

variable (sorted : Sorted TieredEntry.key st.entries)
include sorted

theorem stamp_sorted (id : UInt64) : Sorted TieredEntry.key (st.stamp id).entries := by
  obtain ⟨entries, stamped, same | written⟩ := stamp_cases sorted id
  · rw [stamped, same]
    exact sorted
  · rw [stamped]
    exact written.sorted fun _ => rfl

theorem stamp_pending (id : UInt64) :
    pendingViewEvents (st.stamp id).entries = pendingViewEvents st.entries := by
  obtain ⟨entries, stamped, same | written⟩ := stamp_cases sorted id
  · rw [stamped, same]
  · rw [stamped]
    exact written.pendingViewEvents_eq (fun _ => rfl) fun _ => rfl

theorem stamp_judged (id other : UInt64) :
    (tieredEntryGet (st.stamp id) other).map TieredEntry.judged =
      (tieredEntryGet st other).map TieredEntry.judged := by
  rw [tieredEntryGet_eq (stamp_sorted sorted id), tieredEntryGet_eq sorted]
  rcases tieredEntryGetIndex_cases sorted id with
    ⟨before, e, after, split, _, found, _⟩ | ⟨missing, _⟩
  · have old : Sorted TieredEntry.key (before ++ e :: after) := split ▸ sorted
    have marked : Sorted TieredEntry.key (before ++ { e with seenPass := st.pass } :: after) :=
      old.rewrite rfl
    rw [TieredState.stamp, found]
    simp only [TieredState.rewrite]
    rw [split, modify_middle, lookup_middle marked.middle.1, lookup_middle old.middle.1,
      apply_ite (Option.map _), apply_ite (Option.map _)]
    rfl
  · rw [TieredState.stamp, missing]

theorem dueSubjects_stamp (id nowMs : UInt64) (first : Bool) (subjects : List ViewSubject) :
    dueSubjects (st.stamp id) nowMs first subjects = dueSubjects st nowMs first subjects := by
  obtain ⟨entries, stamped, _⟩ := stamp_cases sorted id
  have verdict : ∀ s, tieredDue (st.stamp id) s (tieredEntryGet (st.stamp id) s.actorId) nowMs =
      tieredDue st s (tieredEntryGet st s.actorId) nowMs := by
    intro s
    refine tieredDue_congr ?_ ?_ (stamp_judged sorted id s.actorId)
    · rw [stamped]
      cases s.level <;> rfl
    · rw [stamped]
  induction subjects generalizing first with
  | nil => rfl
  | cons s subjects ih => rw [dueSubjects, dueSubjects, verdict, ih]

end

/-- The counters after `n` more subjects were suppressed. -/
def DeliveryStats.suppressing (stats : DeliveryStats) (n : Nat) : DeliveryStats :=
  { stats with suppressed := stats.suppressed + .ofNat n }

theorem suppress_suppressing (log : PassLog) (s : ViewSubject) (entry : Option TieredEntry)
    (sent : List ReplicationFrame) (n : Nat) :
    (log.suppress s entry sent).stats.suppressing n = log.stats.suppressing (n + 1) := by
  simp only [DeliveryStats.suppressing, PassLog.suppress, UInt32.ofNat_add]
  rw [UInt32.add_comm (UInt32.ofNat n), ← UInt32.add_assoc]
  rfl

/-- What deciding leaves: the ledger moved without the client, the included subjects are those
due by the ledger as it was, and only the count of suppressed subjects moves. -/
structure Decided (nowMs : UInt64) (sent : List ReplicationFrame) (first : Bool)
    (subjects : List ViewSubject) (st : TieredState) (log : PassLog) (decisions : List Decision)
    (st' : TieredState) (log' : PassLog) : Prop where
  moves : ∀ g view, ReflTransGen (Move g view) ⟨st.entries, received g sent, log.silenced⟩
    ⟨st'.entries, received g sent, log'.silenced⟩
  included : includedSubjects subjects decisions = dueSubjects st nowMs first subjects
  stats : log'.stats =
    log.stats.suppressing (subjects.length - (dueSubjects st nowMs first subjects).length)
  events : pendingViewEvents st'.entries = pendingViewEvents st.entries
  settings : ∃ entries, st' = { st with entries := entries }

theorem includedSubjects_cons (s : ViewSubject) (subjects : List ViewSubject) (d : Decision)
    (decisions : List Decision) :
    includedSubjects (s :: subjects) (d :: decisions) =
      if d = .suppressed then includedSubjects subjects decisions
      else s :: includedSubjects subjects decisions := by
  by_cases left_out : d = .suppressed
  · simp [left_out, includedSubjects]
  · simp [left_out, includedSubjects]

theorem tieredDecide_decided (nowMs : UInt64) (sent : List ReplicationFrame) (first : Bool)
    (subjects : List ViewSubject) (st : TieredState) (sorted : Sorted TieredEntry.key st.entries)
    (log : PassLog) :
    ∃ decisions st' log', tieredDecide nowMs sent first subjects st log = (decisions, st', log') ∧
      Decided nowMs sent first subjects st log decisions st' log' := by
  induction subjects generalizing first st log with
  | nil =>
    exact ⟨[], st, log, rfl, fun _ _ => .refl, rfl, by simp [DeliveryStats.suppressing], rfl,
      st.entries, rfl⟩
  | cons s subjects ih =>
    obtain ⟨marked, stamped, _⟩ := stamp_cases sorted s.actorId
    have events := stamp_pending sorted s.actorId
    have few := length_dueSubjects_le st nowMs false subjects
    unfold tieredDecide
    dsimp only
    split
    · rename_i due
      obtain ⟨decisions, st', log', decided, spec⟩ := ih false _ (stamp_sorted sorted s.actorId) log
      obtain ⟨entries, settings⟩ := spec.settings
      rw [decided]
      refine ⟨_, st', log', rfl, fun g view => (stamp_moves sorted ..).trans (spec.moves g view),
        ?_, ?_, spec.events.trans events, entries, by rw [settings, stamped]⟩
      · rw [includedSubjects_cons, spec.included, dueSubjects_stamp sorted, dueSubjects, if_pos due,
          if_neg]
        cases tieredEntryGetIndex st s.actorId <;> simp
      · rw [spec.stats, dueSubjects_stamp sorted, dueSubjects, if_pos due, length_cons,
          length_cons, Nat.add_sub_add_right]
    · rename_i idle
      have silent : tieredDue st s (tieredEntryGet st s.actorId) nowMs = false := by
        simp only [Bool.not_eq_true, Bool.or_eq_false_iff] at idle
        exact idle.2
      obtain ⟨decisions, st', log', decided, spec⟩ := ih false _ (stamp_sorted sorted s.actorId)
        (log.suppress s (tieredEntryGet st s.actorId) sent)
      obtain ⟨entries, settings⟩ := spec.settings
      rw [decided]
      refine ⟨_, st', log', rfl,
        fun g view => (silence_moves sorted silent).trans (spec.moves g view),
        ?_, ?_, spec.events.trans events, entries, by rw [settings, stamped]⟩
      · rw [includedSubjects_cons, if_pos rfl, spec.included, dueSubjects_stamp sorted, dueSubjects,
          if_neg idle]
      · rw [spec.stats, dueSubjects_stamp sorted, dueSubjects, if_neg idle, length_cons,
          Nat.sub_add_comm few, suppress_suppressing]

end Due

section Outcome

variable (st : TieredState)

/-- The records of a batch pass: the pending events in the order of the ledger, then the due
subjects in the order of the view. -/
def batchRecords (subjects : List ViewSubject) (nowMs : UInt64) : List Record :=
  (pendingViewEvents st.entries).map ViewEvent.record ++
    (dueSubjects st nowMs true subjects).map ViewSubject.record

def batchNeed (subjects : List ViewSubject) (nowMs : UInt64) : Nat :=
  4 + (batchRecords st subjects nowMs).length * 68

/-- The arrays of the pass have room for the subjects, or are grown. -/
def scratchReady (heap : Heap TieredSite) (subjects : List ViewSubject) : Bool :=
  (tieredScratchEnsure st heap subjects.length).1

/-- The frame buffer has room for the records, or is grown after the arrays. -/
def frameReady (heap : Heap TieredSite) (subjects : List ViewSubject) (nowMs : UInt64) : Bool :=
  let (_, st', heap) := tieredScratchEnsure st heap subjects.length
  (tieredFrameEnsure st' heap (batchNeed st subjects nowMs)).1

def idleCount (subjects : List ViewSubject) (nowMs : UInt64) : Nat :=
  subjects.length - (dueSubjects st nowMs true subjects).length

/-- The ways in which a batch pass ends, with its counters and the frames sent. -/
inductive BatchPass (g : DeliveryGateway) (st : TieredState) (heap : Heap TieredSite)
    (subjects : List ViewSubject) (nowMs : UInt64) (sent : List ReplicationFrame) :
    DeliveryStats → List ReplicationFrame → Prop
  | unscratched (refused : scratchReady st heap subjects = false) :
      BatchPass g st heap subjects nowMs sent ⟨0, 1, 0, 0⟩ sent
  | oversized (ready : scratchReady st heap subjects = true)
      (large : 2 ^ 32 ≤ batchNeed st subjects nowMs) :
      BatchPass g st heap subjects nowMs sent
        (.suppressing ⟨0, 1, 0, 0⟩ (idleCount st subjects nowMs)) sent
  | unframed (ready : scratchReady st heap subjects = true)
      (small : batchNeed st subjects nowMs < 2 ^ 32)
      (refused : frameReady st heap subjects nowMs = false) :
      BatchPass g st heap subjects nowMs sent
        (.suppressing ⟨0, if batchRecords st subjects nowMs = [] then 1 else 2, 0, 0⟩
          (idleCount st subjects nowMs)) sent
  | refused (ready : scratchReady st heap subjects = true)
      (small : batchNeed st subjects nowMs < 2 ^ 32)
      (framed : frameReady st heap subjects nowMs = true) :
      BatchPass g st heap subjects nowMs sent
        (.suppressing ⟨0, 1, 0, 0⟩ (idleCount st subjects nowMs)) sent
  | taken (events : UInt32) (ready : scratchReady st heap subjects = true)
      (small : batchNeed st subjects nowMs < 2 ^ 32)
      (framed : frameReady st heap subjects nowMs = true) :
      BatchPass g st heap subjects nowMs sent
        (.suppressing ⟨1, 0, events, 0⟩ (idleCount st subjects nowMs))
        (sent ++ [⟨g.replicationBatchTypeId,
          batchPayload ((batchRecords st subjects nowMs).map Record.bytes)⟩])

variable {stats : DeliveryStats}

theorem BatchPass.sent_cases {g : DeliveryGateway} {st : TieredState} {heap : Heap TieredSite}
    {subjects : List ViewSubject} {nowMs : UInt64} {sent sent' : List ReplicationFrame}
    (pass : BatchPass g st heap subjects nowMs sent stats sent') :
    sent' = sent ∨ sent' = sent ++ [⟨g.replicationBatchTypeId,
      batchPayload ((batchRecords st subjects nowMs).map Record.bytes)⟩] := by
  cases pass with
  | unscratched | oversized | unframed | refused => exact .inl rfl
  | taken => exact .inr rfl

variable {st : TieredState} {heap : Heap TieredSite} {subjects : List ViewSubject} {nowMs : UInt64}

theorem tieredFrameEnsure_congr {st' : TieredState} (need : Nat)
    (same : st'.frameCap = st.frameCap) :
    (tieredFrameEnsure st' heap need).1 = (tieredFrameEnsure st heap need).1 := by
  rw [tieredFrameEnsure, tieredFrameEnsure, same]
  split
  · rfl
  · split <;> rfl

theorem tieredFrameEnsure_settings (st : TieredState) (heap : Heap TieredSite) (need : Nat) :
    ∃ cap, (tieredFrameEnsure st heap need).2.1 = { st with frameCap := cap } := by
  rw [tieredFrameEnsure]
  split
  · exact ⟨st.frameCap, rfl⟩
  split
  · exact ⟨st.frameCap, rfl⟩
  · exact ⟨_, rfl⟩

theorem tieredScratchEnsure_settings (st : TieredState) (heap : Heap TieredSite) (count : Nat) :
    ∃ cap, (tieredScratchEnsure st heap count).2.1 = { st with scratchCap := cap } := by
  rw [tieredScratchEnsure]
  split
  · exact ⟨st.scratchCap, rfl⟩
  split
  · exact ⟨st.scratchCap, rfl⟩
  split
  · exact ⟨st.scratchCap, rfl⟩
  split
  · exact ⟨st.scratchCap, rfl⟩
  · exact ⟨_, rfl⟩

theorem dueSubjects_scratch (st : TieredState) (cap : Nat) (nowMs : UInt64) (first : Bool)
    (subjects : List ViewSubject) :
    dueSubjects { st with scratchCap := cap } nowMs first subjects =
      dueSubjects st nowMs first subjects := by
  induction subjects generalizing first with
  | nil => rfl
  | cons s subjects ih =>
    rw [dueSubjects, ih, dueSubjects]
    rfl

structure LedgerKept (st : TieredState) : Prop where
  sorted : Sorted TieredEntry.key st.entries
  counted : st.Counted

/-- A pass that has its arrays decides by the ledger it was given. -/
structure Drafting (st : TieredState) (heap : Heap TieredSite) (subjects : List ViewSubject)
    (nowMs : UInt64) (sent : List ReplicationFrame) (decisions : List Decision) (st' : TieredState)
    (log : PassLog) : Prop where
  moves : ∀ g, ReflTransGen (Move g subjects) ⟨st.entries, received g sent, []⟩
    ⟨st'.entries, received g sent, log.silenced⟩
  kept : LedgerKept st'
  included : includedSubjects subjects decisions = dueSubjects st nowMs true subjects
  stats : log.stats = .suppressing ⟨0, 0, 0, 0⟩ (idleCount st subjects nowMs)
  events : pendingViewEvents st'.entries = pendingViewEvents st.entries
  room : st'.frameCap = (tieredScratchEnsure st heap subjects.length).2.1.frameCap

theorem tieredDecide_drafting (kept : LedgerKept st) (sent : List ReplicationFrame)
    (heap : Heap TieredSite) (subjects : List ViewSubject) (nowMs : UInt64) :
    ∃ decisions st' log,
      tieredDecide nowMs sent true subjects (tieredScratchEnsure st heap subjects.length).2.1
        ⟨⟨0, 0, 0, 0⟩, []⟩ = (decisions, st', log) ∧
      Drafting st heap subjects nowMs sent decisions st' log := by
  obtain ⟨cap, scratch⟩ := tieredScratchEnsure_settings st heap subjects.length
  rw [scratch]
  obtain ⟨decisions, st', log, decided, spec⟩ := tieredDecide_decided nowMs sent true subjects
    { st with scratchCap := cap } kept.sorted ⟨⟨0, 0, 0, 0⟩, []⟩
  obtain ⟨entries, settings⟩ := spec.settings
  refine ⟨decisions, st', log, decided, fun g => spec.moves g subjects,
    ⟨moves_ordered (spec.moves ⟨0, 0, 0⟩ subjects) kept.sorted, ?_⟩, ?_, ?_, spec.events, ?_⟩
  · rw [TieredState.Counted, spec.events, settings]
    exact kept.counted
  · rw [spec.included, dueSubjects_scratch]
  · rw [spec.stats, dueSubjects_scratch, idleCount]
  · rw [settings, scratch]

variable {sent : List ReplicationFrame} {decisions : List Decision} {st' : TieredState}
    {log : PassLog}

section

variable (drafting : Drafting st heap subjects nowMs sent decisions st' log)
include drafting

theorem Drafting.total :
    st'.pendingEvents + (includedSubjects subjects decisions).length =
      (batchRecords st subjects nowMs).length := by
  rw [drafting.kept.counted, drafting.included, drafting.events, batchRecords, length_append,
    length_map, length_map]

theorem Drafting.frameReady :
    (tieredFrameEnsure st' (tieredScratchEnsure st heap subjects.length).2.2
      (batchNeed st subjects nowMs)).1 = frameReady st heap subjects nowMs := by
  rw [tieredFrameEnsure_congr _ drafting.room]
  rfl

theorem Drafting.assembled (cap : Nat) :
    tieredAssemble { st' with frameCap := cap } subjects decisions
        (batchRecords st subjects nowMs).length =
      batchPayload ((batchRecords st subjects nowMs).map Record.bytes) := by
  rw [← drafting.total]
  refine (tieredAssemble_eq drafting.kept.counted subjects decisions).trans ?_
  rw [drafting.events, drafting.included, batchRecords]

end

theorem drop_suppressing {n : Nat} (log : PassLog) (same : log.stats = stats.suppressing n) :
    log.drop.stats =
      ({ stats with dropped := stats.dropped + 1 } : DeliveryStats).suppressing n := by
  rw [PassLog.drop, same]
  rfl

/-- A batch pass ends in one of the ways, keeps the ledger and, while a frame can count its
records, moves the ledger and the client together. -/
theorem tieredDeliverBatch_pass (g : DeliveryGateway) (kept : LedgerKept st) (wire : Wire)
    (heap : Heap TieredSite) (subjects : List ViewSubject) (nowMs : UInt64) :
    ∃ log st' wire' heap',
      tieredDeliverBatch g st wire heap subjects nowMs = (log, st', wire', heap') ∧
      BatchPass g st heap subjects nowMs wire.sent log.stats wire'.sent ∧ LedgerKept st' ∧
      ((batchRecords st subjects nowMs).length ≤ 65535 →
        ReflTransGen (Move g subjects) ⟨st.entries, received g wire.sent, []⟩
          ⟨st'.entries, received g wire'.sent, log.silenced⟩) := by
  obtain ⟨decisions, st₂, log, decided, drafting⟩ :=
    tieredDecide_drafting kept wire.sent heap subjects nowMs
  obtain ⟨cap, settings⟩ := tieredScratchEnsure_settings st heap subjects.length
  have total := drafting.total
  have framed := drafting.frameReady
  unfold tieredDeliverBatch
  rcases scratch : tieredScratchEnsure st heap subjects.length with ⟨ready, st₁, heap₁⟩
  rw [scratch] at decided settings framed
  dsimp only at decided settings framed
  cases ready with
  | false =>
    refine ⟨_, st₁, wire, heap₁, rfl, .unscratched (by rw [scratchReady, scratch]), ?_⟩
    rw [settings]
    exact ⟨⟨kept.sorted, kept.counted⟩, fun _ => .refl⟩
  | true =>
    have ready : scratchReady st heap subjects = true := by rw [scratchReady, scratch]
    simp only [decided, total]
    split
    · rename_i large
      refine ⟨_, st₂, wire, heap₁, rfl, ?_, drafting.kept, fun _ => drafting.moves g⟩
      rw [drop_suppressing log drafting.stats]
      exact .oversized ready large
    · rename_i small
      have small : batchNeed st subjects nowMs < 2 ^ 32 := Nat.lt_of_not_le small
      obtain ⟨cap, frame⟩ := tieredFrameEnsure_settings st₂ heap₁ (batchNeed st subjects nowMs)
      have still : LedgerKept { st₂ with frameCap := cap } :=
        ⟨drafting.kept.sorted, drafting.kept.counted⟩
      rcases room :
        tieredFrameEnsure st₂ heap₁ (4 + (batchRecords st subjects nowMs).length * 68) with
        ⟨granted, st₃, heap₃⟩
      rw [batchNeed, room] at framed frame
      obtain rfl : st₃ = _ := frame
      cases granted with
      | false =>
        have stats : (if (batchRecords st subjects nowMs).length = 0 then log.drop
            else log.drop.drop).stats = .suppressing
              ⟨0, if batchRecords st subjects nowMs = [] then 1 else 2, 0, 0⟩
              (idleCount st subjects nowMs) := by
          have once := drop_suppressing log drafting.stats
          by_cases none : batchRecords st subjects nowMs = []
          · rw [if_pos (length_eq_zero_iff.mpr none), if_pos none, once]
            rfl
          · rw [if_neg (fun zero => none (length_eq_zero_iff.mp zero)), if_neg none,
              drop_suppressing log.drop once]
            rfl
        refine ⟨_, _, wire, heap₃, rfl, ?_, still, fun _ => ?_⟩
        · rw [stats]
          exact .unframed ready small framed.symm
        · split <;> exact drafting.moves g
      | true =>
        dsimp only
        rw [drafting.assembled]
        obtain ⟨wire', taken, sent⟩ | ⟨wire', lost, sent⟩ := gatewayDeliveryEnqueue_cases wire
          g.replicationBatchTypeId
            (batchPayload ((batchRecords st subjects nowMs).map Record.bytes))
        · rw [taken]
          have own : ∀ s ∈ subjects, s ∈ subjects := fun _ member => member
          obtain ⟨moves, counted⟩ := batch_taken_moves (g := g) own _ still.sorted still.counted
            decisions heap₃ nowMs (received g wire.sent) log.silenced
          refine ⟨_, _, wire', _, rfl, ?_, ⟨moves_ordered moves still.sorted, counted⟩, ?_⟩
          · have stats : (log.enqueue (.ofNat st₂.pendingEvents)).stats = .suppressing
                ⟨1, 0, .ofNat st₂.pendingEvents, 0⟩ (idleCount st subjects nowMs) := by
              rw [PassLog.enqueue, drafting.stats]
              simp [DeliveryStats.suppressing]
            rw [stats, sent]
            exact .taken _ ready small framed.symm
          · intro few
            rw [drafting.included, append_assoc] at moves
            rw [drafting.events] at moves
            rw [sent, received_append, received_batch, take_of_length_le few]
            exact (drafting.moves g).trans moves
        · rw [lost]
          refine ⟨_, _, wire', heap₃, rfl, ?_, still, fun _ => ?_⟩
          · rw [drop_suppressing log drafting.stats, sent]
            exact .refused ready small framed.symm
          · rw [sent]
            exact drafting.moves g

theorem BatchPass.told {g : DeliveryGateway} {sent' : List ReplicationFrame}
    (pass : BatchPass g st heap subjects nowMs sent stats sent')
    (few : (batchRecords st subjects nowMs).length ≤ 65535) (zero : stats.dropped = 0) :
    ∃ later, received g sent' =
      received g sent ++ (pendingViewEvents st.entries).map ViewEvent.record ++ later := by
  cases pass with
  | taken =>
    rw [received_append, received_batch, take_of_length_le few, batchRecords, ← append_assoc]
    exact ⟨_, rfl⟩
  | unscratched | oversized | refused => exact absurd zero (by decide : (1 : UInt32) ≠ 0)
  | unframed =>
    have one_or_two : (if batchRecords st subjects nowMs = [] then 1 else 2 : UInt32) = 0 := zero
    split at one_or_two <;> cases one_or_two

end Outcome

section Pass

variable {g : DeliveryGateway}

/-- What a session must keep for its next pass: a sorted ledger and, with batch frames, the
right number of pending events. -/
structure Sound (g : DeliveryGateway) (s : TieredSession) : Prop where
  sorted : Sorted TieredEntry.key s.st.entries
  counted : g.replicationBatchTypeId ≠ 0 → s.st.Counted

/-- The frame of a pass counts all its records. -/
def Countable (g : DeliveryGateway) (s : TieredSession) (pass : TieredPass) : Prop :=
  g.replicationBatchTypeId ≠ 0 →
    (pendingViewEvents s.st.entries).length + (departures pass.delta).length +
      pass.subjects.length ≤ 65535

instance : DecidableRel (Countable g) := fun _ _ => inferInstanceAs (Decidable (_ → _))

/-- A pass: the delta is absorbed, then the ledger and the client move together. -/
structure Delivers (g : DeliveryGateway) (s : TieredSession) (pass : TieredPass)
    (absorbed : List TieredEntry) (stats : DeliveryStats) (s' : TieredSession) : Prop where
  absorbs : Absorbs s.heap.grant pass.delta s.st.entries absorbed
  moves : ∃ silenced, s'.silenced = s.silenced ++ silenced ∧
    ReflTransGen (Move g pass.subjects) ⟨absorbed, received g s.wire.sent, []⟩
      ⟨s'.st.entries, received g s'.wire.sent, silenced⟩
  counted : g.replicationBatchTypeId ≠ 0 → s'.st.Counted
  viewed : s'.view = pass.subjects
  formerly : s'.formerSelves = s.formerSelves ++ (s.view.head?.map ViewSubject.actorId).toList
  told : stats.dropped = 0 → ∃ later, received g s'.wire.sent =
    received g s.wire.sent ++ (pendingViewEvents absorbed).map ViewEvent.record ++ later

theorem tieredDeliver_disabled (disabled : ¬Enabled g) (s : TieredSession) (pass : TieredPass) :
    tieredDeliver g s pass = ((.err .estate, ⟨0, 0, 0, 0⟩), s) := by
  unfold Enabled at disabled
  unfold tieredDeliver
  rw [if_pos]
  tauto

variable {pass : TieredPass}

theorem tieredDeliver_delivers {s : TieredSession} (enabled : Enabled g) (sound : Sound g s)
    (countable : Countable g s pass) :
    ∃ stats s' absorbed, tieredDeliver g s pass = ((.ok, stats), s') ∧
      Delivers g s pass absorbed stats s' := by
  obtain ⟨st, heap, absorbed, absorbs, counted⟩ :=
    tieredAbsorbDelta_absorbs pass.delta { s.st with pass := s.st.pass + 1 } sound.sorted s.heap
  have sorted := absorbs.sorted sound.sorted
  have viewed : ∀ v ∈ pass.subjects, v ∈ pass.subjects := fun _ member => member
  have used : ¬(g.replicationBatchTypeId = 0 ∧ g.replicationTypeId = 0) := by
    unfold Enabled at enabled
    tauto
  unfold tieredDeliver
  rw [if_neg used]
  dsimp only at absorbed ⊢
  rw [absorbed]
  dsimp only
  by_cases batch : g.replicationBatchTypeId ≠ 0
  · have few : (batchRecords st pass.subjects pass.nowMs).length ≤ 65535 := by
      have grown := absorbs.length_pending_le
      have due := length_dueSubjects_le st pass.nowMs true pass.subjects
      have countable := countable batch
      rw [batchRecords, length_append, length_map, length_map]
      dsimp only at grown
      omega
    obtain ⟨log, st', wire', heap', delivered, outcome, kept, moves⟩ := tieredDeliverBatch_pass g
      ⟨sorted, counted (sound.counted batch)⟩ s.wire heap pass.subjects pass.nowMs
    rw [if_pos batch, delivered]
    exact ⟨_, _, st.entries, rfl, absorbs, ⟨_, rfl, moves few⟩, fun _ => kept.counted, rfl, rfl,
      outcome.told few⟩
  · have single : g.replicationBatchTypeId = 0 := not_not.mp batch
    obtain ⟨log, st', wire', heap', delivered, moves, told⟩ :=
      tieredDeliverSingle_moves single (fun zero => used ⟨single, zero⟩) viewed sorted s.wire heap
        pass.nowMs
    rw [if_neg batch, delivered]
    exact ⟨_, _, st.entries, rfl, absorbs, ⟨_, rfl, moves⟩, fun no => absurd no batch, rfl, rfl,
      told⟩

theorem Delivers.sound {s s' : TieredSession} {absorbed : List TieredEntry} {stats : DeliveryStats}
    (delivers : Delivers g s pass absorbed stats s') (sound : Sound g s) : Sound g s' := by
  obtain ⟨silenced, _, moves⟩ := delivers.moves
  exact ⟨moves_ordered moves (delivers.absorbs.sorted sound.sorted), delivers.counted⟩

end Pass

end Kith.Gateway
