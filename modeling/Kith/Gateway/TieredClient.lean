import Mathlib.Logic.Relation
import Kith.Gateway.Tiered

/-!
# The tiered ledger and the client

Every pass moves the ledger and the client together by a few kinds of moves: an
entry is stamped, a subject is suppressed, the pending events of a first part of
the ledger reach the client, a record reaches the client and its entry, entries
without a pending event are forgotten. What holds of all moves holds of every
pass in either framing.
-/

namespace Kith.Gateway

open Runs SortedArray Relation List

/-- The ledger, what the client has read and what was suppressed, within a pass. -/
structure Moment where
  entries : List TieredEntry
  records : List Record
  silenced : List Silence

inductive Move (g : DeliveryGateway) (view : List ViewSubject) : Moment → Moment → Prop
  | stamp {entries entries' : List TieredEntry} {records : List Record} {silenced : List Silence}
      {id pass : UInt64}
        (written : Written id (fun e => { e with seenPass := pass }) entries entries') :
      Move g view ⟨entries, records, silenced⟩ ⟨entries', records, silenced⟩
  | silence {entries : List TieredEntry} {records : List Record} {silenced : List Silence}
      (q : Silence) (listed : q.entry ∈ entries) (named : q.entry.actorId = q.subject.actorId)
      (recorded : q.entry.hasRecord = true) (seen : received g q.sent = records) :
      Move g view ⟨entries, records, silenced⟩ ⟨entries, records, silenced ++ [q]⟩
  | events {records : List Record} {silenced : List Silence} (done rest : List TieredEntry)
      (nowMs : UInt64) :
      Move g view ⟨done ++ rest, records, silenced⟩
        ⟨done.map (TieredEntry.confirm nowMs) ++ rest,
          records ++ (pendingViewEvents done).map ViewEvent.record, silenced⟩
  | commit {entries entries' : List TieredEntry} {records : List Record} {silenced : List Silence}
      {pass nowMs : UInt64} (s : ViewSubject) (viewed : s ∈ view)
      (written : Written s.actorId (TieredEntry.commit pass nowMs s) entries entries') :
      Move g view ⟨entries, records, silenced⟩ ⟨entries', records ++ [s.record], silenced⟩
  | unledgered {entries : List TieredEntry} {records : List Record} {silenced : List Silence}
      (s : ViewSubject) (viewed : s ∈ view) (absent : Absent s.actorId entries) :
      Move g view ⟨entries, records, silenced⟩ ⟨entries, records ++ [s.record], silenced⟩
  | sweep {entries : List TieredEntry} {records : List Record} {silenced : List Silence}
      (p : TieredEntry → Bool) (spared : ∀ e, e.pendingKind.isSome = true → p e = true) :
      Move g view ⟨entries, records, silenced⟩ ⟨entries.filter p, records, silenced⟩

variable {g : DeliveryGateway} {view : List ViewSubject}

def Moment.Ordered (m : Moment) : Prop := Sorted TieredEntry.key m.entries

theorem sorted_confirm {done rest : List TieredEntry} (nowMs : UInt64)
    (sorted : Sorted TieredEntry.key (done ++ rest)) :
    Sorted TieredEntry.key (done.map (TieredEntry.confirm nowMs) ++ rest) := by
  have same : ∀ e, (TieredEntry.confirm nowMs e).key = e.key := by
    intro e
    unfold TieredEntry.confirm
    split <;> rfl
  obtain ⟨left, right, cross⟩ := pairwise_append.mp sorted
  refine pairwise_append.mpr ⟨?_, right, ?_⟩
  · exact left.map _ fun a b lt => by rwa [same, same]
  · intro a member b later
    obtain ⟨e, here, rfl⟩ := mem_map.mp member
    rw [same]
    exact cross e here b later

variable {m m' : Moment}

theorem Move.ordered (move : Move g view m m') (ordered : m.Ordered) : m'.Ordered := by
  cases move with
  | stamp written | commit _ _ written => exact written.sorted fun e => rfl
  | silence | unledgered => exact ordered
  | events done rest nowMs => exact sorted_confirm nowMs ordered
  | sweep p => exact ordered.filter p

theorem moves_ordered (moves : ReflTransGen (Move g view) m m') (ordered : m.Ordered) :
    m'.Ordered := by
  induction moves with
  | refl => exact ordered
  | tail _ move ih => exact move.ordered ih

theorem Move.records (move : Move g view m m') : ∃ later, m'.records = m.records ++ later := by
  cases move with
  | stamp | silence | sweep => exact ⟨[], (append_nil _).symm⟩
  | events | commit | unledgered => exact ⟨_, rfl⟩

theorem moves_records (moves : ReflTransGen (Move g view) m m') :
    ∃ later, m'.records = m.records ++ later := by
  induction moves with
  | refl => exact ⟨[], (append_nil _).symm⟩
  | tail _ move ih =>
    obtain ⟨later, so_far⟩ := ih
    obtain ⟨last, read⟩ := move.records
    exact ⟨later ++ last, by rw [read, so_far, append_assoc]⟩

section Moves

variable {st : TieredState} {s : ViewSubject} {nowMs : UInt64}

theorem stamp_moves (sorted : Sorted TieredEntry.key st.entries) (id : UInt64)
    (records : List Record) (silenced : List Silence) :
    ReflTransGen (Move g view) ⟨st.entries, records, silenced⟩
      ⟨(st.stamp id).entries, records, silenced⟩ := by
  obtain ⟨entries, stamped, same | written⟩ := stamp_cases sorted id
  · rw [stamped, same]
  · rw [stamped]
    exact .single (.stamp written)

theorem entry_of_not_due {entry : Option TieredEntry} (idle : tieredDue st s entry nowMs = false) :
    ∃ e, entry = some e ∧ e.hasRecord = true := by
  cases entry with
  | none => cases idle
  | some e =>
    refine ⟨e, rfl, ?_⟩
    by_contra unrecorded
    simp [tieredDue, Bool.not_eq_true _ ▸ unrecorded] at idle

theorem silence_moves {due : TieredState} (sorted : Sorted TieredEntry.key st.entries)
    {sent : List ReplicationFrame} {log : PassLog}
    (idle : tieredDue due s (tieredEntryGet st s.actorId) nowMs = false) :
    ReflTransGen (Move g view) ⟨st.entries, received g sent, log.silenced⟩
      ⟨(st.stamp s.actorId).entries, received g sent,
        (log.suppress s (tieredEntryGet st s.actorId) sent).silenced⟩ := by
  obtain ⟨e, found, recorded⟩ := entry_of_not_due idle
  obtain ⟨listed, named⟩ := tieredEntryGet_mem sorted found
  rw [found]
  refine .head (.silence ⟨s, e, sent⟩ listed named recorded rfl) ?_
  exact stamp_moves sorted s.actorId _ _

theorem RecordStep.move {st' : TieredState} (step : RecordStep s nowMs st st') (viewed : s ∈ view)
    (records : List Record) (silenced : List Silence) :
    Move g view ⟨st.entries, records, silenced⟩ ⟨st'.entries, records ++ [s.record], silenced⟩ := by
  rcases step.entries with written | ⟨same, absent⟩
  · exact .commit s viewed written
  · rw [same]
    exact .unledgered s viewed absent

end Moves

section Single

variable (single : g.replicationBatchTypeId = 0) (used : g.replicationTypeId ≠ 0) {st : TieredState}
    {subjects : List ViewSubject}

include single used

variable (nowMs : UInt64)

theorem tieredSendEvents_done (entries : List TieredEntry) (log : PassLog) (wire : Wire) :
    ∃ clean done rest log' wire', entries = done ++ rest ∧
      tieredSendEvents g nowMs entries log wire =
        (clean, done.map (TieredEntry.confirm nowMs) ++ rest, log', wire') ∧
      received g wire'.sent =
        received g wire.sent ++ (pendingViewEvents done).map ViewEvent.record ∧
      log'.silenced = log.silenced ∧ (clean = true → rest = []) ∧
      (clean = false → log'.stats.dropped = log.stats.dropped + 1) := by
  induction entries generalizing log wire with
  | nil =>
    refine ⟨true, [], [], log, wire, rfl, rfl, ?_, rfl, fun _ => rfl,
      fun unclean => absurd unclean ?_⟩
    · simp [pendingViewEvents]
    · decide
  | cons e entries ih =>
    unfold tieredSendEvents
    cases pending : e.pendingKind with
    | none =>
      obtain ⟨clean, done, rest, log', wire', rfl, sent, told, later⟩ := ih log wire
      have same : e.confirm nowMs = e := by simp [TieredEntry.confirm, pending]
      refine ⟨clean, e :: done, rest, log', wire', rfl, ?_, ?_, later⟩
      · simp [sent, same]
      · simp [told, pendingViewEvents, pending]
    | some kind =>
      obtain ⟨wire₁, taken, sent⟩ | ⟨wire₁, refused, sent⟩ := gatewayDeliveryEnqueue_cases wire
        g.replicationTypeId (gatewayDeliverySerializeEvent ⟨e.actorId, kind⟩)
      · obtain ⟨clean, done, rest, log', wire', rfl, later, told, facts⟩ := ih (log.enqueue 1) wire₁
        refine ⟨clean, e :: done, rest, log', wire', rfl, ?_, ?_, facts⟩
        · simp [taken, later]
        · rw [told, sent, received_append, gatewayDeliverySerializeEvent,
            received_single single used]
          simp [pendingViewEvents, pending]
      · refine ⟨false, [], e :: entries, log.drop, wire₁, rfl, ?_, ?_, rfl,
          fun clean => absurd clean ?_, fun _ => rfl⟩
        · simp [refused]
        · simp [sent, pendingViewEvents]
        · decide

theorem tieredSendSubject_moves (isSelf : Bool) {s : ViewSubject}
    (viewed : s ∈ view) (sorted : Sorted TieredEntry.key st.entries) (log : PassLog) (wire : Wire)
    (heap : Heap TieredSite) :
    ∃ go st' log' wire' heap',
      tieredSendSubject g nowMs isSelf s st log wire heap = (go, st', log', wire', heap') ∧
      ReflTransGen (Move g view) ⟨st.entries, received g wire.sent, log.silenced⟩
        ⟨st'.entries, received g wire'.sent, log'.silenced⟩ := by
  have stamped : ReflTransGen (Move g view) ⟨st.entries, received g wire.sent, log.silenced⟩
      ⟨(st.stamp s.actorId).entries, received g wire.sent, log.silenced⟩ :=
    stamp_moves sorted s.actorId _ _
  unfold tieredSendSubject
  dsimp only
  split
  · next idle => exact ⟨_, _, _, _, _, rfl, silence_moves sorted idle.2⟩
  · obtain ⟨wire', taken, sent⟩ | ⟨wire', refused, sent⟩ := gatewayDeliveryEnqueue_cases wire
      g.replicationTypeId (gatewayDeliverySerialize s)
    · rw [taken]
      refine ⟨_, _, _, _, _, rfl, stamped.tail ?_⟩
      have received : received g wire'.sent = received g wire.sent ++ [s.record] := by
        rw [sent, received_append, gatewayDeliverySerialize, received_single single used]
      rw [received]
      exact (tieredRecordSent_step (moves_ordered stamped sorted) heap s nowMs).move viewed _ _
    · rw [refused]
      refine ⟨_, _, _, _, _, rfl, ?_⟩
      rw [sent]
      exact stamped

theorem tieredSendSubjects_moves (first : Bool) (viewed : ∀ s ∈ subjects, s ∈ view)
    (st : TieredState) (sorted : Sorted TieredEntry.key st.entries) (log : PassLog) (wire : Wire)
    (heap : Heap TieredSite) :
    ∃ st' log' wire' heap',
      tieredSendSubjects g nowMs first subjects st log wire heap = (st', log', wire', heap') ∧
      ReflTransGen (Move g view) ⟨st.entries, received g wire.sent, log.silenced⟩
        ⟨st'.entries, received g wire'.sent, log'.silenced⟩ := by
  induction subjects generalizing first st log wire heap with
  | nil => exact ⟨st, log, wire, heap, rfl, .refl⟩
  | cons s subjects ih =>
    obtain ⟨here, later⟩ := forall_mem_cons.mp viewed
    obtain ⟨go, st₁, log₁, wire₁, heap₁, sent, moves⟩ :=
      tieredSendSubject_moves single used nowMs (first || s.subjectClass = .self) here sorted log
        wire heap
    unfold tieredSendSubjects
    dsimp only
    rw [sent]
    cases go with
    | false => exact ⟨_, _, _, _, rfl, moves⟩
    | true =>
      obtain ⟨st', log', wire', heap', rest, onward⟩ :=
        ih false later st₁ (moves_ordered moves sorted) log₁ wire₁ heap₁
      exact ⟨st', log', wire', heap', rest, moves.trans onward⟩

/-- What a pass of single frames does: it moves the ledger and the client and, if nothing
was dropped, the client was told every pending event. -/
theorem tieredDeliverSingle_moves (viewed : ∀ s ∈ subjects, s ∈ view)
    (sorted : Sorted TieredEntry.key st.entries) (wire : Wire) (heap : Heap TieredSite)
    (nowMs : UInt64) :
    ∃ log st' wire' heap',
      tieredDeliverSingle g st wire heap subjects nowMs = (log, st', wire', heap') ∧
      ReflTransGen (Move g view) ⟨st.entries, received g wire.sent, []⟩
        ⟨st'.entries, received g wire'.sent, log.silenced⟩ ∧
      (log.stats.dropped = 0 → ∃ later, received g wire'.sent =
        received g wire.sent ++ (pendingViewEvents st.entries).map ViewEvent.record ++ later) := by
  obtain ⟨clean, done, rest, log, wire₁, split, sent, told, silent, all, dropped⟩ :=
    tieredSendEvents_done single used nowMs st.entries ⟨⟨0, 0, 0, 0⟩, []⟩ wire
  have events : Move g view ⟨st.entries, received g wire.sent, []⟩
      ⟨done.map (TieredEntry.confirm nowMs) ++ rest, received g wire₁.sent, log.silenced⟩ := by
    rw [split, told, silent]
    exact .events done rest nowMs
  unfold tieredDeliverSingle
  rw [sent]
  cases clean with
  | false =>
    refine ⟨_, _, _, _, rfl, .single events, ?_⟩
    intro zero
    rw [dropped rfl] at zero
    cases zero
  | true =>
    obtain ⟨st', log', wire', heap', subjects, moves⟩ := tieredSendSubjects_moves single used
      nowMs true viewed { st with entries := done.map (TieredEntry.confirm nowMs) ++ rest }
      (events.ordered sorted) log wire₁ heap
    simp only [if_true, subjects]
    refine ⟨_, _, _, _, rfl, (moves.head events).tail (.sweep _ fun e pending => by simp [pending]),
      ?_⟩
    intro _
    obtain ⟨later, extended⟩ := moves_records moves
    dsimp only at extended
    refine ⟨later, ?_⟩
    rw [extended, told, split, all rfl, append_nil]

end Single

section Batch

variable {st : TieredState} {subjects : List ViewSubject}

theorem tieredCommitSubjects_moves (nowMs : UInt64) (pairs : List (ViewSubject × Decision))
    (viewed : ∀ e ∈ pairs, e.1 ∈ view) (st : TieredState)
    (sorted : Sorted TieredEntry.key st.entries) (heap : Heap TieredSite) (records : List Record)
    (silenced : List Silence) :
    ∃ st' heap', tieredCommitSubjects nowMs pairs st heap = (st', heap') ∧
      ReflTransGen (Move g view) ⟨st.entries, records, silenced⟩
        ⟨st'.entries, records ++
          ((pairs.filter fun e => e.2 ≠ .suppressed).map Prod.fst).map ViewSubject.record,
            silenced⟩ ∧
      pendingViewEvents st'.entries = pendingViewEvents st.entries ∧
      st'.pendingEvents = st.pendingEvents := by
  induction pairs generalizing st heap records with
  | nil =>
    refine ⟨st, heap, rfl, ?_, rfl, rfl⟩
    simp only [filter_nil, map_nil, append_nil]
    exact .refl
  | cons pair pairs ih =>
    obtain ⟨s, decision⟩ := pair
    obtain ⟨here, later⟩ := forall_mem_cons.mp viewed
    unfold tieredCommitSubjects
    by_cases suppressed : decision = .suppressed
    · simp only [suppressed, if_true, ne_eq, not_true_eq_false, decide_false, Bool.false_eq_true,
        not_false_eq_true, filter_cons_of_neg]
      exact ih later st sorted heap records
    · have step := tieredCommitSubject_step sorted heap s decision nowMs
      have move :
          Move g view ⟨st.entries, records, silenced⟩ ⟨_, records ++ [s.record], silenced⟩ :=
        step.move here records silenced
      obtain ⟨st', heap', committed, moves, events, counter⟩ :=
        ih later _ (move.ordered sorted) (tieredCommitSubject st heap s decision nowMs).2
          (records ++ [s.record])
      refine ⟨st', heap', ?_, ?_, events.trans step.pendingViewEvents_eq,
        counter.trans step.pendingEvents⟩
      · rw [if_neg suppressed]
        exact committed
      · simp only [suppressed, ne_eq, not_false_eq_true, decide_true, filter_cons_of_pos, map_cons]
        rw [← singleton_append, ← append_assoc]
        exact moves.head move

theorem tieredCommitEvents_entries (counted : st.Counted) (nowMs : UInt64) :
    (tieredCommitEvents st nowMs).entries = st.entries.map (TieredEntry.confirm nowMs) ∧
      (tieredCommitEvents st nowMs).pendingEvents = 0 := by
  unfold tieredCommitEvents
  split
  · refine ⟨rfl, ?_⟩
    rw [counted, length_pendingViewEvents, Nat.sub_self]
  · next none =>
    have zero : st.pendingEvents = 0 := Nat.eq_zero_of_not_pos none
    refine ⟨?_, zero⟩
    rw [TieredState.Counted, zero, length_pendingViewEvents, eq_comm, countP_eq_zero] at counted
    have same : ∀ e ∈ st.entries, e = e.confirm nowMs := by
      intro e member
      simp [TieredEntry.confirm, counted e member]
    exact (map_id _).symm.trans (map_congr_left same)

theorem pendingViewEvents_confirm (nowMs : UInt64) (entries : List TieredEntry) :
    pendingViewEvents (entries.map (TieredEntry.confirm nowMs)) = [] := by
  rw [pendingViewEvents, filterMap_map, filterMap_eq_nil_iff]
  intro e _
  cases pending : e.pendingKind <;> simp [TieredEntry.confirm, pending]

theorem pendingViewEvents_sweep (st : TieredState) :
    pendingViewEvents (tieredSweep st).entries = pendingViewEvents st.entries := by
  unfold pendingViewEvents tieredSweep
  rw [filterMap_filter]
  refine filterMap_congr fun e _ => ?_
  cases pending : e.pendingKind <;> simp

theorem tieredAssemble_eq (counted : st.Counted) (subjects : List ViewSubject)
    (decisions : List Decision) :
    tieredAssemble st subjects decisions
        (st.pendingEvents + (includedSubjects subjects decisions).length) =
      batchPayload (((pendingViewEvents st.entries).map ViewEvent.record ++
        (includedSubjects subjects decisions).map ViewSubject.record).map Record.bytes) := by
  have events : (if 0 < st.pendingEvents then
      (pendingViewEvents st.entries).map gatewayDeliverySerializeEvent else []) =
      (pendingViewEvents st.entries).map gatewayDeliverySerializeEvent := by
    split
    · rfl
    · next none =>
      have empty : (pendingViewEvents st.entries).length = 0 :=
        counted ▸ Nat.eq_zero_of_not_pos none
      rw [eq_nil_of_length_eq_zero empty]
      rfl
  have total : st.pendingEvents + (includedSubjects subjects decisions).length =
      (((pendingViewEvents st.entries).map ViewEvent.record ++
        (includedSubjects subjects decisions).map ViewSubject.record).map Record.bytes).length := by
    simp only [length_map, length_append]
    rw [counted]
  unfold tieredAssemble batchPayload
  rw [events, total, List.map_append, List.map_map, List.map_map]
  rfl

/-- A frame that was taken: the client reads the events and the records, and the ledger
is committed and swept. -/
theorem batch_taken_moves (viewed : ∀ s ∈ subjects, s ∈ view) (st : TieredState)
    (sorted : Sorted TieredEntry.key st.entries) (counted : st.Counted) (decisions : List Decision)
    (heap : Heap TieredSite) (nowMs : UInt64) (records : List Record) (silenced : List Silence) :
    let st' := tieredSweep (tieredCommit st heap subjects decisions nowMs).1
    ReflTransGen (Move g view) ⟨st.entries, records, silenced⟩ ⟨st'.entries,
      records ++ (pendingViewEvents st.entries).map ViewEvent.record ++
        (includedSubjects subjects decisions).map ViewSubject.record, silenced⟩ ∧ st'.Counted := by
  obtain ⟨confirmed, zero⟩ := tieredCommitEvents_entries counted nowMs
  have events : Move g view ⟨st.entries, records, silenced⟩
      ⟨(tieredCommitEvents st nowMs).entries,
        records ++ (pendingViewEvents st.entries).map ViewEvent.record, silenced⟩ := by
    have move : Move g view ⟨st.entries ++ [], records, silenced⟩ ⟨_, _, silenced⟩ :=
      .events st.entries [] nowMs
    rwa [append_nil, append_nil, ← confirmed] at move
  have pairs : ∀ e ∈ subjects.zip decisions, e.1 ∈ view :=
    fun e member => viewed e.1 (of_mem_zip member).1
  obtain ⟨st', heap', committed, moves, pending, counter⟩ :=
    tieredCommitSubjects_moves nowMs (subjects.zip decisions) pairs (tieredCommitEvents st nowMs)
      (events.ordered sorted) heap (records ++ (pendingViewEvents st.entries).map ViewEvent.record)
      silenced
  unfold tieredCommit
  rw [committed]
  refine ⟨(moves.head events).tail (.sweep _ fun e pending => by simp [pending]), ?_⟩
  change st'.pendingEvents = _
  rw [counter, zero, pendingViewEvents_sweep, pending, confirmed, pendingViewEvents_confirm]
  rfl

end Batch

end Kith.Gateway
