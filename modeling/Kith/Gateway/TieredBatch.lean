import Kith.Gateway.TieredAgreement

/-!
# Calls of the tiered strategy with batch frames

The frame of a call is assembled in a buffer of the size that the counter of pending events
and the number of due subjects give. The counters of a call account for its frame and its
subjects.
-/

namespace Kith.Gateway

open Runs SortedArray Relation List

section Draft

/-- The state, the decisions and the number of records with which a pass comes to
`tiered_assemble`. -/
def tieredDraft (st : TieredState) (sent : List ReplicationFrame) (heap : Heap TieredSite)
    (subjects : List ViewSubject) (nowMs : UInt64) : Option (TieredState × List Decision × Nat) :=
  match tieredScratchEnsure st heap subjects.length with
  | (false, _, _) => none
  | (true, st, heap) =>
    let (decisions, st, _) := tieredDecide nowMs sent true subjects st ⟨⟨0, 0, 0, 0⟩, []⟩
    let totalRecords := st.pendingEvents + (includedSubjects subjects decisions).length
    if 2 ^ 32 ≤ 4 + totalRecords * 68 then none
    else
      match tieredFrameEnsure st heap (4 + totalRecords * 68) with
      | (false, _, _) => none
      | (true, st, _) => some (st, decisions, totalRecords)

variable {st : TieredState} {heap : Heap TieredSite} {subjects : List ViewSubject} {nowMs : UInt64}

theorem tieredFrameEnsure_room {need : Nat} {st' : TieredState} {heap' : Heap TieredSite}
    (ready : tieredFrameEnsure st heap need = (true, st', heap')) : need ≤ st'.frameCap := by
  rw [tieredFrameEnsure] at ready
  split at ready
  · rename_i room
    cases ready
    exact room
  · split at ready
    · cases ready
    · cases ready
      exact Nat.le_refl _

/-- A draft fits its buffer exactly. -/
theorem tieredDraft_fits (kept : LedgerKept st) {sent : List ReplicationFrame} {draft : TieredState}
    {total : Nat}
    (drafted : tieredDraft st sent heap subjects nowMs = some (draft, decisions, total)) :
    (tieredAssemble draft subjects decisions total).length = 4 + total * 68 ∧
      4 + total * 68 ≤ draft.frameCap := by
  obtain ⟨decisions', st₂, log, decided, drafting⟩ :=
    tieredDecide_drafting kept sent heap subjects nowMs
  rw [tieredDraft] at drafted
  rcases scratch : tieredScratchEnsure st heap subjects.length with ⟨ready, st₁, heap₁⟩
  rw [scratch] at drafted decided
  cases ready with
  | false => cases drafted
  | true =>
    simp only [decided, drafting.total] at drafted
    split at drafted
    · cases drafted
    · obtain ⟨cap, frame⟩ := tieredFrameEnsure_settings st₂ heap₁ (batchNeed st subjects nowMs)
      rcases room :
        tieredFrameEnsure st₂ heap₁ (4 + (batchRecords st subjects nowMs).length * 68) with
        ⟨granted, st₃, heap₃⟩
      rw [room] at drafted
      rw [batchNeed, room] at frame
      cases granted with
      | false => cases drafted
      | true =>
        obtain rfl : st₃ = _ := frame
        cases drafted
        refine ⟨?_, tieredFrameEnsure_room room⟩
        rw [drafting.assembled, length_batchPayload]

/-- A batch pass puts on the connection what is assembled from its draft, and nothing without
one. -/
theorem tieredDeliverBatch_draft (g : DeliveryGateway) (st : TieredState) (wire : Wire)
    (heap : Heap TieredSite) (subjects : List ViewSubject) (nowMs : UInt64) :
    (tieredDeliverBatch g st wire heap subjects nowMs).2.2.1 =
      match tieredDraft st wire.sent heap subjects nowMs with
      | none => wire
      | some (draft, decisions, total) =>
        (gatewayDeliveryEnqueue wire g.replicationBatchTypeId
          (tieredAssemble draft subjects decisions total)).2 := by
  unfold tieredDeliverBatch tieredDraft
  rcases tieredScratchEnsure st heap subjects.length with ⟨_ | _, st, heap⟩
  · rfl
  · dsimp only
    rcases tieredDecide nowMs wire.sent true subjects st ⟨⟨0, 0, 0, 0⟩, []⟩ with
      ⟨decisions, st, log⟩
    dsimp only
    split
    · rfl
    · rcases tieredFrameEnsure st heap _ with ⟨_ | _, st, heap⟩
      · rfl
      · dsimp only
        rcases gatewayDeliveryEnqueue wire g.replicationBatchTypeId _ with ⟨_ | _, wire⟩
        · rfl
        · rfl

end Draft

section Calls

/-- The ledger and the allocator after a call has absorbed its delta. -/
def TieredSession.absorb (s : TieredSession) (pass : TieredPass) : TieredState × Heap TieredSite :=
  tieredAbsorbDelta pass.delta { s.st with pass := s.st.pass + 1 } s.heap

def tieredNext (g : DeliveryGateway) (s : TieredSession) (pass : TieredPass) : TieredSession :=
  (tieredDeliver g s pass).2

variable {g : DeliveryGateway} {s : TieredSession} {pass : TieredPass}

theorem absorb_kept (kept : LedgerKept s.st) (pass : TieredPass) :
    LedgerKept (s.absorb pass).1 := by
  obtain ⟨st, heap, absorbed, absorbs, counted⟩ :=
    tieredAbsorbDelta_absorbs pass.delta { s.st with pass := s.st.pass + 1 } kept.sorted s.heap
  rw [TieredSession.absorb, absorbed]
  exact ⟨absorbs.sorted kept.sorted, counted kept.counted⟩

theorem tieredDeliver_batch (batch : g.replicationBatchTypeId ≠ 0) (kept : LedgerKept s.st)
    (pass : TieredPass) :
    BatchPass g (s.absorb pass).1 (s.absorb pass).2 pass.subjects pass.nowMs s.wire.sent
      (tieredDeliver g s pass).1.2 (tieredNext g s pass).wire.sent ∧
        LedgerKept (tieredNext g s pass).st := by
  obtain ⟨log, st', wire', heap', delivered, outcome, after, _⟩ := tieredDeliverBatch_pass g
    (absorb_kept kept pass) s.wire (s.absorb pass).2 pass.subjects pass.nowMs
  have called : tieredDeliver g s pass = ((.ok, log.stats),
      ⟨st', wire', heap', pass.subjects,
        s.formerSelves ++ (s.view.head?.map ViewSubject.actorId).toList,
        s.silenced ++ log.silenced⟩) := by
    unfold tieredDeliver
    unfold TieredSession.absorb at delivered
    rw [if_neg fun none => batch none.1]
    dsimp only at delivered ⊢
    rw [if_pos batch, delivered]
  rw [tieredNext, called]
  exact ⟨outcome, after⟩

theorem kept_of_path {config : Option TieredConfig} {wire : Wire} {heap : Heap TieredSite}
    {start : TieredSession} (batch : g.replicationBatchTypeId ≠ 0)
    (started : tieredSessionInit config wire heap = .ok start)
    (path : Path (tieredNext g) (fun _ _ => True) start s) : LedgerKept s.st := by
  obtain ⟨empty, zero, -⟩ := tieredSessionInit_empty started
  have sound := sound_of_empty (g := g) empty zero
  refine path.invariant (fun s => LedgerKept s.st) ?_ ⟨sound.sorted, sound.counted batch⟩
  exact fun s pass kept _ => (tieredDeliver_batch batch kept pass).2

theorem tieredNext_wire (batch : g.replicationBatchTypeId ≠ 0) (s : TieredSession)
    (pass : TieredPass) :
    (tieredNext g s pass).wire = (tieredDeliverBatch g (s.absorb pass).1 s.wire (s.absorb pass).2
      pass.subjects pass.nowMs).2.2.1 := by
  unfold tieredNext tieredDeliver TieredSession.absorb
  rw [if_neg fun none => batch none.1]
  dsimp only
  rw [if_pos batch]

/-- With batch frames the ledger stays sorted and its counter right, and every frame that is
assembled fills the bytes it was sized for, inside the buffer, and is the frame of the call. -/
theorem batches_fit_buffer (g : DeliveryGateway) (config : Option TieredConfig) (wire : Wire)
    (heap : Heap TieredSite) (start s : TieredSession) (batch : g.replicationBatchTypeId ≠ 0)
    (started : tieredSessionInit config wire heap = .ok start)
    (path : Path (tieredNext g) (fun _ _ => True) start s) :
    s.st.entries.Pairwise (fun a b => a.actorId < b.actorId) ∧
      s.st.pendingEvents = s.st.entries.countP (fun e => e.pendingKind.isSome) ∧
      ∀ pass draft decisions total,
        tieredDraft (s.absorb pass).1 s.wire.sent (s.absorb pass).2 pass.subjects pass.nowMs =
            some (draft, decisions, total) →
          (tieredAssemble draft pass.subjects decisions total).length = 4 + total * 68 ∧
            4 + total * 68 ≤ draft.frameCap ∧
            (tieredNext g s pass).wire = (gatewayDeliveryEnqueue s.wire g.replicationBatchTypeId
              (tieredAssemble draft pass.subjects decisions total)).2 := by
  have kept := kept_of_path batch started path
  refine ⟨?_, ?_, ?_⟩
  · exact kept.sorted.imp UInt64.lt_iff_toNat_lt.mpr
  · rw [← length_pendingViewEvents]
    exact kept.counted
  · intro pass draft decisions total drafted
    obtain ⟨exact_bytes, fits⟩ := tieredDraft_fits (absorb_kept kept pass) drafted
    refine ⟨exact_bytes, fits, ?_⟩
    rw [tieredNext_wire batch, tieredDeliverBatch_draft, drafted]

/-- Batch frames, with frames for single records as well. -/
def batchGateway : DeliveryGateway := ⟨1, 2, 16⟩

def arrival : TieredPass := ⟨[⟨7, .exit⟩], [standing 1], 0⟩

/-- Actor 7 leaves and actor 2 comes into view. -/
def exchange : TieredPass := ⟨[⟨7, .exit⟩], [standing 1, standing 2], 0⟩

/-- After a first call the second assembles an event and a subject. -/
theorem batches_fit_buffer_again :
    let s := tieredNext batchGateway (tieredStart fun _ => true) arrival
    ∃ draft decisions,
      tieredDraft (s.absorb exchange).1 s.wire.sent (s.absorb exchange).2 exchange.subjects
          exchange.nowMs = some (draft, decisions, 3) ∧
        (tieredAssemble draft exchange.subjects decisions 3).length = 208 ∧
          208 ≤ draft.frameCap := by
  intro s
  obtain ⟨_, _, fits⟩ := batches_fit_buffer batchGateway none _ _ (tieredStart fun _ => true) s
    (by decide) rfl (.step arrival .start trivial)
  have three :
      (tieredDraft (s.absorb exchange).1 s.wire.sent (s.absorb exchange).2 exchange.subjects
      exchange.nowMs).map (·.2.2) = some 3 := by decide +kernel
  obtain ⟨⟨draft, decisions, total⟩, drafted, rfl⟩ := Option.map_eq_some_iff.mp three
  exact ⟨draft, decisions, drafted, (fits exchange draft decisions 3 drafted).1,
    (fits exchange draft decisions 3 drafted).2.1⟩

end Calls

section Accounting

/-- The subjects that a pass includes: what `tiered_decide` returns, when the pass comes to
it. -/
def includedCount (st : TieredState) (sent : List ReplicationFrame) (heap : Heap TieredSite)
    (subjects : List ViewSubject) (nowMs : UInt64) : Nat :=
  match tieredScratchEnsure st heap subjects.length with
  | (false, _, _) => 0
  | (true, st, _) =>
    (includedSubjects subjects
      (tieredDecide nowMs sent true subjects st ⟨⟨0, 0, 0, 0⟩, []⟩).1).length

variable {st : TieredState} {heap : Heap TieredSite} {subjects : List ViewSubject} {nowMs : UInt64}
  {sent : List ReplicationFrame}

theorem includedCount_eq (kept : LedgerKept st) :
    includedCount st sent heap subjects nowMs =
      if scratchReady st heap subjects then (dueSubjects st nowMs true subjects).length else 0 := by
  obtain ⟨decisions, st₂, log, decided, drafting⟩ :=
    tieredDecide_drafting kept sent heap subjects nowMs
  rw [includedCount, scratchReady]
  rcases scratch : tieredScratchEnsure st heap subjects.length with ⟨ready, st₁, heap₁⟩
  rw [scratch] at decided
  cases ready with
  | false => rfl
  | true => simp only [decided, drafting.included, if_true]

/-- What a batch call should report: one frame at most, none when nothing is to be sent, and
every subject either suppressed or included. -/
structure BatchAccounts (st : TieredState) (heap : Heap TieredSite) (subjects : List ViewSubject)
    (nowMs : UInt64) (sent : List ReplicationFrame) (stats : DeliveryStats)
    (sent' : List ReplicationFrame) : Prop where
  once : stats.enqueued.toNat + stats.dropped.toNat ≤ 1
  silent : stats.enqueued = 0 ∧ stats.dropped = 0 ∧ sent' = sent ↔
    dueSubjects st nowMs true subjects = [] ∧ pendingViewEvents st.entries = []
  whole : stats.suppressed.toNat + includedCount st sent heap subjects nowMs = subjects.length

/-- The arrays are there and so is the buffer for a frame that can be built, there is
something to send, and the suppressed subjects fit their counter. -/
structure Supplied (st : TieredState) (heap : Heap TieredSite) (subjects : List ViewSubject)
    (nowMs : UInt64) : Prop where
  scratch : scratchReady st heap subjects = true
  frame : batchNeed st subjects nowMs < 2 ^ 32 → frameReady st heap subjects nowMs = true
  something : dueSubjects st nowMs true subjects ≠ [] ∨ pendingViewEvents st.entries ≠ []
  countable : idleCount st subjects nowMs < 2 ^ 32

theorem batchRecords_eq_nil : batchRecords st subjects nowMs = [] ↔
    dueSubjects st nowMs true subjects = [] ∧ pendingViewEvents st.entries = [] := by
  rw [batchRecords, append_eq_nil_iff, map_eq_nil_iff, map_eq_nil_iff, and_comm]

theorem whole_iff (kept : LedgerKept st) (ready : scratchReady st heap subjects = true)
    (sent : List ReplicationFrame) (enqueued dropped events : UInt32) :
    (DeliveryStats.suppressing ⟨enqueued, dropped, events, 0⟩
        (idleCount st subjects nowMs)).suppressed.toNat +
      includedCount st sent heap subjects nowMs = subjects.length ↔
    idleCount st subjects nowMs < 2 ^ 32 := by
  have few := length_dueSubjects_le st nowMs true subjects
  have count : (DeliveryStats.suppressing ⟨enqueued, dropped, events, 0⟩
      (idleCount st subjects nowMs)).suppressed.toNat = idleCount st subjects nowMs % 2 ^ 32 := by
    rw [DeliveryStats.suppressing]
    simp
  rw [includedCount_eq kept, if_pos ready, count, idleCount]
  constructor
  · intro sum
    omega
  · intro small
    omega

theorem one_dropped_accounts (kept : LedgerKept st) (ready : scratchReady st heap subjects = true)
    (records : batchRecords st subjects nowMs ≠ []) :
    BatchAccounts st heap subjects nowMs sent
        (.suppressing ⟨0, 1, 0, 0⟩ (idleCount st subjects nowMs)) sent ↔
      idleCount st subjects nowMs < 2 ^ 32 := by
  rw [← whole_iff kept ready sent 0 1 0]
  constructor
  · exact BatchAccounts.whole
  · intro whole
    refine ⟨Nat.le_refl 1, ⟨?_, fun none => absurd (batchRecords_eq_nil.mpr none) records⟩, whole⟩
    rintro ⟨-, zero, -⟩
    exact absurd zero (by decide : (1 : UInt32) ≠ 0)

theorem BatchPass.accounts_iff {g : DeliveryGateway} {stats : DeliveryStats}
    {sent' : List ReplicationFrame} (kept : LedgerKept st)
    (pass : BatchPass g st heap subjects nowMs sent stats sent') :
    BatchAccounts st heap subjects nowMs sent stats sent' ↔ Supplied st heap subjects nowMs := by
  have something : dueSubjects st nowMs true subjects ≠ [] ∨ pendingViewEvents st.entries ≠ [] ↔
      batchRecords st subjects nowMs ≠ [] := by
    rw [← not_and_or, ← batchRecords_eq_nil]
  cases pass with
  | unscratched refused =>
    refine iff_of_false (fun accounts => ?_) (fun supplied => ?_)
    · have whole := accounts.whole
      rw [includedCount_eq kept, refused] at whole
      obtain rfl := length_eq_zero_iff.mp whole.symm
      cases refused
    · rw [supplied.scratch] at refused
      cases refused
  | oversized ready large =>
    have records : batchRecords st subjects nowMs ≠ [] := by
      intro none
      rw [batchNeed, none] at large
      exact absurd large (by decide)
    rw [one_dropped_accounts kept ready records]
    exact ⟨fun small => ⟨ready, fun fits => absurd large (Nat.not_le_of_lt fits),
      something.mpr records, small⟩, Supplied.countable⟩
  | unframed ready small refused =>
    refine iff_of_false (fun accounts => ?_) (fun supplied => ?_)
    · by_cases none : batchRecords st subjects nowMs = []
      · -- an empty frame is dropped where nothing was to be reported
        have zero := (accounts.silent.mpr (batchRecords_eq_nil.mp none)).2.1
        simp [DeliveryStats.suppressing, none] at zero
      · have once := accounts.once
        simp [DeliveryStats.suppressing, none] at once
    · rw [supplied.frame small] at refused
      cases refused
  | refused ready small framed =>
    by_cases none : batchRecords st subjects nowMs = []
    · refine iff_of_false (fun accounts => ?_) (fun supplied => ?_)
      · have zero := (accounts.silent.mpr (batchRecords_eq_nil.mp none)).2.1
        exact absurd zero (by decide : (1 : UInt32) ≠ 0)
      · exact something.mp supplied.something none
    · rw [one_dropped_accounts kept ready none]
      exact ⟨fun small => ⟨ready, fun _ => framed, something.mpr none, small⟩, Supplied.countable⟩
  | taken events ready small framed =>
    constructor
    · intro accounts
      refine ⟨ready, fun _ => framed, something.mpr fun none => ?_,
        (whole_iff kept ready sent 1 0 events).mp accounts.whole⟩
      have zero := (accounts.silent.mpr (batchRecords_eq_nil.mp none)).1
      exact absurd zero (by decide : (1 : UInt32) ≠ 0)
    · intro supplied
      refine ⟨Nat.le_refl 1, ⟨?_, fun none => ?_⟩,
        (whole_iff kept ready sent 1 0 events).mpr supplied.countable⟩
      · rintro ⟨zero, -, -⟩
        exact absurd zero (by decide : (1 : UInt32) ≠ 0)
      · exact absurd (batchRecords_eq_nil.mpr none) (something.mp supplied.something)

/-- In every run, a call with batch frames accounts for itself exactly when it was supplied. -/
theorem batch_accounts_iff (g : DeliveryGateway) (config : Option TieredConfig) (wire : Wire)
    (heap : Heap TieredSite) (start s : TieredSession) (batch : g.replicationBatchTypeId ≠ 0)
    (started : tieredSessionInit config wire heap = .ok start)
    (path : Path (tieredNext g) (fun _ _ => True) start s) (pass : TieredPass) :
    BatchAccounts (s.absorb pass).1 (s.absorb pass).2 pass.subjects pass.nowMs s.wire.sent
        (tieredDeliver g s pass).1.2 (tieredNext g s pass).wire.sent ↔
      Supplied (s.absorb pass).1 (s.absorb pass).2 pass.subjects pass.nowMs := by
  have kept := kept_of_path batch started path
  exact (tieredDeliver_batch batch kept pass).1.accounts_iff (absorb_kept kept pass)

theorem batch_accounts_iff_arrival :
    BatchAccounts ((tieredStart fun _ => true).absorb arrival).1
      ((tieredStart fun _ => true).absorb arrival).2
      arrival.subjects arrival.nowMs []
        (tieredDeliver batchGateway (tieredStart fun _ => true) arrival).1.2
      (tieredNext batchGateway (tieredStart fun _ => true) arrival).wire.sent :=
  (batch_accounts_iff batchGateway none _ _ (tieredStart fun _ => true) _ (by decide) rfl .start
    arrival).mpr
      ⟨by decide +kernel, fun _ => by decide +kernel, .inl (by decide +kernel), by decide +kernel⟩

/-- The frame of one subject is counted twice when its buffer is refused, and an empty frame
is sent when there is nothing to send. -/
theorem refused_frame_dropped_twice :
    let starved := { tieredStart fun _ => true with heap := ⟨fun site _ => site ≠ .frame, 0⟩ }
    let call := tieredDeliver batchGateway starved ⟨[], [standing 1], 0⟩
    let idle := tieredDeliver batchGateway (tieredStart fun _ => true) ⟨[], [], 0⟩
    call.1.2.dropped = 2 ∧ call.2.wire.sent = [] ∧
      idle.1.2.enqueued = 1 ∧ idle.2.wire.sent = [⟨2, [0, 0, 0, 0]⟩] := by
  decide +kernel

end Accounting

end Kith.Gateway
