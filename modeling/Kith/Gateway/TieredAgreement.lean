import Kith.Gateway.TieredPass

/-!
# Agreement of the tiered ledger with the client

Two invariants of the moves. An entry that is not marked as exiting holds what
the client shows, so a subject is left out as unchanged only when the client
shows it. Whatever the client shows is in the view, has a departure pending, or
was the session's own actor.
-/

namespace Kith.Gateway

open Runs SortedArray Relation Function List

def Payload.record (p : Payload) (actorId : UInt64) (updateSeq : UInt32) : Record :=
  ⟨actorId, p.posX.toUInt64, p.posY.toUInt64, p.posZ.toUInt64, p.velX.toUInt64, p.velY.toUInt64,
    p.velZ.toUInt64, p.inputTick, updateSeq, p.level.word⟩

variable (held : UInt64 → Option Record)

/-- The client holds the subject's record, up to the update sequence. -/
def Shows (s : ViewSubject) : Prop :=
  ∃ seq, held s.actorId = some { s.record with updateSeq := seq }

/-- Every subject that was suppressed as unchanged was shown by the client at the time. -/
def Truthful (g : DeliveryGateway) (silenced : List Silence) : Prop :=
  ∀ q ∈ silenced, q.entry.exiting = false → q.subject.payload = q.entry.last →
    Shows (holdings (received g q.sent)) q.subject

section Mirrors

/-- An entry with a record that is not exiting is what the client holds. -/
def TieredEntry.Shown (e : TieredEntry) : Prop :=
  e.hasRecord = true → e.exiting = false →
    ∃ seq, held e.actorId = some (e.last.record e.actorId seq)

/-- A pending event is a departure and its entry is exiting. -/
def TieredEntry.Marked (e : TieredEntry) : Prop :=
  ∀ kind, e.pendingKind = some kind → kind.departure = true ∧ e.exiting = true

structure Mirrors (g : DeliveryGateway) (m : Moment) : Prop where
  ordered : m.Ordered
  shown : ∀ e ∈ m.entries, e.Shown (holdings m.records)
  marked : ∀ e ∈ m.entries, e.Marked
  truthful : Truthful g m.silenced

variable {g : DeliveryGateway} {view : List ViewSubject} {entries done entries' : List TieredEntry}
    {v : ViewEvent} {records : List Record} {m m' : Moment} {grant : TieredSite → Nat → Bool}
    {silenced : List Silence} {s : TieredSession}

theorem mem_pendingViewEvents :
    v ∈ pendingViewEvents entries ↔ ∃ e ∈ entries, e.actorId = v.actorId ∧
      e.pendingKind = some v.kind := by
  unfold pendingViewEvents
  simp only [mem_filterMap, Option.map_eq_some_iff]
  constructor
  · rintro ⟨e, member, kind, pending, rfl⟩
    exact ⟨e, member, rfl, pending⟩
  · rintro ⟨e, member, named, pending⟩
    exact ⟨e, member, v.kind, pending, by rw [named]⟩

theorem holdings_events (marked : ∀ e ∈ done, e.Marked) (id : UInt64) :
    holdings (records ++ (pendingViewEvents done).map ViewEvent.record) id =
      if ∃ e ∈ done, e.actorId = id ∧ e.pendingKind.isSome = true then none
      else holdings records id := by
  have departures : ∀ v ∈ pendingViewEvents done, v.kind.departure = true := by
    intro v member
    obtain ⟨e, here, _, pending⟩ := mem_pendingViewEvents.mp member
    exact (marked e here v.kind pending).1
  rw [holdings_append, foldl_departures _ departures]
  refine if_congr ?_ rfl rfl
  simp only [mem_map, mem_pendingViewEvents, Option.isSome_iff_exists]
  constructor
  · rintro ⟨v, ⟨e, here, named, pending⟩, rfl⟩
    exact ⟨e, here, named, v.kind, pending⟩
  · rintro ⟨e, here, rfl, kind, pending⟩
    exact ⟨⟨e.actorId, kind⟩, ⟨e, here, rfl, pending⟩, rfl⟩

theorem holdings_record (records : List Record) (s : ViewSubject) :
    holdings (records ++ [s.record]) = update (holdings records) s.actorId (some s.record) := by
  rw [holdings_append]
  exact if_neg (not_not.mpr (level_word_unmarked s.level))

theorem eq_of_actorId (sorted : Sorted TieredEntry.key entries) {a b : TieredEntry}
    (left : a ∈ entries) (right : b ∈ entries) (same : a.actorId = b.actorId) : a = b := by
  obtain ⟨before, after, rfl⟩ := append_of_mem left
  have apart := apart_of_sorted sorted
  simp only [mem_append, mem_cons] at right
  rcases right with right | rfl | right
  · exact absurd same.symm (apart b (by simp [right]))
  · rfl
  · exact absurd same.symm (apart b (by simp [right]))

theorem shown_events {rest : List TieredEntry} (nowMs : UInt64)
    (sorted : Sorted TieredEntry.key (done ++ rest))
    (shown : ∀ e ∈ done ++ rest, e.Shown (holdings records))
    (marked : ∀ e ∈ done ++ rest, e.Marked) :
    ∀ x ∈ done.map (TieredEntry.confirm nowMs) ++ rest,
      x.Shown (holdings (records ++ (pendingViewEvents done).map ViewEvent.record)) := by
  -- an entry that is not exiting has no pending event, and no other entry has its id
  have untouched : ∀ e ∈ done ++ rest, e.Shown
      (holdings (records ++ (pendingViewEvents done).map ViewEvent.record)) := by
    intro e member recorded stays
    rw [holdings_events fun e member => marked e (mem_append_left _ member), if_neg]
    · exact shown e member recorded stays
    · rintro ⟨x, here, same, pending⟩
      obtain rfl := eq_of_actorId sorted (by simp [here]) member same
      obtain ⟨kind, pending⟩ := Option.isSome_iff_exists.mp pending
      rw [(marked x member kind pending).2] at stays
      cases stays
  intro x member
  rcases mem_append.mp member with member | member
  · obtain ⟨e, here, rfl⟩ := mem_map.mp member
    unfold TieredEntry.confirm
    split
    · exact untouched e (mem_append_left _ here)
    · exact untouched e (mem_append_left _ here)
  · exact untouched x (mem_append_right _ member)

theorem fresh_shown (id : UInt64) : (TieredEntry.fresh id).Shown held := by
  intro recorded
  cases recorded

theorem fresh_marked (id : UInt64) : (TieredEntry.fresh id).Marked := by
  intro kind pending
  cases pending

theorem Move.marked (move : Move g view m m') (marked : ∀ e ∈ m.entries, e.Marked) :
    ∀ e ∈ m'.entries, e.Marked := by
  cases move with
  | stamp written | commit _ _ written =>
    exact written.keeps marked (fresh_marked _) fun _ here => here
  | silence | unledgered => exact marked
  | events done rest nowMs =>
    intro x member
    rcases mem_append.mp member with member | member
    · obtain ⟨e, here, rfl⟩ := mem_map.mp member
      unfold TieredEntry.confirm
      split
      · intro kind pending
        cases pending
      · exact marked e (mem_append_left _ here)
    · exact marked x (mem_append_right _ member)
  | sweep p => exact fun e member => marked e (mem_of_mem_filter member)

theorem Mirrors.move (mirrors : Mirrors g m) (move : Move g view m m') : Mirrors g m' := by
  have ordered := move.ordered mirrors.ordered
  have marked' := move.marked mirrors.marked
  obtain ⟨sorted, shown, marked, truthful⟩ := mirrors
  cases move with
  | stamp written =>
    exact ⟨ordered, written.keeps shown (fresh_shown _ _) fun _ here => here, marked', truthful⟩
  | silence q listed named recorded seen =>
    refine ⟨ordered, shown, marked', ?_⟩
    intro q' member stays same
    rcases mem_append.mp member with member | member
    · exact truthful q' member stays same
    · obtain rfl := mem_singleton.mp member
      obtain ⟨seq, held⟩ := shown q'.entry listed recorded stays
      refine ⟨seq, ?_⟩
      rw [seen, ← named, held, ← same, named]
      rfl
  | events done rest nowMs =>
    exact ⟨ordered, shown_events nowMs sorted shown marked, marked', truthful⟩
  | commit s viewed written =>
    refine ⟨ordered, written.forall ?_ ?_, marked', truthful⟩
    · intro e old other recorded stays
      rw [holdings_record, update_of_ne other]
      exact shown e old recorded stays
    · intro e _ named _ _
      rw [holdings_record]
      refine ⟨s.updateSeq, ?_⟩
      simp only [TieredEntry.commit, named, update_self]
      rfl
  | unledgered s viewed absent =>
    refine ⟨ordered, ?_, marked', truthful⟩
    intro e member recorded stays
    rw [holdings_record, update_of_ne (absent e member)]
    exact shown e member recorded stays
  | sweep p spared =>
    exact ⟨ordered, fun e member => shown e (mem_of_mem_filter member), marked', truthful⟩

theorem Mirrors.moves (mirrors : Mirrors g m) (moves : ReflTransGen (Move g view) m m') :
    Mirrors g m' := by
  induction moves with
  | refl => exact mirrors
  | tail _ move ih => exact ih.move move

/-- The departure of the entry was sent, but the sweep has not removed it. -/
def TieredEntry.Stale (e : TieredEntry) : Prop :=
  e.exiting = true ∧ e.pendingKind = none ∧ e.hasRecord = true

instance (e : TieredEntry) : Decidable e.Stale := inferInstanceAs (Decidable (_ ∧ _ ∧ _))

/-- No subject of the delta enters where a stale entry stands. -/
def Settled (delta : List ViewEvent) (entries : List TieredEntry) : Prop :=
  ∀ v ∈ delta, v.kind.departure = false → ∀ e ∈ entries, e.actorId = v.actorId → ¬e.Stale

section

variable (step : AbsorbStep grant v entries entries')
include step

theorem AbsorbStep.marked (marked : ∀ e ∈ entries, e.Marked) : ∀ e ∈ entries', e.Marked := by
  cases step with
  | unknown | lost => exact marked
  | enter _ written =>
    refine written.keeps marked (fresh_marked _) fun e here => ?_
    unfold TieredEntry.enter
    split
    · next cleared =>
      intro kind pending
      cases cleared.2.symm.trans pending
    · exact here
  | depart departs written =>
    refine written.forall (fun e old _ => marked e old) ?_
    intro e _ _ kind pending
    cases pending
    exact ⟨departs, rfl⟩

theorem AbsorbStep.mirrors
    (settled : v.kind.departure = false → ∀ e ∈ entries, e.actorId = v.actorId → ¬e.Stale)
    (mirrors : Mirrors g ⟨entries, records, silenced⟩) :
    Mirrors g ⟨entries', records, silenced⟩ := by
  have ordered := step.sorted mirrors.ordered
  have marked := step.marked mirrors.marked
  obtain ⟨_, shown, _, truthful⟩ := mirrors
  cases step with
  | unknown | lost => exact ⟨ordered, shown, marked, truthful⟩
  | enter enters written =>
    refine ⟨ordered, written.forall (fun e old _ => shown e old) ?_, marked, truthful⟩
    rintro e (old | rfl) named
    · unfold TieredEntry.enter
      split
      · next cleared =>
        intro recorded _
        exact absurd ⟨cleared.1, cleared.2, recorded⟩ (settled enters e old named)
      · exact shown e old
    · exact fresh_shown _ _
  | depart departs written =>
    refine ⟨ordered, written.forall (fun e old _ => shown e old) ?_, marked, truthful⟩
    intro e _ _ _ stays
    cases stays

theorem AbsorbStep.stale :
    ∀ x ∈ entries', x.Stale → ∃ e ∈ entries, e.actorId = x.actorId ∧ e.Stale := by
  cases step with
  | unknown | lost => exact fun x member stale => ⟨x, member, rfl, stale⟩
  | enter enters written =>
    refine written.forall (fun e old _ stale => ⟨e, old, rfl, stale⟩) ?_
    rintro e (old | rfl) _ stale
    · refine ⟨e, old, (enter_actorId e).symm, ?_⟩
      unfold TieredEntry.enter at stale
      split at stale
      · cases stale.1
      · exact stale
    · cases stale.2.2
  | depart departs written =>
    refine written.forall (fun e old _ stale => ⟨e, old, rfl, stale⟩) ?_
    intro e _ _ stale
    cases stale.2.1

end

theorem Absorbs.mirrors {delta : List ViewEvent} (absorbs : Absorbs grant delta entries entries')
    (settled : Settled delta entries) (mirrors : Mirrors g ⟨entries, records, silenced⟩) :
    Mirrors g ⟨entries', records, silenced⟩ := by
  induction absorbs with
  | nil => exact mirrors
  | cons first rest ih =>
    obtain ⟨now, later⟩ := forall_mem_cons.mp settled
    refine ih ?_ (first.mirrors now mirrors)
    intro v member enters x here named stale
    obtain ⟨e, old, same, stale⟩ := first.stale x here stale
    exact later v member enters e old (same.trans named) stale

/-- The pass finds no stale entry of a subject that enters, and its frame counts its records. -/
def Steady (g : DeliveryGateway) (s : TieredSession) (pass : TieredPass) : Prop :=
  Enabled g → Settled pass.delta s.st.entries ∧ Countable g s pass

instance : DecidableRel (Steady g) := fun s pass =>
  have : Decidable (Settled pass.delta s.st.entries) :=
    inferInstanceAs (Decidable (∀ v ∈ pass.delta, _ → ∀ e ∈ s.st.entries, _ → _))
  inferInstanceAs (Decidable (_ → _ ∧ _))

structure Faithful (g : DeliveryGateway) (s : TieredSession) : Prop where
  sound : Sound g s
  mirrors : Mirrors g ⟨s.st.entries, received g s.wire.sent, s.silenced⟩

theorem truthful_nil : Truthful g [] := fun _ member => absurd member not_mem_nil

theorem Truthful.append {later : List Silence} (before : Truthful g silenced)
    (after : Truthful g later) : Truthful g (silenced ++ later) := by
  intro q member
  rcases mem_append.mp member with member | member
  · exact before q member
  · exact after q member

theorem Faithful.deliver {pass : TieredPass} (faithful : Faithful g s) (steady : Steady g s pass) :
    Faithful g (tieredDeliver g s pass).2 := by
  by_cases enabled : Enabled g
  · obtain ⟨settled, countable⟩ := steady enabled
    obtain ⟨stats, s', absorbed, delivered, delivers⟩ :=
      tieredDeliver_delivers enabled faithful.sound countable
    obtain ⟨silenced, log, moves⟩ := delivers.moves
    obtain ⟨ordered, shown, marked, truthful⟩ := faithful.mirrors
    have start : Mirrors g ⟨s.st.entries, received g s.wire.sent, []⟩ :=
      ⟨ordered, shown, marked, truthful_nil⟩
    have last := (delivers.absorbs.mirrors settled start).moves moves
    rw [delivered]
    refine ⟨delivers.sound faithful.sound, last.ordered, last.shown, last.marked, ?_⟩
    rw [log]
    exact truthful.append last.truthful
  · rw [tieredDeliver_disabled enabled]
    exact faithful

def tieredStep (g : DeliveryGateway) (s : TieredSession) (pass : TieredPass) :
    Option ((Rc × DeliveryStats) × TieredSession) :=
  some (tieredDeliver g s pass)

theorem tieredSessionInit_empty {config : Option TieredConfig} {wire : Wire}
    {heap : Heap TieredSite} (started : tieredSessionInit config wire heap = .ok s) :
    s.st.entries = [] ∧ s.st.pendingEvents = 0 ∧ s.wire = wire ∧ s.view = [] ∧ s.silenced = [] := by
  unfold tieredSessionInit tieredResolveConfig at started
  cases config with
  | none =>
    cases started
    exact ⟨rfl, rfl, rfl, rfl, rfl⟩
  | some c =>
    dsimp only at started
    split at started
    · cases started
    · split at started
      · cases started
      · cases started
        exact ⟨rfl, rfl, rfl, rfl, rfl⟩

theorem sound_of_empty (empty : s.st.entries = []) (zero : s.st.pendingEvents = 0) : Sound g s := by
  refine ⟨?_, fun _ => ?_⟩
  · rw [empty]
    exact List.Pairwise.nil
  · rw [TieredState.Counted, empty, zero]
    rfl

end Mirrors

/-- While no subject enters on a stale entry, what is suppressed as unchanged is what the
client shows. -/
theorem suppressed_shown (g : DeliveryGateway) (config : Option TieredConfig) (wire : Wire)
    (heap : Heap TieredSite) (start : TieredSession)
    (started : tieredSessionInit config wire heap = .ok start)
    (passes : List TieredPass) (steady : Along (tieredStep g) (Steady g) start passes) :
    ∃ replies s, run (tieredStep g) start passes = some (replies, s) ∧ Truthful g s.silenced := by
  obtain ⟨empty, zero, _, _, silent⟩ := tieredSessionInit_empty started
  have first : Faithful g start := by
    refine ⟨sound_of_empty empty zero, ?_⟩
    rw [empty, silent]
    exact ⟨List.Pairwise.nil, fun _ member => absurd member List.not_mem_nil,
      fun _ member => absurd member List.not_mem_nil, truthful_nil⟩
  have kept : ∀ s pass, Faithful g s → Steady g s pass →
      ∃ r s', tieredStep g s pass = some (r, s') ∧ Faithful g s' :=
    fun s pass faithful steady => ⟨_, _, rfl, faithful.deliver steady⟩
  obtain ⟨replies, s, ran, faithful⟩ := run_invariant kept first passes steady
  exact ⟨replies, s, ran, faithful.mirrors.truthful⟩

def singleGateway : DeliveryGateway := ⟨1, 0, 16⟩

/-- A session with the default intervals on a connection with these answers. -/
def tieredStart (answers : Nat → Bool) : TieredSession :=
  ⟨⟨0, 200, 500, 1000, [], 0, 0, 0, 0, 0⟩, ⟨answers, 0, []⟩, ⟨fun _ _ => true, 0⟩, [], [], []⟩

def standing (id : UInt64) : ViewSubject :=
  ⟨id, 0, 0, 0, 0, 0, 0, 5, 1, .full, .actor, false, false⟩

/-- Two neighbours of actor 9 stand still for two passes. -/
def idlePasses : List TieredPass :=
  [⟨[⟨1, .enter⟩, ⟨2, .enter⟩], [standing 9, standing 1, standing 2], 1000⟩,
    ⟨[], [standing 9, standing 1, standing 2], 1100⟩]

theorem suppressed_shown_idle :
    ∃ replies s,
      run (tieredStep singleGateway) (tieredStart fun _ => true) idlePasses = some (replies, s) ∧
      Truthful singleGateway s.silenced :=
  suppressed_shown singleGateway none ⟨fun _ => true, 0, []⟩ ⟨fun _ _ => true, 0⟩
    (tieredStart fun _ => true) rfl idlePasses (by decide +kernel)

/-- Both neighbours leave, the second departure is refused, and the first returns. -/
def returningPasses : List TieredPass :=
  [⟨[⟨1, .enter⟩, ⟨2, .enter⟩], [standing 9, standing 1, standing 2], 1000⟩,
    ⟨[⟨1, .exit⟩, ⟨2, .exit⟩], [standing 9], 1100⟩,
    ⟨[⟨1, .enter⟩], [standing 9, standing 1], 1200⟩]

/-- The returning actor is suppressed as unchanged, though the client has removed it. -/
theorem returning_actor_not_shown :
    ∃ replies s,
      run (tieredStep singleGateway) (tieredStart fun n => n ≠ 4) returningPasses =
        some (replies, s) ∧
      ¬Truthful singleGateway s.silenced := by
  have removed : ∀ silenced : List Silence,
      (∃ q ∈ silenced, q.entry.exiting = false ∧ q.subject.payload = q.entry.last ∧
        holdings (received singleGateway q.sent) q.subject.actorId = none) →
      ¬Truthful singleGateway silenced := by
    rintro silenced ⟨q, member, stays, same, missing⟩ truthful
    obtain ⟨seq, held⟩ := truthful q member stays same
    cases missing.symm.trans held
  exact ⟨_, _, rfl, removed _ (by decide +kernel)⟩

section Ghosts

variable {g : DeliveryGateway} {view : List ViewSubject} {id : UInt64}
    {entries entries' absorbed : List TieredEntry} {m m' : Moment}
    {v : ViewEvent} {delta : List ViewEvent} {s s' : TieredSession} {pass : TieredPass}
    {stats : DeliveryStats}

def Departing (id : UInt64) (entries : List TieredEntry) : Prop :=
  ∃ e ∈ entries, e.actorId = id ∧ e.pendingKind.isSome = true

/-- All pending events are departures, and whatever the client holds is covered or departing. -/
structure Tracked (cover : List UInt64) (m : Moment) : Prop where
  ordered : m.Ordered
  marked : ∀ e ∈ m.entries, e.Marked
  tracked : ∀ id, holdings m.records id ≠ none → id ∈ cover ∨ Departing id m.entries

theorem Written.departing {other : UInt64} {f : TieredEntry → TieredEntry}
    (written : Written id f entries entries') (named : ∀ e, (f e).actorId = e.actorId)
    (kept : ∀ e, e.pendingKind.isSome = true → (f e).pendingKind.isSome = true)
    (departing : Departing other entries) : Departing other entries' := by
  obtain ⟨e, member, rfl, pending⟩ := departing
  by_cases same : e.actorId = id
  · exact ⟨f e, written.image member same, named e, kept e pending⟩
  · exact ⟨e, written.keep member same, rfl, pending⟩

theorem Tracked.move {cover : List UInt64} (viewed : ∀ v ∈ view, v.actorId ∈ cover)
    (tracked : Tracked cover m) (move : Move g view m m') : Tracked cover m' := by
  refine ⟨move.ordered tracked.ordered, move.marked tracked.marked, ?_⟩
  obtain ⟨_, marked, tracked⟩ := tracked
  -- a record adds an actor of the view
  have record : ∀ {records : List Record} (s : ViewSubject), s ∈ view → ∀ id,
      holdings (records ++ [s.record]) id ≠ none → id ∈ cover ∨ holdings records id ≠ none := by
    intro records s member id held
    rw [holdings_record] at held
    by_cases same : id = s.actorId
    · exact .inl (same ▸ viewed s member)
    · rw [update_of_ne same] at held
      exact .inr held
  cases move with
  | stamp written =>
    intro id held
    exact (tracked id held).imp_right (written.departing (fun _ => rfl) fun _ pending => pending)
  | silence => exact tracked
  | events done rest nowMs =>
    intro id held
    rw [holdings_events fun e member => marked e (mem_append_left _ member)] at held
    split at held
    · exact absurd rfl held
    · next unsent =>
      rcases tracked id held with covered | ⟨e, member, named, pending⟩
      · exact .inl covered
      · rcases mem_append.mp member with here | later
        · exact absurd ⟨e, here, named, pending⟩ unsent
        · exact .inr ⟨e, mem_append_right _ later, named, pending⟩
  | commit s member written =>
    intro id held
    rcases record s member id held with covered | held
    · exact .inl covered
    · exact (tracked id held).imp_right (written.departing (fun _ => rfl) fun _ pending => pending)
  | unledgered s member absent =>
    intro id held
    rcases record s member id held with covered | held
    · exact .inl covered
    · exact tracked id held
  | sweep p spared =>
    intro id held
    refine (tracked id held).imp_right ?_
    rintro ⟨e, member, named, pending⟩
    exact ⟨e, mem_filter.mpr ⟨member, spared e pending⟩, named, pending⟩

theorem Tracked.moves {cover : List UInt64} (viewed : ∀ v ∈ view, v.actorId ∈ cover)
    (tracked : Tracked cover m) (moves : ReflTransGen (Move g view) m m') : Tracked cover m' := by
  induction moves with
  | refl => exact tracked
  | tail _ move ih => exact ih.move viewed move

variable {grant : TieredSite → Nat → Bool}

theorem AbsorbStep.departing (step : AbsorbStep grant v entries entries')
    (departing : Departing id entries) : Departing id entries' := by
  cases step with
  | unknown | lost => exact departing
  | enter _ written =>
    exact written.departing enter_actorId (fun e pending => by rwa [enter_pendingKind]) departing
  | depart _ written => exact written.departing (fun _ => rfl) (fun _ _ => rfl) departing

theorem Absorbs.departing (absorbs : Absorbs grant delta entries entries')
    (departing : Departing id entries) : Departing id entries' := by
  induction absorbs with
  | nil => exact departing
  | cons first _ ih => exact ih (first.departing departing)

theorem Absorbs.departed (granted : ∀ n, grant .ledger n = true)
    (absorbs : Absorbs grant delta entries entries') (member : v ∈ delta)
    (departs : v.kind.departure = true) : Departing v.actorId entries' := by
  induction absorbs with
  | nil => cases member
  | cons first rest ih =>
    rcases mem_cons.mp member with rfl | member
    · apply rest.departing
      cases first with
      | unknown enters | enter enters => cases departs.symm.trans enters
      | depart _ written =>
        obtain ⟨e, named, here⟩ := written.exists_image
        exact ⟨_, here, named, rfl⟩
      | lost _ refused =>
        obtain ⟨n, refused⟩ := refused
        cases (granted n).symm.trans refused
    · exact ih member

theorem Absorbs.marked (absorbs : Absorbs grant delta entries entries')
    (marked : ∀ e ∈ entries, e.Marked) : ∀ e ∈ entries', e.Marked := by
  induction absorbs with
  | nil => exact marked
  | cons first _ ih => exact ih (first.marked marked)

/-- The delta tells of every other subject of the last view that is not in the new one, and
there is memory for the ledger. -/
def Attended (g : DeliveryGateway) (s : TieredSession) (pass : TieredPass) : Prop :=
  Enabled g →
    (∀ v ∈ s.view.tail, (∃ w ∈ pass.subjects, w.actorId = v.actorId) ∨
      ∃ d ∈ pass.delta, d.actorId = v.actorId ∧ d.kind.departure = true) ∧
    (∀ n, s.heap.grant .ledger n = true) ∧ Countable g s pass

/-- The actors a client may hold. -/
def TieredSession.cover (s : TieredSession) : List UInt64 :=
  s.view.map ViewSubject.actorId ++ s.formerSelves

structure Watched (g : DeliveryGateway) (s : TieredSession) : Prop where
  sound : Sound g s
  tracked : Tracked s.cover ⟨s.st.entries, received g s.wire.sent, []⟩

/-- An actor of the last view is in the new one, is departing, or was the session's own. -/
theorem left_view (announced : ∀ v ∈ s.view.tail, (∃ w ∈ pass.subjects, w.actorId = v.actorId) ∨
      ∃ d ∈ pass.delta, d.actorId = v.actorId ∧ d.kind.departure = true)
    (granted : ∀ n, s.heap.grant .ledger n = true) (delivers : Delivers g s pass absorbed stats s')
    (v : ViewSubject) (member : v ∈ s.view) :
    v.actorId ∈ s'.cover ∨ Departing v.actorId absorbed := by
  rw [TieredSession.cover, delivers.viewed, delivers.formerly]
  cases shown : s.view with
  | nil =>
    rw [shown] at member
    cases member
  | cons own others =>
    rw [shown] at member announced
    rcases mem_cons.mp member with rfl | member
    · left
      simp
    · rcases announced v member with ⟨w, here, same⟩ | ⟨d, here, same, departs⟩
      · left
        rw [← same]
        exact mem_append_left _ (mem_map_of_mem here)
      · right
        rw [← same]
        exact delivers.absorbs.departed granted here departs

theorem Delivers.tracked (delivers : Delivers g s pass absorbed stats s')
    (attended : Attended g s pass) (enabled : Enabled g)
    (tracked : Tracked s.cover ⟨s.st.entries, received g s.wire.sent, []⟩) :
    Tracked s'.cover ⟨s'.st.entries, received g s'.wire.sent, []⟩ := by
  obtain ⟨announced, granted, _⟩ := attended enabled
  obtain ⟨silenced, _, moves⟩ := delivers.moves
  have cover : s'.cover = pass.subjects.map ViewSubject.actorId ++
      (s.formerSelves ++ (s.view.head?.map ViewSubject.actorId).toList) := by
    rw [TieredSession.cover, delivers.viewed, delivers.formerly]
  have viewed : ∀ v ∈ pass.subjects, v.actorId ∈ s'.cover := by
    intro v member
    rw [cover]
    exact mem_append_left _ (mem_map_of_mem member)
  have start : Tracked s'.cover ⟨absorbed, received g s.wire.sent, []⟩ := by
    refine ⟨delivers.absorbs.sorted tracked.ordered, delivers.absorbs.marked tracked.marked, ?_⟩
    intro id held
    rcases tracked.tracked id held with covered | departing
    · rcases mem_append.mp covered with seen | formerly
      · obtain ⟨v, member, rfl⟩ := mem_map.mp seen
        exact left_view announced granted delivers v member
      · refine .inl ?_
        rw [cover]
        exact mem_append_right _ (mem_append_left _ formerly)
    · exact .inr (delivers.absorbs.departing departing)
  have last := start.moves viewed moves
  exact { last with }

theorem Watched.deliver (watched : Watched g s) (attended : Attended g s pass) :
    Watched g (tieredDeliver g s pass).2 := by
  by_cases enabled : Enabled g
  · obtain ⟨stats, s', absorbed, delivered, delivers⟩ :=
      tieredDeliver_delivers enabled watched.sound (attended enabled).2.2
    rw [delivered]
    exact ⟨delivers.sound watched.sound, delivers.tracked attended enabled watched.tracked⟩
  · rw [tieredDeliver_disabled enabled]
    exact watched

/-- The actor is in the session's view or has a departure pending in its ledger. -/
def Accountable (s : TieredSession) (id : UInt64) : Prop :=
  (∃ v ∈ s.view, v.actorId = id) ∨
    ∃ e ∈ s.st.entries, e.actorId = id ∧ ∃ kind, e.pendingKind = some kind ∧ kind.departure = true

/-- A pass that drops nothing tells the client every event that was pending. -/
def TellsPending (g : DeliveryGateway) (s : TieredSession) : Prop :=
  ∀ pass stats s', Attended g s pass → tieredDeliver g s pass = ((.ok, stats), s') →
    stats.dropped = 0 → ∃ told, received g s'.wire.sent = received g s.wire.sent ++ told ∧
      ∀ id, Departing id s.st.entries →
        ∃ kind, kind.departure = true ∧ (⟨id, kind⟩ : ViewEvent).record ∈ told

theorem Watched.accountable (watched : Watched g s) (id : UInt64)
    (held : holdings (received g s.wire.sent) id ≠ none) :
    Accountable s id ∨ id ∈ s.formerSelves := by
  rcases watched.tracked.tracked id held with covered | ⟨e, member, named, pending⟩
  · rcases mem_append.mp covered with seen | formerly
    · exact .inl (.inl (mem_map.mp seen))
    · exact .inr formerly
  · obtain ⟨kind, pending⟩ := Option.isSome_iff_exists.mp pending
    exact .inl (.inr ⟨e, member, named, kind, pending,
      (watched.tracked.marked e member kind pending).1⟩)

theorem Watched.tellsPending (watched : Watched g s) : TellsPending g s := by
  intro pass stats s' attended delivered success
  by_cases enabled : Enabled g
  · obtain ⟨stats', s'', absorbed, delivered', delivers⟩ :=
      tieredDeliver_delivers enabled watched.sound (attended enabled).2.2
    cases delivered.symm.trans delivered'
    obtain ⟨later, told⟩ := delivers.told success
    refine ⟨_, told.trans (append_assoc ..), ?_⟩
    intro id departing
    obtain ⟨e, member, rfl, pending⟩ := delivers.absorbs.departing departing
    obtain ⟨kind, pending⟩ := Option.isSome_iff_exists.mp pending
    refine ⟨kind, (delivers.absorbs.marked watched.tracked.marked e member kind pending).1, ?_⟩
    refine mem_append_left _ (mem_map_of_mem ?_)
    exact mem_pendingViewEvents.mpr ⟨e, member, rfl, pending⟩
  · rw [tieredDeliver_disabled enabled] at delivered
    cases delivered

end Ghosts

/-- Whatever the client holds is in the view, has a departure pending, which the next pass
that drops nothing sends, or was the session's own actor. -/
theorem no_ghost_actors (g : DeliveryGateway) (config : Option TieredConfig) (wire : Wire)
    (heap : Heap TieredSite) (start : TieredSession)
    (started : tieredSessionInit config wire heap = .ok start) (fresh : wire.sent = [])
    (passes : List TieredPass) (attended : Along (tieredStep g) (Attended g) start passes) :
    ∃ replies s, run (tieredStep g) start passes = some (replies, s) ∧ TellsPending g s ∧
      ∀ id, holdings (received g s.wire.sent) id ≠ none → Accountable s id ∨
        id ∈ s.formerSelves := by
  obtain ⟨empty, zero, same, _, _⟩ := tieredSessionInit_empty started
  have first : Watched g start := by
    refine ⟨sound_of_empty empty zero, ?_⟩
    rw [empty, same, fresh]
    exact ⟨List.Pairwise.nil, fun _ member => absurd member List.not_mem_nil,
      fun id held => absurd rfl held⟩
  have kept : ∀ s pass, Watched g s → Attended g s pass →
      ∃ r s', tieredStep g s pass = some (r, s') ∧ Watched g s' :=
    fun s pass watched attended => ⟨_, _, rfl, watched.deliver attended⟩
  obtain ⟨replies, s, ran, watched⟩ := run_invariant kept first passes attended
  exact ⟨replies, s, ran, watched.tellsPending, watched.accountable⟩

theorem no_ghost_actors_refused :
    ∃ replies s,
      run (tieredStep singleGateway) (tieredStart fun n => n ≠ 4) returningPasses =
        some (replies, s) ∧
      TellsPending singleGateway s ∧
      ∀ id, holdings (received singleGateway s.wire.sent) id ≠ none →
        Accountable s id ∨ id ∈ s.formerSelves :=
  no_ghost_actors singleGateway none ⟨fun n => n ≠ 4, 0, []⟩ ⟨fun _ _ => true, 0⟩
    (tieredStart fun n => n ≠ 4) rfl rfl returningPasses
    ⟨fun _ => ⟨by decide +kernel, fun _ => rfl, by decide +kernel⟩,
      fun _ => ⟨by decide +kernel, fun _ => rfl, by decide +kernel⟩,
      fun _ => ⟨by decide +kernel, fun _ => rfl, by decide +kernel⟩, trivial⟩

/-- The session of actor 1 is bound to actor 3 after actor 1 has left the world. -/
def reboundPasses : List TieredPass :=
  [⟨[⟨2, .enter⟩], [{ standing 1 with subjectClass := .self }, standing 2], 1000⟩,
    ⟨[], [{ standing 3 with subjectClass := .self }, standing 2], 1100⟩]

/-- No departure tells the client of the actor it was bound to. -/
theorem rebound_self_held :
    ∃ replies s,
      run (tieredStep singleGateway) (tieredStart fun _ => true) reboundPasses = some (replies, s) ∧
      holdings (received singleGateway s.wire.sent) 1 ≠ none ∧ ¬Accountable s 1 := by
  have forgotten : ∀ s : TieredSession, (∀ v ∈ s.view, v.actorId ≠ 1) →
      (∀ e ∈ s.st.entries, e.actorId ≠ 1) → ¬Accountable s 1 := by
    rintro s unseen unlisted (⟨v, member, named⟩ | ⟨e, member, named, _⟩)
    · exact unseen v member named
    · exact unlisted e member named
  exact ⟨_, _, rfl, by decide +kernel, forgotten _ (by decide +kernel) (by decide +kernel)⟩

end Kith.Gateway
