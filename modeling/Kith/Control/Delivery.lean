import Mathlib.Logic.Function.Iterate
import Kith.Control.Streams

/-!
# Exactly once

A stream attaches at the head of the ring, and every step of the control plane either
leaves it, ends it or moves it on through the published events. The reclaim looks at
the cursors first and moves the tail later; no stream stands before the place it found.
-/

namespace Kith.Control

open Kith.Reactor LogRing Runs List

section Attaching

variable {parse : Nat → List UInt8 → Parsed} {s : KithControl} {slot : Nat}

/-- The handler of a connection that streams closes it, writes, or does nothing. -/
theorem controlConnEventHandler_stream
    (streaming : (s.conns slot).state = .sse ∨ (s.conns slot).state = .writing)
    (live : 0 ≤ (s.conns slot).fd) (events : UInt32) (out : Outside) :
    let t := controlConnEventHandler parse s slot events out
    (t.conns slot).sseSubscribed = false ∨ t = s ∧ readyWritten s slot events = [] ∨
      (s.conns slot).state = .writing ∧ t = handleWrite s slot ∧
        readyWritten s slot events = writtenBy s slot := by
  have busy : (s.conns slot).state ≠ .dispatching ∧ (s.conns slot).state ≠ .reading ∧
      (s.conns slot).state ≠ .responding := by
    rcases streaming with state | state <;> simp [state]
  rw [controlConnEventHandler]
  split
  · exact .inl (controlConnClose_unsubscribed live)
  · rename_i noError
    split
    · exact .inl (controlConnClose_unsubscribed live)
    · rename_i noHup
      right
      have unread : readPhase parse s slot events out = s := by
        rw [readPhase, if_neg (by simp [busy.2.1])]
      have unanswered : respondPhase s slot out = s := by
        rw [respondPhase, if_neg busy.2.2]
      have quiet : ¬ events &&& reactorHup ≠ 0 := fun hup => noHup ⟨hup, busy.1⟩
      simp only [handleReady, unread, unanswered]
      rw [readyWritten, if_neg noError, if_neg quiet, if_neg (Int.not_lt.mpr live)]
      by_cases ready : events &&& reactorOut ≠ 0
      · rw [if_pos ready]
        by_cases writing : (s.conns slot).state = .writing
        · rw [if_pos ⟨live, writing⟩, if_pos ⟨ready, writing⟩]
          exact .inr ⟨writing, rfl, rfl⟩
        · rw [if_neg (fun both => writing both.2), if_neg (fun both => writing both.2)]
          exact .inl ⟨rfl, rfl⟩
      · rw [if_neg ready, if_neg (fun both => ready both.1)]
        exact .inl ⟨rfl, rfl⟩

theorem handleAccept_plain (accepts : List Accepted) (s : KithControl) (i : Nat) :
    let t := handleAccept s accepts
    t.writeBufferCap = s.writeBufferCap ∧ t.eventBus = s.eventBus ∧
      (t.conns i = s.conns i ∨ (t.conns i).sseSubscribed = false) := by
  rw [handleAccept]
  induction accepts generalizing s with
  | nil => exact ⟨rfl, rfl, .inl rfl⟩
  | cons a accepts ih =>
    obtain ⟨cap, bus, later⟩ := ih (acceptConn s a)
    rw [foldl_cons]
    rcases acceptConn_spec s a with same | ⟨slot, c, fill, _⟩
    · rw [same] at cap bus later ⊢
      exact ⟨cap, bus, later⟩
    · refine ⟨cap.trans fill.bufferCap, bus.trans fill.bus, ?_⟩
      rcases later with same | plain
      · rw [same]
        by_cases h : i = slot
        · exact .inr (by rw [h, fill.here, fill.plain])
        · exact .inl (fill.others i h)
      · exact .inr plain

end Attaching

section Runs

variable {parse : Nat → List UInt8 → Parsed} {r : StreamRun} {t : KithControl}
  {written : Nat → List UInt8} {low keep : Nat}

/-- What holds at every point of a run: the ring holds the events from number `low`
on, no stream stands before number `keep`, and a pass that has looked at the cursors
will release up to there. -/
structure Streaming (r : StreamRun) (low keep : Nat) : Prop where
  sound : Sound r.control
  fits : ∀ e ∈ r.log, (sseLine e).length < r.control.writeBufferCap
  held : BusHolds r.control.eventBus r.log low
  forward : low ≤ keep
  within : keep ≤ r.log.length
  follow : ∀ i, (r.control.conns i).sseSubscribed = true → ∃ p, keep ≤ p ∧
    Follows r.control.eventBus.capacity.toNat r.log (r.joined i) (r.control.conns i) (r.sent i) p
  scanned : ∀ cursor, r.pass = .scanned cursor →
    cursor.toNat = keep % r.control.eventBus.capacity.toNat

/-- What a step to `t` does to the stream of a slot. -/
inductive Carries (low : Nat) (r : StreamRun) (t : KithControl) (written : Nat → List UInt8)
    (i : Nat) : Prop where
  | gone (unsubscribed : (t.conns i).sseSubscribed = false)
  | attached (before : (r.control.conns i).sseSubscribed = false)
      (now : JustAttached r.control.eventBus.head (t.conns i))
  | followed (before : (r.control.conns i).sseSubscribed = true)
      (on : ∀ p, low ≤ p → Follows r.control.eventBus.capacity.toNat r.log (r.joined i)
          (r.control.conns i) (r.sent i) p →
        (t.conns i).sseSubscribed = true →
        ∃ q, p ≤ q ∧ Follows r.control.eventBus.capacity.toNat r.log (r.joined i) (t.conns i)
          (r.sent i ++ written i) q)

variable {i : Nat}

theorem Carries.of_eq (same : t.conns i = r.control.conns i) (silent : written i = []) :
    Carries low r t written i := by
  cases before : (r.control.conns i).sseSubscribed with
  | false => exact .gone (by rw [same, before])
  | true =>
    refine .followed before fun p _ follows _ => ⟨p, le_rfl, ?_⟩
    rw [same, silent, append_nil]
    exact follows

theorem Streaming.enter (streaming : Streaming r low keep) (sound : Sound t)
    (cap : t.writeBufferCap = r.control.writeBufferCap) (bus : t.eventBus = r.control.eventBus)
    (each : ∀ i, Carries low r t written i) : Streaming (r.enter t written) low keep :=
      { streaming with
  sound := sound
  fits := by
    rw [StreamRun.enter, cap]
    exact streaming.fits
  held := by
    rw [StreamRun.enter, bus]
    exact streaming.held
  follow := by
    intro i subscribed
    simp only [StreamRun.enter, bus] at subscribed ⊢
    cases each i with
    | gone unsubscribed =>
      rw [unsubscribed] at subscribed
      cases subscribed
    | attached before now =>
      have attaches : Attaches r.control t i := ⟨before, subscribed⟩
      obtain ⟨state, _, _, sse, cursor⟩ := now subscribed
      rw [if_pos attaches, if_pos attaches]
      exact ⟨r.log.length, streaming.within, .attach streaming.held.head state sse cursor⟩
    | followed before on =>
      have stays : ¬ Attaches r.control t i := by
        intro attaches
        rw [Attaches, before] at attaches
        cases attaches.1
      obtain ⟨p, behind, follows⟩ := streaming.follow i before
      obtain ⟨q, further, follows'⟩ :=
        on p (Nat.le_trans streaming.forward behind) follows subscribed
      rw [if_neg stays, if_neg stays]
      exact ⟨q, Nat.le_trans behind further, follows'⟩
  scanned := by
    intro cursor pass
    rw [StreamRun.enter, bus]
    exact streaming.scanned cursor pass }

variable {slot : Nat} {s : KithControl}

theorem controlConnEventHandler_tended (parse : Nat → List UInt8 → Parsed)
    (kept : WellKept (s.conns slot)) (inUse : (s.conns slot).inUse = true)
    (natural : 0 ≤ (s.conns slot).fd) (events : UInt32) (out : Outside) :
    let t := controlConnEventHandler parse s slot events out
    Tended slot s t ∧
      ((s.conns slot).sseSubscribed = false → JustAttached s.eventBus.head (t.conns slot)) := by
  by_cases serving : (s.conns slot).state = .dispatching
  · obtain ⟨tended, _, fd, same⟩ :=
      controlConnEventHandler_serving parse kept natural serving events out
    exact ⟨tended, fun plain => justAttached_of_unsubscribed _ (by rw [same]; exact plain)⟩
  · have turn : Turn slot s (controlConnEventHandler parse s slot events out) :=
      controlConnEventHandler_turn (kept.unserved inUse natural serving) events out
    exact ⟨turn.tended, turn.rested.attached⟩

theorem ready_carries (streaming : Streaming r low keep) {fd : Int} {events : UInt32}
    {out : Outside} (found : runDispatch r.control.reactor fd = some (.conn slot)) (i : Nat) :
    Carries low r (controlConnEventHandler parse r.control slot events out)
      (callWritten r.control (.ready fd events out)) i := by
  obtain ⟨inUse, natural, _⟩ := streaming.sound.dispatch_open found
  have kept := streaming.sound.kept slot
  obtain ⟨tended, attached⟩ :=
    controlConnEventHandler_tended parse kept inUse natural events out
  by_cases h : i = slot
  · subst h
    have written :
        callWritten r.control (.ready fd events out) i = readyWritten r.control i events :=
      if_pos found
    cases subscribed : (r.control.conns i).sseSubscribed with
    | false => exact .attached subscribed (attached subscribed)
    | true =>
      have handled : _ ∨ controlConnEventHandler parse r.control i events out = r.control ∧ _ ∨ _ :=
        controlConnEventHandler_stream (kept.stream subscribed).2.2 natural events out
      rcases handled with gone | ⟨same, silent⟩ | ⟨writing, wrote, bytes⟩
      · exact .gone gone
      · exact .of_eq (by rw [same]) (written.trans silent)
      · refine .followed subscribed fun p _ follows still => ⟨p, le_rfl, ?_⟩
        rw [written, bytes]
        rw [wrote] at still ⊢
        rcases follows.at_rest with resting | ⟨q, e, rfl, parked⟩
        · rw [resting.state] at writing
          cases writing
        · exact parked.wrote subscribed follows.sse follows.cursor
            (handleWrite_wrote follows.sse parked.short.le natural) still
  · refine .of_eq (tended.others i h) (if_neg ?_)
    rw [found]
    simpa using fun same => h same.symm

theorem served_carries {i slot : Nat} (plain : (r.control.conns slot).sseSubscribed = false)
    (others : ∀ j, j ≠ slot → t.conns j = r.control.conns j)
    (attached : JustAttached r.control.eventBus.head (t.conns slot)) (silent : written i = []) :
    Carries low r t written i := by
  by_cases h : i = slot
  · subst h
    exact .attached plain attached
  · exact .of_eq (others i h) silent

theorem Sound.plain (sound : Sound s) (member : slot ∈ s.handed) :
    (s.conns slot).sseSubscribed = false :=
  (sound.kept slot).plain (by simp [sound.serving slot member])

theorem controlRouteWorkerTask_plain (s : KithControl) (finalizing : Bool)
    (resp : Response) (posted : Bool) (plain : (s.conns slot).sseSubscribed = false) :
    let t := controlRouteWorkerTask s slot finalizing resp posted
    t.writeBufferCap = s.writeBufferCap ∧ t.eventBus = s.eventBus ∧
      (∀ j, j ≠ slot → t.conns j = s.conns j) ∧ (t.conns slot).sseSubscribed = false := by
  rw [controlRouteWorkerTask]
  split
  · exact ⟨rfl, rfl, fun _ _ => rfl, plain⟩
  · split
    all_goals
      refine ⟨rfl, rfl, fun j apart => Function.update_of_ne apart .., ?_⟩
      simpa using plain

theorem Streaming.call (streaming : Streaming r low keep) {op : ControlOp}
    (free : StreamOp.Free r (.call op)) (silent : ∀ event, op ≠ .publish event) :
    Streaming (r.enter (r.control.step parse op) (callWritten r.control op)) low keep := by
  have handed := streaming.sound
  cases op with
  | publish event => exact absurd rfl (silent event)
  | sseFlush => exact free.elim
  | ready fd events out =>
    have sound : Sound (r.control.step parse (.ready fd events out)) :=
      streaming.sound.step parse free.2
    simp only [KithControl.step] at sound ⊢
    split at sound
    · rename_i found
      have plain := handleAccept_plain out.accepts r.control
      refine streaming.enter sound (plain 0).1 (plain 0).2.1 fun i => ?_
      rcases (plain i).2.2 with same | gone
      · exact .of_eq same (if_neg (by simp [found]))
      · exact .gone gone
    · rename_i slot found
      obtain ⟨inUse, natural, _⟩ := handed.dispatch_open found
      have frame := (controlConnEventHandler_tended parse (handed.kept slot) inUse natural
        events out).1.frame
      exact streaming.enter sound frame.bufferCap frame.bus (ready_carries streaming found)
    · rename_i unfound
      refine streaming.enter sound rfl rfl fun i => .of_eq rfl (if_neg fun found => unfound i found)
  | worker slot finalizing resp posted =>
    have sound : Sound (r.control.step parse (.worker slot finalizing resp posted)) :=
      streaming.sound.step parse trivial
    simp only [KithControl.step] at sound ⊢
    by_cases member : slot ∈ r.control.jobs
    · rw [if_pos member] at sound ⊢
      have plain := handed.plain (mem_append_left _ member)
      obtain ⟨cap, bus, others, still⟩ :=
        controlRouteWorkerTask_plain { r.control with jobs := r.control.jobs.erase slot } finalizing
          resp posted plain
      refine streaming.enter sound cap bus fun i => ?_
      exact served_carries plain others (justAttached_of_unsubscribed _ still) rfl
    · rw [if_neg member] at sound ⊢
      exact streaming.enter sound rfl rfl fun i => .of_eq rfl rfl
  | flush =>
    have sound : Sound (r.control.step parse .flush) := streaming.sound.step parse trivial
    simp only [KithControl.step] at sound ⊢
    split at sound
    · exact streaming.enter sound rfl rfl fun i => .of_eq rfl rfl
    · rename_i slot rest next
      have member : slot ∈ r.control.handed := by simp [KithControl.handed, next]
      have serving := handed.serving slot member
      have left : Finished slot { r.control with tasks := rest }
          (controlConnFlushTask { r.control with tasks := rest } slot) :=
        controlConnFlushTask_finished (handed.kept slot) serving
      have plain := handed.plain member
      refine streaming.enter sound left.frame.bufferCap left.frame.bus fun i => ?_
      exact served_carries plain left.others (left.attached plain) rfl

theorem controlEventBusPublish_capacity (bus : EventBus) (event : EventRecord) :
    (controlEventBusPublish bus event).2.capacity = bus.capacity := by
  simp only [controlEventBusPublish]
  split <;> rfl

theorem Streaming.publish (streaming : Streaming r low keep) {event : EventRecord}
    (fits : StreamOp.Fits r (.call (.publish event))) :
    Streaming (r.step parse (.call (.publish event))) low keep := by
  have kept : ∀ i, ¬ Attaches r.control (r.control.step parse (.publish event)) i := by
    intro i attaches
    rw [Attaches, KithControl.step, attaches.1] at attaches
    cases attaches.2
  have sound : Sound (r.control.step parse (.publish event)) := streaming.sound.step parse trivial
  constructor
  · exact sound
  · intro e member
    rcases mem_append.mp member with old | new
    · exact streaming.fits e old
    · simp only [callPublished] at new
      split at new
      · rw [mem_singleton.mp new]
        exact fits
      · cases new
  · exact streaming.held.publish event
  · exact streaming.forward
  · have within := streaming.within
    simp only [StreamRun.step, length_append]
    omega
  · intro i subscribed
    obtain ⟨p, behind, follows⟩ := streaming.follow i subscribed
    refine ⟨p, behind, ?_⟩
    simp only [StreamRun.step, StreamRun.enter, callWritten, append_nil]
    rw [if_neg (kept i), if_neg (kept i)]
    simp only [KithControl.step]
    rw [controlEventBusPublish_capacity]
    exact follows.append _
  · intro cursor pass
    have same := controlEventBusPublish_capacity r.control.eventBus event
    simp only [StreamRun.step, StreamRun.enter, KithControl.step, same]
    exact streaming.scanned cursor pass

theorem Streaming.pass (streaming : Streaming r low keep) (slot : Nat) :
    Streaming (r.enter (sseFlushConn r.control slot)
      (fun i => if i = slot then passWritten r.control slot else [])) low keep := by
  have sound : Sound (sseFlushConn r.control slot) :=
    streaming.sound.move
      (sseFlushConn_move streaming.sound.toArmed slot : Move (fun _ _ => False) _ _)
  have tended := sseFlushConn_tended (streaming.sound.kept slot)
  refine streaming.enter sound tended.frame.bufferCap tended.frame.bus fun i => ?_
  by_cases h : i = slot
  · subst h
    cases subscribed : (r.control.conns i).sseSubscribed with
    | false =>
      have skipped : sseFlushConn r.control i = r.control := by
        rw [sseFlushConn, if_pos (.inr (.inl subscribed))]
      exact .gone (by rw [skipped, subscribed])
    | true =>
      refine .followed subscribed fun p ahead follows still => ?_
      rw [if_pos rfl]
      exact sseFlushConn_follows streaming.sound streaming.held follows ahead subscribed
        streaming.fits still
  · exact .of_eq (tended.others i h) (if_neg h)

section Reclaim

variable {s : KithControl} {log : List EventRecord} {pos : Nat → Nat}

/-- The best cursor after the slots that `seen` names: no stream among them stands
before it. -/
inductive Least (s : KithControl) (log : List EventRecord) (low : Nat) (pos : Nat → Nat)
    (seen : Nat → Prop) : Option (UInt32 × UInt32) → Prop where
  | none (free : ∀ i, seen i → (s.conns i).sseSubscribed = false) : Least s log low pos seen none
  | some (q : Nat) {dist cursor : UInt32} (forward : low ≤ q) (within : q ≤ log.length)
      (at_dist : dist.toNat = q - low) (at_cursor : cursor.toNat = q % s.eventBus.capacity.toNat)
      (least : ∀ i, seen i → (s.conns i).sseSubscribed = true → q ≤ pos i) :
      Least s log low pos seen (some (dist, cursor))

/-- The cursors of the streams stand at the events that `pos` numbers. -/
def At (s : KithControl) (log : List EventRecord) (low : Nat) (pos : Nat → Nat) : Prop :=
  ∀ i, (s.conns i).sseSubscribed = true →
    low ≤ pos i ∧ pos i ≤ log.length ∧
      (s.conns i).sseCursor.toNat = pos i % s.eventBus.capacity.toNat

variable (sound : Sound s) (held : BusHolds s.eventBus log low) (at_pos : At s log low pos)
include sound held at_pos

theorem Least.step {seen : Nat → Prop} {best : Option (UInt32 × UInt32)}
    (least : Least s log low pos seen best) (slot : Nat) :
    Least s log low pos (fun i => seen i ∨ i = slot) (minCursor s best slot) := by
  simp only [minCursor]
  cases subscribed : (s.conns slot).sseSubscribed with
  | false =>
    rw [if_pos (.inr rfl)]
    cases least with
    | none free =>
      refine .none fun i hi => ?_
      rcases hi with before | rfl
      · exact free i before
      · exact subscribed
    | some q forward within at_dist at_cursor least =>
      refine .some q forward within at_dist at_cursor fun i hi streaming => ?_
      rcases hi with before | rfl
      · exact least i before streaming
      · rw [subscribed] at streaming
        cases streaming
  | true =>
    have inUse := ((sound.kept slot).stream subscribed).1
    obtain ⟨forward, within, cursor⟩ := at_pos slot subscribed
    have room := held.holds.room
    have away := held.distance cursor held.tail forward (by omega)
    rw [if_neg (by simp [inUse])]
    cases least with
    | none free =>
      refine .some (pos slot) forward within away cursor fun i hi streaming => ?_
      rcases hi with before | rfl
      · rw [free i before] at streaming
        cases streaming
      · exact le_rfl
    | some q forward' within' at_dist at_cursor least =>
      dsimp only
      split
      · rename_i nearer
        rw [UInt32.lt_iff_toNat_lt, away, at_dist] at nearer
        refine .some (pos slot) forward within away cursor fun i hi streaming => ?_
        rcases hi with before | rfl
        · have := least i before streaming
          omega
        · exact le_rfl
      · rename_i further
        rw [UInt32.lt_iff_toNat_lt, away, at_dist] at further
        refine .some q forward' within' at_dist at_cursor fun i hi streaming => ?_
        rcases hi with before | rfl
        · exact least i before streaming
        · omega

theorem least_range (n : Nat) :
    Least s log low pos (· < n) ((range n).foldl (minCursor s) none) := by
  induction n with
  | zero => exact .none fun i hi => absurd hi (Nat.not_lt_zero i)
  | succ n ih =>
    rw [range_succ, foldl_append, foldl_cons, foldl_nil]
    have next := ih.step sound held at_pos n
    have same : (fun i => i < n ∨ i = n) = (· < n + 1) := by
      funext i
      exact propext Nat.lt_succ_iff_lt_or_eq.symm
    rw [same] at next
    exact next

theorem reclaimCursor_spec :
    ∃ q, low ≤ q ∧ q ≤ log.length ∧
      (reclaimCursor s).toNat = q % s.eventBus.capacity.toNat ∧
      ∀ i, (s.conns i).sseSubscribed = true → q ≤ pos i := by
  have below : ∀ i, (s.conns i).sseSubscribed = true → i < s.connCount := fun i subscribed =>
    sound.below i ((sound.kept i).stream subscribed).1
  have least := least_range sound held at_pos s.connCount
  rw [reclaimCursor]
  generalize (range s.connCount).foldl (minCursor s) none = best at least ⊢
  cases least with
  | none free =>
    refine ⟨log.length, held.holds.le, le_rfl, held.head, fun i subscribed => ?_⟩
    rw [free i (below i subscribed)] at subscribed
    cases subscribed
  | some q forward within _ at_cursor least =>
    exact ⟨q, forward, within, at_cursor, fun i subscribed =>
      least i (below i subscribed) subscribed⟩

end Reclaim

section

variable (streaming : Streaming r low keep)
include streaming

theorem Streaming.flushStep : ∃ low keep, Streaming r.flushStep low keep := by
  rw [StreamRun.flushStep]
  split
  · exact ⟨low, keep, { streaming with scanned := fun _ pass => by cases pass }⟩
  · rename_i slot _
    split
    · exact ⟨low, keep, { streaming.pass slot with scanned := fun _ pass => by cases pass }⟩
    · -- The cursors found now bound the streams until the release.
      have placed : ∀ i, ∃ p, (r.control.conns i).sseSubscribed = true → keep ≤ p ∧
          Follows r.control.eventBus.capacity.toNat r.log (r.joined i) (r.control.conns i)
            (r.sent i) p := by
        intro i
        by_cases subscribed : (r.control.conns i).sseSubscribed = true
        · obtain ⟨p, follows⟩ := streaming.follow i subscribed
          exact ⟨p, fun _ => follows⟩
        · exact ⟨0, fun streams => absurd streams subscribed⟩
      obtain ⟨pos, follows⟩ := Classical.skolem.mp placed
      have at_pos : At r.control r.log low pos := fun i subscribed =>
        ⟨Nat.le_trans streaming.forward (follows i subscribed).1, (follows i subscribed).2.within,
          (follows i subscribed).2.cursor⟩
      obtain ⟨q, forward, within, cursor, least⟩ :=
        reclaimCursor_spec streaming.sound streaming.held at_pos
      refine ⟨low, q, streaming.sound, streaming.fits, streaming.held, forward, within,
        fun i subscribed => ⟨pos i, least i subscribed, (follows i subscribed).2⟩, ?_⟩
      rintro _ ⟨⟩
      exact cursor
  · rename_i cursor pass
    have at_keep := streaming.scanned cursor pass
    have capacity : (controlEventBusRelease r.control.eventBus cursor).capacity =
        r.control.eventBus.capacity := by
      simp only [controlEventBusRelease]
      split <;> rfl
    have move : Move (fun _ _ => False) r.control { r.control with
        eventBus := controlEventBusRelease r.control.eventBus cursor } :=
      .still rfl rfl rfl rfl ⟨rfl, rfl, rfl⟩
    refine ⟨keep, keep, streaming.sound.move move, streaming.fits,
      streaming.held.release streaming.forward streaming.within at_keep, le_rfl, streaming.within,
      fun i subscribed => ?_, fun _ pass => by cases pass⟩
    simp only [capacity]
    exact streaming.follow i subscribed

theorem Streaming.step {op : StreamOp} (free : op.Free r)
    (fits : op.Fits r) : ∃ low keep, Streaming (r.step parse op) low keep := by
  cases op with
  | flush => exact streaming.flushStep
  | call op =>
    by_cases publishing : ∃ event, op = .publish event
    · obtain ⟨event, rfl⟩ := publishing
      exact ⟨low, keep, streaming.publish fits⟩
    · have silent : ∀ event, op ≠ .publish event := fun event same => publishing ⟨event, same⟩
      have unpublished : callPublished r.control op = [] := by
        cases op with
        | publish event => exact absurd rfl (silent event)
        | _ => rfl
      have next : r.step parse (.call op) =
          r.enter (r.control.step parse op) (callWritten r.control op) := by
        rw [StreamRun.step, unpublished, append_nil, StreamRun.enter]
      rw [next]
      exact ⟨low, keep, streaming.call free silent⟩

/-- What an attached stream has and what it can still get: the lines of the first `n`
events published after it attached, perhaps the beginning of the next line, with the
rest of that line in the write buffer, and every later event in the ring. -/
inductive Delivered (r : StreamRun) (i : Nat) : Prop where
  | whole (n : Nat) (within : r.joined i + n ≤ r.log.length)
      (lines : r.sent i = linesOf ((r.log.drop (r.joined i)).take n))
      (ring : (controlEventBusDrain r.control.eventBus r.log.length
        (r.control.conns i).sseCursor).1 = r.log.drop (r.joined i + n))
  | begun (n : Nat) (e : EventRecord) (entry : r.log[r.joined i + n]? = some e) (out : Nat)
      (short : out < (sseLine e).length)
      (lines : r.sent i = linesOf ((r.log.drop (r.joined i)).take n) ++ (sseLine e).take out)
      (buffer : (r.control.conns i).resp.bytes.drop (r.control.conns i).writePos =
        (sseLine e).drop out)
      (ring : (controlEventBusDrain r.control.eventBus r.log.length
        (r.control.conns i).sseCursor).1 = r.log.drop (r.joined i + n + 1))

theorem Streaming.delivered
    (subscribed : (r.control.conns i).sseSubscribed = true) : Delivered r i := by
  obtain ⟨p, ahead, follows⟩ := streaming.follow i subscribed
  have ring := streaming.held.drain_all (Nat.le_trans streaming.forward ahead) follows.within
    follows.cursor
  rcases follows.at_rest with resting | ⟨q, e, rfl, parked⟩
  · have there : r.joined i + (p - r.joined i) = p := Nat.add_sub_cancel' follows.behind
    refine .whole (p - r.joined i) (by rw [there]; exact follows.within) resting.bytes ?_
    rw [there]
    exact ring
  · have there : r.joined i + (q - r.joined i) = q := Nat.add_sub_cancel' parked.behind
    refine .begun (q - r.joined i) e (by rw [there]; exact parked.entry)
      (r.control.conns i).writePos ?_ parked.bytes (by rw [parked.line]) ?_
    · have short := parked.short
      rw [Response.len, parked.line] at short
      exact short
    · rw [there]
      exact ring

end

theorem Delivered.sent_isPrefix (delivered : Delivered r i) :
    r.sent i <+: linesOf (r.log.drop (r.joined i)) := by
  have parts : ∀ n, linesOf (r.log.drop (r.joined i)) =
      linesOf ((r.log.drop (r.joined i)).take n) ++ linesOf (r.log.drop (r.joined i + n)) := by
    intro n
    rw [← drop_drop]
    simp only [linesOf]
    rw [← flatten_append, ← map_append, take_append_drop]
  cases delivered with
  | whole n _ lines _ =>
    rw [lines, parts n]
    exact prefix_append ..
  | begun n e entry out _ lines _ _ =>
    obtain ⟨inside, same⟩ := List.getElem?_eq_some_iff.mp entry
    have next : linesOf (r.log.drop (r.joined i + n)) =
        sseLine e ++ linesOf (r.log.drop (r.joined i + n + 1)) := by
      rw [drop_eq_getElem_cons inside, same]
      simp [linesOf]
    rw [lines, parts n, next]
    exact prefix_append_right_inj _ |>.mpr ((List.take_prefix ..).trans (prefix_append ..))

def StreamRun.opened (s : KithControl) : StreamRun := ⟨s, [], fun _ => 0, fun _ => [], .idle⟩

theorem opened_streaming (begun : Begun s)
    (positive : 0 < s.eventBus.capacity.toNat) (bound : s.eventBus.capacity.toNat ≤ 2 ^ 31)
    (empty : s.eventBus.head = 0 ∧ s.eventBus.tail = 0) : Streaming (.opened s) 0 0 where
  sound := begun.sound
  fits := fun e member => by cases member
  held := by
    refine ⟨bound, ⟨le_rfl, ?_, fun p inside => absurd inside (Nat.not_lt_zero p)⟩, ?_, ?_⟩
    · simpa [StreamRun.opened] using positive
    · simp [StreamRun.opened, empty.1]
    · simp [StreamRun.opened, empty.2]
  forward := le_rfl
  within := le_rfl
  follow := by
    intro i subscribed
    rw [StreamRun.opened, begun.started.blank i] at subscribed
    cases subscribed
  scanned := fun _ pass => by cases pass

theorem streaming_reached {start : KithControl} (begun : Begun start)
    (positive : 0 < start.eventBus.capacity.toNat)
    (bound : start.eventBus.capacity.toNat ≤ 2 ^ 31)
    (empty : start.eventBus.head = 0 ∧ start.eventBus.tail = 0)
    (path : Path (StreamRun.step parse) (fun r op => op.Free r ∧ op.Fits r) (.opened start) r) :
    ∃ low keep, Streaming r low keep :=
  path.invariant (fun r => ∃ low keep, Streaming r low keep)
    (fun _ _ ⟨_, _, streaming⟩ guard => streaming.step guard.1 guard.2)
    ⟨0, 0, opened_streaming begun positive bound empty⟩

/-- In every run whose events all fit the write buffers, a stream gets the events
published after it attached, in order and each once, and none leaves the ring before
the stream has it. -/
theorem streams_exactly_once {start : KithControl} (begun : Begun start)
    (positive : 0 < start.eventBus.capacity.toNat)
    (bound : start.eventBus.capacity.toNat ≤ 2 ^ 31)
    (empty : start.eventBus.head = 0 ∧ start.eventBus.tail = 0)
    (path : Path (StreamRun.step parse) (fun r op => op.Free r ∧ op.Fits r) (.opened start) r)
    (i : Nat) (subscribed : (r.control.conns i).sseSubscribed = true) : Delivered r i := by
  obtain ⟨low, keep, streaming⟩ := streaming_reached begun positive bound empty path
  exact streaming.delivered subscribed

theorem flushStep_slots (sound : Sound r.control) (n : Nat)
    (pass : r.pass = .flushing slot) (left : slot + n = r.control.connCount) :
    (StreamRun.flushStep^[n] r).pass = .flushing (StreamRun.flushStep^[n] r).control.connCount ∧
      (StreamRun.flushStep^[n] r).control =
        (range' slot n).foldl sseFlushConn r.control := by
  induction n generalizing r slot with
  | zero =>
    refine ⟨?_, rfl⟩
    rw [Function.iterate_zero, id, pass, ← left, Nat.add_zero]
  | succ n ih =>
    have next : r.flushStep = { r.enter (sseFlushConn r.control slot)
        (fun i => if i = slot then passWritten r.control slot else []) with
        pass := .flushing (slot + 1) } := by
      rw [StreamRun.flushStep, pass]
      exact if_pos (by omega)
    have count := (sseFlushConn_tended (sound.kept slot)).frame.count
    have move : Move (fun _ _ => False) r.control (sseFlushConn r.control slot) :=
      sseFlushConn_move sound.toArmed slot
    have later := @ih r.flushStep
    rw [next] at later
    rw [Function.iterate_succ_apply, next, range'_succ, foldl_cons]
    refine later (sound.move move) rfl ?_
    simp only [StreamRun.enter, count]
    omega

/-- A pass that nothing interrupts is `control_sse_flush`. -/
theorem uninterrupted_pass (sound : Sound r.control) (idle : r.pass = .idle) :
    (StreamRun.flushStep^[r.control.connCount + 3] r).control = controlSseFlush r.control ∧
      (StreamRun.flushStep^[r.control.connCount + 3] r).pass = .idle := by
  have first : r.flushStep = { r with pass := .flushing 0 } := by rw [StreamRun.flushStep, idle]
  have slots := flushStep_slots (r := { r with pass := .flushing 0 }) sound r.control.connCount rfl
    (Nat.zero_add _)
  rw [Function.iterate_succ_apply, first, Function.iterate_succ_apply',
    Function.iterate_succ_apply']
  generalize StreamRun.flushStep^[r.control.connCount] { r with pass := .flushing 0 } = u at slots ⊢
  have scanned : u.flushStep = { u with pass := .scanned (reclaimCursor u.control) } := by
    rw [StreamRun.flushStep, slots.1]
    exact if_neg (Nat.lt_irrefl _)
  rw [scanned, StreamRun.flushStep]
  refine ⟨?_, rfl⟩
  rw [controlSseFlush, range_eq_range', ← slots.2]
  rfl

end Runs

section Instances

/-- A control plane whose sockets take 64 bytes a write. -/
def broadcasting : KithControl := listening fun _ => .wrote 63

def attach : ControlOp :=
  .ready 5 reactorIn
    ⟨[], [.data 71 (ascii "ET / HTTP/1.1\r\n\r\n")], ⟨0, ⟨[1, 2, 3], true⟩⟩, false⟩

theorem broadcasting_begun : Begun broadcasting :=
  ⟨{ listening_started fun _ => .wrote 63 with }, rfl, rfl⟩

def tuned : StreamRun :=
  ((StreamRun.opened broadcasting).step rootOnly (.call dial)).step rootOnly (.call attach)

theorem tuned_reached : Path (StreamRun.step rootOnly) (fun r op => op.Free r ∧ op.Fits r)
    (.opened broadcasting) tuned :=
  .step _ (.step _ .start ⟨⟨rfl, fun _ => ⟨listening_unused _, trivial⟩⟩, trivial⟩)
    ⟨⟨rfl, fun _ => trivial⟩, trivial⟩

def published (first second : EventRecord) : StreamRun :=
  (tuned.step rootOnly (.call (.publish first))).step rootOnly (.call (.publish second))

/-- Both events wait when the pass starts, and their lines are on the stream when it ends. -/
theorem published_pass : let r := published ⟨1, ascii "a"⟩ ⟨2, ascii "b"⟩
    r.control.connCount = 1 ∧ (r.control.conns 0).sseSubscribed = true ∧ r.sent 0 = [] ∧
    (StreamRun.flushStep^[4] r).control = controlSseFlush r.control ∧
    (StreamRun.flushStep^[4] r).pass = .idle ∧
    (StreamRun.flushStep^[4] r).sent 0 = sseLine ⟨1, ascii "a"⟩ ++ sseLine ⟨2, ascii "b"⟩ := by
  have path : Path _ _ _ (published ⟨1, ascii "a"⟩ ⟨2, ascii "b"⟩) :=
    .step _ (.step _ tuned_reached ⟨trivial, by decide +kernel⟩) ⟨trivial, by decide +kernel⟩
  obtain ⟨low, keep, streaming⟩ := streaming_reached broadcasting_begun (by decide) (by decide)
    ⟨rfl, rfl⟩ path
  have one : (published ⟨1, ascii "a"⟩ ⟨2, ascii "b"⟩).control.connCount = 1 := by decide +kernel
  obtain ⟨flushed, idle⟩ := uninterrupted_pass streaming.sound rfl
  rw [one] at flushed idle
  exact ⟨one, by decide +kernel, by decide +kernel, flushed, idle, by decide +kernel⟩

/-- The pass comes to the slot. -/
def streamed (first second : EventRecord) : StreamRun :=
  ((published first second).step rootOnly .flush).step rootOnly .flush

theorem streamed_reached {guard : StreamRun → StreamOp → Prop} {first second : EventRecord}
    (before : Path (StreamRun.step rootOnly) guard (.opened broadcasting) tuned)
    (one : guard tuned (.call (.publish first)))
    (two : guard (tuned.step rootOnly (.call (.publish first))) (.call (.publish second)))
    (flushes : ∀ r, guard r .flush) :
    Path (StreamRun.step rootOnly) guard (.opened broadcasting) (streamed first second) :=
  .step _ (.step _ (.step _ (.step _ before one) two) (flushes _)) (flushes _)

theorem streams_exactly_once_streamed :
    (streamed ⟨1, ascii "a"⟩ ⟨2, ascii "b"⟩).sent 0 =
        sseLine ⟨1, ascii "a"⟩ ++ sseLine ⟨2, ascii "b"⟩ ∧
      Delivered (streamed ⟨1, ascii "a"⟩ ⟨2, ascii "b"⟩) 0 := by
  have path : Path _ _ _ (streamed ⟨1, ascii "a"⟩ ⟨2, ascii "b"⟩) := streamed_reached tuned_reached
    ⟨trivial, by decide +kernel⟩ ⟨trivial, by decide +kernel⟩ fun _ => ⟨trivial, trivial⟩
  exact ⟨by decide +kernel, streams_exactly_once broadcasting_begun (by decide) (by decide)
    ⟨rfl, rfl⟩ path 0 (by decide +kernel)⟩

/-- The line of the first event does not fit the write buffer; the stream gets the
second event alone. -/
theorem long_line_skipped :
    Path (StreamRun.step rootOnly) (fun r op => op.Free r) (.opened broadcasting)
        (streamed ⟨1, List.replicate 63 97⟩ ⟨2, ascii "b"⟩) ∧
      (streamed ⟨1, List.replicate 63 97⟩ ⟨2, ascii "b"⟩).log =
        [⟨1, List.replicate 63 97⟩, ⟨2, ascii "b"⟩] ∧
      (streamed ⟨1, List.replicate 63 97⟩ ⟨2, ascii "b"⟩).joined 0 = 0 ∧
      (streamed ⟨1, List.replicate 63 97⟩ ⟨2, ascii "b"⟩).sent 0 = sseLine ⟨2, ascii "b"⟩ ∧
      ¬ Delivered (streamed ⟨1, List.replicate 63 97⟩ ⟨2, ascii "b"⟩) 0 := by
  refine ⟨?_, by decide +kernel, by decide +kernel, by decide +kernel, fun delivered => ?_⟩
  · exact streamed_reached (tuned_reached.weaken fun _ _ guard => guard.1) trivial trivial
      fun _ => trivial
  · exact absurd delivered.sent_isPrefix (by decide +kernel)

end Instances

end Kith.Control
