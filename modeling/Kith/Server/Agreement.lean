import Kith.Server.Wire

/-!
# Agreement of the wire with the transport

The invariant of the runs whose reads are spared what closes a connection behind
the wire's back: an exhausted ring, a refused allocation, a message callback that
closes. The next step keeps the agreement exactly when a read that closes the
connection tells the wire so.
-/

namespace Kith.Server

open Kith.Reactor Kith.Net Kith.Proto Function List

section Transport

theorem connWriteDrain_rc (script : List SendResult) (written : Nat) (s : Link) :
    (connWriteDrain script written s).1.1 = .ok ∨
      (connWriteDrain script written s).1.1 = .err .eio := by
  induction script generalizing written s with
  | nil =>
    unfold connWriteDrain
    split <;> exact .inl rfl
  | cons result script ih =>
    unfold connWriteDrain
    split
    · exact .inl rfl
    · cases result with
      | wouldBlock => exact .inl rfl
      | error => exact .inr rfl
      | intr => exact ih written s
      | sent n =>
        dsimp only
        split
        · exact .inl rfl
        · split
          · exact .inl rfl
          · exact ih _ _

theorem kithNetConnWrite_closes {s s' : Link} {rc : Rc} {script : List SendResult}
    (live : s.conn.closed = false) (written : kithNetConnWrite s script = (rc, s')) :
    rc = .err .eio ∨ ¬ (rc = .err .econnreset ∨ rc = .err .eio) ∧ s'.conn.closed = false := by
  simp only [kithNetConnWrite, live, Bool.false_eq_true, if_false] at written
  split at written
  · cases written
    exact .inr ⟨by simp, live⟩
  · have code := connWriteDrain_rc script 0 s
    have same := (connWriteDrain_untouched script 0 s).2
    rcases drained : connWriteDrain script 0 s with ⟨⟨rc, capped⟩, t⟩
    rw [drained] at code same written
    rcases code with rfl | rfl
    · cases written
      refine .inr ⟨by simp, ?_⟩
      split
      · exact same.trans live
      · exact same.trans live
    · cases written
      exact .inl rfl

theorem scriptRc_endsEntry : ∀ script, scriptRc script ≠ .ok → endsEntry (scriptRc script) = true
  | [], failed | .wouldBlock :: _, failed => absurd rfl failed
  | .error :: _, _ => rfl
  | .intr :: script, failed => scriptRc_endsEntry script failed
  | .data chunk :: script, failed => by
    revert failed
    simp only [scriptRc]
    split
    · exact fun _ => rfl
    · exact scriptRc_endsEntry script

/-- The other endings of a read that closes are those the wire acts on: the end of
the stream, a socket error and a protocol error. -/
theorem endsEntry_of_spared {call : ReadyCall} {s s' : Link} {rc : Rc}
    (spared : Net.Spared call.onMessage call.reads s) (live : s.conn.closed = false)
    (ending : ReadEnding call.onMessage call.reads s s' rc) (shut : s'.conn.closed = true) :
    endsEntry rc = true := by
  cases ending with
  | failed t _ received fatal _ =>
    rw [(spared.stored received).1] at fatal ⊢
    exact scriptRc_endsEntry _ fatal
  | rejected t u quiet _ _ ending fatal _ =>
    rw [(spared.finished live quiet ending).1, finishRc] at fatal ⊢
    grind [endsEntry]
  | returned t u quiet _ _ ending _ paused =>
    rw [paused, (spared.finished live quiet ending).2.2.2] at shut
    cases shut

end Transport

section Invariant

variable {s t : ServerWire} {slot : Nat} {wc : ServerWireConn} {link : Link}

structure SlotWired (wc : ServerWireConn) (link : Link) : Prop where
  wire : wc.wire = true
  conn : wc.conn = true
  natural : 0 ≤ wc.fd
  live : link.conn.closed = false
  ring : link.conn.inbuf.Valid

structure Wired (s : ServerWire) : Prop where
  valid : s.reactor.Valid
  slots : ∀ i, (s.conns i).closed = false → SlotWired (s.conns i) (s.links i)
  owned : Owned .conn s.reactor.entry fun i => (s.conns i).openFd
  free : ∀ i ∈ s.freeWc, i < s.connCount ∧ (s.conns i).closed = true
  nodup : s.freeWc.Nodup
  above : ∀ i, s.connCount ≤ i → (s.conns i).closed = true

theorem openFd_open (opened : wc.closed = false) : wc.openFd = some wc.fd := by
  simp [ServerWireConn.openFd, opened]

theorem openFd_closed (closed : wc.closed = true) : wc.openFd = none := by
  simp [ServerWireConn.openFd, closed]

theorem openFd_eq_some {fd : Int} : wc.openFd = some fd ↔ wc.closed = false ∧ wc.fd = fd := by
  cases closed : wc.closed with
  | true => simp [openFd_closed closed]
  | false => simp [openFd_open closed]

/-- Arming changes at most the events of the entry's registration. -/
theorem wireRearm_spec (valid : s.reactor.Valid) (slot : Nat) :
    (wireRearm s slot).reactor.Valid ∧ ((wireRearm s slot).reactor.entry = s.reactor.entry ∨
      ∃ e want, s.reactor.entry (s.conns slot).fd = some e ∧ (wireRearm s slot).reactor.entry =
        update s.reactor.entry (s.conns slot).fd (some { e with events := want })) := by
  simp only [wireRearm]
  generalize (if (kithNetConnEvents (s.links slot).conn).2 = true then
    reactorIn ||| reactorOut else reactorIn) = want
  have spec := kithReactorMod_spec valid (s.conns slot).fd want
  refine ⟨spec.valid, ?_⟩
  by_cases ok : (kithReactorMod s.reactor (s.conns slot).fd want).1 = .ok
  · obtain ⟨e, found, stored⟩ := spec.stored ok
    exact .inr ⟨e, want, found, stored⟩
  · exact .inl (spec.refused ok)

theorem Started.wired (started : Started s) : Wired s where
  valid := started.valid
  slots i opened := by simp [started.blank i] at opened
  owned := by
    rw [funext fun i => openFd_closed (started.blank i)]
    exact .start started.foreign
  free i member := by simp [started.unlisted] at member
  nodup := by simp [started.unlisted]
  above i _ := started.blank i

section

variable (wired : Wired s)
include wired

theorem Wired.agrees : Agrees s := by
  refine fun slot => ⟨fun opened => ?_, fun fd e found handler => ?_⟩
  · exact ⟨(wired.slots slot opened).conn, (wired.slots slot opened).live⟩
  · have own := wired.owned.entries fd e slot found handler
    exact (wired.slots slot (openFd_eq_some.mp own).1).live

theorem Wired.opened {fd : Int} (found : runDispatch s.reactor fd = some (.conn slot)) :
    (s.conns slot).closed = false := by
  rw [runDispatch_eq, Option.bind_eq_some_iff] at found
  obtain ⟨e, registered, named⟩ := found
  exact (openFd_eq_some.mp (wired.owned.entries fd e slot registered named)).1

theorem Wired.inside (opened : (s.conns slot).closed = false) : slot < s.connCount := by
  by_contra outside
  rw [wired.above slot (by omega)] at opened
  cases opened

theorem Wired.setLink (slot : Nat)
    (next : (s.conns slot).closed = false → link.conn.closed = false ∧ link.conn.inbuf.Valid) :
    Wired (s.setLink slot link) := { wired with
  slots i opened := by
    have before := wired.slots i opened
    by_cases h : i = slot
    · subst h
      obtain ⟨live, ring⟩ := next opened
      exact { before with
        live := by simpa [ServerWire.setLink] using live
        ring := by simpa [ServerWire.setLink] using ring }
    · simpa [ServerWire.setLink, update_of_ne h] using before }

theorem Wired.close (opened : (s.conns slot).closed = false) (link : Link) :
    Wired (serverWireConnClose (s.setLink slot link) slot) := by
  obtain ⟨wire, conn, natural, _, _⟩ := wired.slots slot opened
  obtain ⟨valid, entry⟩ := kithReactorDel_spec wired.valid (s.conns slot).fd
  have own := openFd_open opened
  simp only [serverWireConnClose, ServerWire.setLink, opened, wire, conn, natural, and_self,
    if_true, Bool.false_eq_true, if_false]
  have elsewhere : ∀ {i} {wc : ServerWireConn}, i ≠ slot →
      update s.conns slot wc i = s.conns i := fun h => update_of_ne h ..
  refine ⟨valid, fun i => ?_, ?_, fun i member => ?_, ?_, fun i bound => ?_⟩
  · by_cases h : i = slot
    · subst h
      simp
    · simp only [elsewhere h, update_of_ne h]
      exact wired.slots i
  · have all : (fun i => (update s.conns slot
        ⟨true, false, false, -1, true⟩ i).openFd) =
        update (fun i => (s.conns i).openFd) slot none := by
      funext i
      by_cases h : i = slot
      · rw [h, update_self, update_self]
        rfl
      · rw [elsewhere h, update_of_ne h]
    rw [all, entry]
    exact wired.owned.close own
  · by_cases h : i = slot
    · subst h
      exact ⟨wired.inside opened, by simp⟩
    · simpa [elsewhere h] using wired.free i (by simpa [h] using member)
  · refine nodup_cons.mpr ⟨fun member => ?_, wired.nodup⟩
    rw [(wired.free slot member).2] at opened
    cases opened
  · by_cases h : i = slot
    · simp [h]
    · simpa [elsewhere h] using wired.above i bound

theorem Wired.rearm : Wired (wireRearm s slot) := by
  obtain ⟨valid, same | ⟨e, want, found, stored⟩⟩ := wireRearm_spec wired.valid slot
  · exact { wired with valid := valid, owned := same ▸ wired.owned }
  · refine { wired with valid := valid, owned := stored ▸ ?_ }
    exact wired.owned.write fun i named => wired.owned.entries _ e i found named

theorem Wired.shut (opened : (s.conns slot).closed = false) :
    Wired (serverWireConnClose s slot) := by
  have closed := wired.close opened (s.links slot)
  rwa [ServerWire.setLink, update_eq_self] at closed

theorem Wired.accept (vacant : (s.conns slot).closed = true) {fd : Nat}
    (live : link.conn.closed = false) (ring : link.conn.inbuf.Valid)
    (fresh : ∀ i, (s.conns i).openFd ≠ some fd)
    (reactor : t.reactor = (kithReactorAdd s.reactor fd reactorIn (.conn slot)).2)
    (conns : t.conns = update s.conns slot ⟨true, true, true, fd, false⟩)
    (links : t.links = update s.links slot link)
    (free : ∀ i ∈ t.freeWc, i ∈ s.freeWc ∧ i ≠ slot) (nodup : t.freeWc.Nodup)
    (inside : slot < t.connCount) (above : s.connCount ≤ t.connCount) : Wired t := by
  have spec := kithReactorAdd_spec wired.valid fd reactorIn (.conn slot)
  have elsewhere : ∀ {i}, i ≠ slot → t.conns i = s.conns i := fun h => by
    rw [conns, update_of_ne h]
  have all : (fun i => (t.conns i).openFd) =
      update (fun i => (s.conns i).openFd) slot (some (fd : Int)) := by
    funext i
    by_cases h : i = slot
    · rw [conns, h, update_self, update_self]
      rfl
    · rw [elsewhere h, update_of_ne h]
  have assigned := wired.owned.assign (openFd_closed vacant) fresh
  refine ⟨reactor ▸ spec.valid, fun i opened => ?_, ?_, fun i member => ?_, nodup,
    fun i bound => ?_⟩
  · by_cases h : i = slot
    · rw [conns, links, h, update_self, update_self]
      exact ⟨rfl, rfl, Int.natCast_nonneg fd, live, ring⟩
    · rw [elsewhere h] at opened ⊢
      rw [links, update_of_ne h]
      exact wired.slots i opened
  · rw [all]
    by_cases ok : (kithReactorAdd s.reactor fd reactorIn (.conn slot)).1 = .ok
    · rw [reactor, (spec.stored ok).2.2]
      refine assigned.write fun i named => ?_
      cases named
      rw [update_self]
    · rw [reactor, spec.refused ok]
      exact assigned
  · obtain ⟨listed, h⟩ := free i member
    obtain ⟨below, closed⟩ := wired.free i listed
    rw [elsewhere h]
    exact ⟨by omega, closed⟩
  · rw [elsewhere (by omega)]
    exact wired.above i (by omega)

end

theorem growTable_spec (s : ServerWire) :
    ∃ ok heap cap, growTable s = (ok, { s with heap := heap, connCap := cap }) := by
  rw [growTable]
  split
  · rcases s.heap.request .table with ⟨_ | _, heap⟩
    · exact ⟨_, _, _, rfl⟩
    · exact ⟨_, _, _, rfl⟩
  · exact ⟨_, _, _, rfl⟩

variable (wired : Wired s)
include wired

theorem Wired.congr (reactor : t.reactor = s.reactor) (conns : t.conns = s.conns)
    (links : t.links = s.links) (freeWc : t.freeWc = s.freeWc)
    (connCount : t.connCount = s.connCount) : Wired t := by
  refine ⟨reactor ▸ wired.valid, ?_, ?_, ?_, freeWc ▸ wired.nodup, ?_⟩
  · rw [conns, links]
    exact wired.slots
  · rw [reactor, conns]
    exact wired.owned
  · rw [freeWc, conns, connCount]
    exact wired.free
  · rw [conns, connCount]
    exact wired.above

theorem acceptConn_wired {a : AcceptedConn}
    (fresh : a.link.conn.closed = false ∧ a.link.conn.inbuf.Valid ∧
      ∀ i, (s.conns i).openFd ≠ some a.fd) : Wired (acceptConn s a) := by
  obtain ⟨live, ring, unused⟩ := fresh
  rw [acceptConn]
  split
  · exact wired
  · rw [serverWireConnAlloc]
    cases listed : s.freeWc with
    | cons slot freeWc =>
      have nodup := wired.nodup
      rw [listed, nodup_cons] at nodup
      obtain ⟨inside, vacant⟩ := wired.free slot (by simp [listed])
      refine wired.accept vacant live ring unused rfl rfl rfl (fun i member => ⟨?_, ?_⟩) nodup.2
        inside (le_refl _)
      · rw [listed]
        exact mem_cons_of_mem slot member
      · rintro rfl
        exact nodup.1 member
    | nil =>
      obtain ⟨ok, heap, cap, grown⟩ := growTable_spec s
      rw [grown]
      cases ok with
      | false => exact wired.congr rfl rfl rfl rfl rfl
      | true =>
        dsimp only
        rcases heap.request .entry with ⟨_ | _, heap⟩
        · exact wired.congr rfl rfl rfl rfl rfl
        · refine wired.accept (wired.above _ (le_refl _)) live ring unused rfl rfl rfl
            (fun i member => ?_) ?_ (Nat.lt_succ_self _) (Nat.le_succ _)
          · change i ∈ s.freeWc at member
            simp [listed] at member
          · change s.freeWc.Nodup
            simp [listed]

theorem serverWireHandleAccept_wired {accepts : List AcceptedConn}
    (fresh : FreshAccepts accepts s) : Wired (serverWireHandleAccept s accepts) := by
  rw [serverWireHandleAccept]
  induction accepts generalizing s with
  | nil => exact wired
  | cons a accepts ih => exact ih (acceptConn_wired wired fresh.1) fresh.2

theorem serverWireArm_wired : Wired (serverWireArm s) := by
  rw [serverWireArm]
  generalize range s.connCount = slots
  induction slots generalizing s with
  | nil => exact wired
  | cons slot slots ih =>
    rw [foldl_cons]
    split
    · exact ih wired
    · exact ih wired.rearm

end Invariant

section Handler

variable {s : ServerWire} {slot : Nat} {call : ReadyCall} {events : UInt32}

theorem wireFinish_wired (wired : Wired s) (opened : (s.conns slot).closed = false)
    (events : UInt32) (call : ReadyCall) : Wired (wireFinish s slot events call) := by
  have before := wired.slots slot opened
  simp only [wireFinish, opened, Bool.false_eq_true, if_false]
  split
  · rcases written : kithNetConnWrite (s.links slot) call.sends with ⟨rc, link⟩
    have same := kithNetConnWrite_untouched (s.links slot) call.sends
    rw [written] at same
    simp only [wireWrite, written]
    rcases kithNetConnWrite_closes before.live written with rfl | ⟨mild, live⟩
    · exact wired.close opened link
    · rw [if_neg mild]
      exact (wired.setLink slot fun _ => ⟨live, by rw [same.inbuf]; exact before.ring⟩).rearm
  · exact wired.rearm

theorem wireRearm_runDispatch (valid : s.reactor.Valid) (fd : Int) :
    runDispatch (wireRearm s slot).reactor fd = runDispatch s.reactor fd := by
  rw [runDispatch_eq, runDispatch_eq]
  obtain ⟨_, same | ⟨e, want, found, stored⟩⟩ := wireRearm_spec valid slot
  · rw [same]
  · rw [stored]
    by_cases h : fd = (s.conns slot).fd
    · rw [h, update_self, found]
      rfl
    · rw [update_of_ne h]

/-- On a closed connection the rest of the handler notices nothing: the entry
stays open and the descriptors registered. -/
theorem wireFinish_unnoticed (valid : s.reactor.Valid) (opened : (s.conns slot).closed = false)
    (shut : (s.links slot).conn.closed = true) (events : UInt32) (call : ReadyCall) :
    let t := wireFinish s slot events call
    t.conns = s.conns ∧ t.links = s.links ∧
      ∀ fd, runDispatch t.reactor fd = runDispatch s.reactor fd := by
  have same : s.setLink slot (s.links slot) = s := by
    rw [ServerWire.setLink, update_eq_self]
  simp only [wireFinish, opened, Bool.false_eq_true, if_false]
  split
  · simp only [wireWrite, kithNetConnWrite, shut, if_true, same, reduceCtorEq, Rc.err.injEq,
      or_self, if_false]
    exact ⟨rfl, rfl, wireRearm_runDispatch valid⟩
  · exact ⟨rfl, rfl, wireRearm_runDispatch valid⟩

theorem disagrees_of_open {t : ServerWire} (opened : (t.conns slot).closed = false)
    (shut : (t.links slot).conn.closed = true) : ¬ Agrees t := by
  intro agrees
  have live := ((agrees slot).1 opened).2
  rw [shut] at live
  cases live

variable (wired : Wired s) (opened : (s.conns slot).closed = false)
include wired opened

/-- A read that closes the connection with another code. -/
theorem serverWireConnHandler_unhandled (unhandled : ¬ ReadHandled s slot events call) :
    ∃ s', serverWireConnHandler s slot events call = some s' ∧ (s'.conns slot).closed = false ∧
      (s'.links slot).conn.closed = true ∧
      ∀ fd, runDispatch s'.reactor fd = runDispatch s.reactor fd := by
  have wire := (wired.slots slot opened).wire
  simp only [ReadHandled, Classical.not_imp, not_forall, Bool.not_eq_true] at unhandled
  obtain ⟨calm, readable, rc, link, read, shut, other⟩ := unhandled
  obtain ⟨conns, links, registered⟩ := wireFinish_unnoticed (s := s.setLink slot link)
    wired.valid opened (by simpa [ServerWire.setLink] using shut) events call
  refine ⟨wireFinish (s.setLink slot link) slot events call, ?_, ?_, ?_, registered⟩
  · simp [serverWireConnHandler, wire, opened, calm, readable, wireRead, read, other]
  · rw [conns]
    exact opened
  · rw [links]
    simpa [ServerWire.setLink] using shut

theorem serverWireConnHandler_handled (handled : ReadHandled s slot events call) :
    ∃ s', serverWireConnHandler s slot events call = some s' ∧ Wired s' := by
  obtain ⟨wire, _, _, live, ring⟩ := wired.slots slot opened
  simp only [serverWireConnHandler, wire, opened, Bool.true_eq_false, Bool.false_eq_true, or_self,
    if_false]
  by_cases failed : events &&& (reactorHup ||| reactorErr) ≠ 0
  · exact ⟨_, if_pos failed, wired.shut opened⟩
  rw [if_neg failed]
  by_cases readable : events &&& reactorIn ≠ 0
  · rw [if_pos readable]
    obtain ⟨rc, link, read, _⟩ := kithNetConnRead_spec call.onMessage call.reads ring live
    have handled := handled (not_not.mp failed) readable rc link read
    simp only [wireRead, read, Option.map_some]
    cases ends : endsEntry rc with
    | true => exact ⟨_, rfl, wired.close opened link⟩
    | false =>
      have still : link.conn.closed = false := by
        rw [ends] at handled
        simpa using handled
      have moved := wired.setLink slot fun _ => ⟨still, (read_valid ring read).1⟩
      exact ⟨_, rfl, wireFinish_wired moved opened events call⟩
  · exact ⟨_, if_neg readable, wireFinish_wired wired opened events call⟩

end Handler

section Steps

variable {start s : ServerWire}

theorem step_spec (wired : Wired s) {op : WireOp} (fresh : op.Fresh s) :
    ∃ s', s.step op = some s' ∧ (op.Handled s → Wired s') ∧ (¬ op.Handled s → ¬ Agrees s') := by
  -- All but a read on a ready connection are handled and keep the invariant.
  have plain : ∀ {s'}, s.step op = some s' → Wired s' → op.Handled s →
      ∃ s', s.step op = some s' ∧ (op.Handled s → Wired s') ∧ (¬ op.Handled s → ¬ Agrees s') :=
    fun stepped wired' handled =>
      ⟨_, stepped, fun _ => wired', fun unhandled => absurd handled unhandled⟩
  cases op with
  | ready fd events accepts call =>
    cases found : runDispatch s.reactor fd with
    | none => exact plain (by simp [ServerWire.step, found]) wired (by simp [WireOp.Handled, found])
    | some handler =>
      cases handler with
      | listener =>
        exact plain (by simp [ServerWire.step, found])
          (serverWireHandleAccept_wired wired (fresh found)) (by simp [WireOp.Handled, found])
      | other id =>
        exact plain (by simp [ServerWire.step, found]) wired (by simp [WireOp.Handled, found])
      | conn slot =>
        have opened := wired.opened found
        have same : WireOp.Handled s (.ready fd events accepts call) ↔
            ReadHandled s slot events call := by simp [WireOp.Handled, found]
        simp only [ServerWire.step, found, same]
        by_cases handled : ReadHandled s slot events call
        · obtain ⟨s', stepped, wired'⟩ := serverWireConnHandler_handled wired opened handled
          exact ⟨s', stepped, fun _ => wired', fun unhandled => absurd handled unhandled⟩
        · obtain ⟨s', stepped, still, shut, _⟩ :=
            serverWireConnHandler_unhandled wired opened handled
          exact ⟨s', stepped, fun h => absurd h handled, fun _ => disagrees_of_open still shut⟩
  | arm => exact plain rfl (serverWireArm_wired wired) trivial
  | output slot frame =>
    by_cases attached : (s.conns slot).session = true
    · refine plain (if_pos attached) (wired.setLink slot fun opened => ?_) trivial
      obtain ⟨_, _, _, live, ring⟩ := wired.slots slot opened
      obtain ⟨same, closed⟩ := enqueue_untouched (s.links slot) frame
      exact ⟨closed.trans live, by rw [same.inbuf]; exact ring⟩
    · exact plain (if_neg attached) wired trivial

theorem WireOp.Spared.handled (wired : Wired s) {op : WireOp} (spared : op.Spared s) :
    op.Handled s := by
  cases op with
  | arm | output => trivial
  | ready fd events accepts call =>
    intro slot found calm readable rc link read shut
    obtain ⟨_, _, _, live, ring⟩ := wired.slots slot (wired.opened found)
    obtain ⟨rc', link', read', ending⟩ := kithNetConnRead_spec call.onMessage call.reads ring live
    rw [read] at read'
    cases read'
    exact endsEntry_of_spared (spared slot found calm readable) live ending shut

theorem Reaches.wired (started : Started start) (reached : Reaches start s) : Wired s := by
  induction reached with
  | start => exact started.wired
  | step op _ fresh spared stepped ih =>
    obtain ⟨s', stepped', wired, _⟩ := step_spec ih fresh
    rw [stepped] at stepped'
    cases stepped'
    exact wired (spared.handled ih)

end Steps

section Instances

def idleLink : Link :=
  .start ⟨-1, ⟨fun _ => 0, 0, 0, 0, 0, 0⟩, [], 0, false, true, buildConnCfg none⟩ pingProto
    ⟨fun _ _ => true, 0⟩

def listeningWire : ServerWire where
  reactor := listeningReactor .listener
  conns := fun _ => ⟨false, false, false, 0, true⟩
  links := fun _ => idleLink
  connCount := 0
  connCap := 16
  freeWc := []
  heap := ⟨fun _ _ => true, 0⟩

theorem listeningWire_started : Started listeningWire where
  valid := (listeningReactor_spec _).1
  foreign := listeningReactor_foreign fun i => by simp
  blank _ := rfl
  unlisted := rfl

variable (link : Link)

/-- The connection of descriptor 5 in entry 0. -/
def acceptedWire : ServerWire := acceptConn listeningWire ⟨5, link, true⟩

def acceptOp : WireOp := .ready 3 reactorIn [⟨5, link, true⟩] ⟨fun _ => [], [], []⟩

theorem listeningWire_listener : runDispatch listeningWire.reactor 3 = some .listener := by
  decide +kernel

theorem acceptedWire_reached (live : link.conn.closed = false)
    (ring : link.conn.inbuf.Valid) : Reaches listeningWire (acceptedWire link) := by
  have spared : (acceptOp link).Spared listeningWire := by
    intro slot found
    rw [listeningWire_listener] at found
    cases found
  have fresh : (acceptOp link).Fresh listeningWire := fun _ =>
    ⟨⟨live, ring, fun _ => by simp [listeningWire, ServerWireConn.openFd]⟩, trivial⟩
  have stepped : listeningWire.step (acceptOp link) = some (acceptedWire link) := by
    simp [acceptOp, ServerWire.step, listeningWire_listener, serverWireHandleAccept, foldl_cons,
      foldl_nil, acceptedWire]
  exact .step _ .start fresh spared stepped

theorem acceptedWire_registered : runDispatch (acceptedWire link).reactor 5 = some (.conn 0) := by
  have reactor : (acceptedWire link).reactor =
      (kithReactorAdd (listeningReactor Handler.listener) (5 : Nat) reactorIn (.conn 0)).2 := by
    simp [acceptedWire, acceptConn, serverWireConnAlloc, growTable, listeningWire, Heap.request,
      ServerWire.fill]
  rw [reactor]
  decide +kernel

end Instances

end Kith.Server
