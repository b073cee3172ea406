import Kith.Lib.Runs
import Kith.Control.Drain

/-!
# Requests that a worker serves

A request for a Python-bound route is handed to the worker pool: the connection
goes to DISPATCHING, the worker runs the handler on the connection's buffers and
posts a flush back to the reactor, and the flush writes the response out or, if
the connection was closed in the meantime, frees the slot. The results here are
about that hand-off in every run: what a serving handler can rely on, when a slot
is freed, and what a refused post leaves behind.
-/

namespace Kith.Control

open Kith.Reactor Function List

section Hands

open Relation (ReflTransGen)

variable {slot : Nat} {s t : KithControl} {returns : Nat → Bool → Prop} {i : Nat}

/-- The slots of the pool's and the reactor's tasks. -/
def KithControl.handed (s : KithControl) : List Nat := s.jobs ++ s.tasks

/-- What holds of the hand-off between two callbacks: every task is for a served
connection, and there is one for each. -/
structure HandedOff (s : KithControl) : Prop where
  serving : ∀ i ∈ s.handed, (s.conns i).state = .dispatching
  once : s.handed.Nodup
  below : ∀ i, (s.conns i).inUse = true → i < s.connCount
  caps : ∀ i, (s.conns i).inUse = true → (s.conns i).writeCap = s.writeBufferCap

structure Sound (s : KithControl) : Prop extends Armed s, HandedOff s

theorem handed_of_eq (jobs : t.jobs = s.jobs) (tasks : t.tasks = s.tasks) :
    t.handed = s.handed := by
  rw [KithControl.handed, KithControl.handed, jobs, tasks]

theorem handed_returned {posted : Bool} (member : slot ∈ s.jobs) (jobs : t.jobs = s.jobs.erase slot)
    (tasks : t.tasks = if posted then s.tasks ++ [slot] else s.tasks) :
    (posted = true → ∀ i ∈ s.handed, i ∈ t.handed) ∧ (∀ i ∈ t.handed, i ∈ s.handed) ∧
      (s.handed.Nodup → t.handed.Nodup) := by
  have perm : (s.jobs.erase slot ++ (s.tasks ++ [slot])).Perm s.handed := by
    rw [← append_assoc]
    refine (perm_append_singleton ..).trans ?_
    exact (perm_cons_erase member).symm.append_right _
  have fewer : (s.jobs.erase slot ++ s.tasks).Sublist s.handed :=
    erase_sublist.append_right _
  rw [KithControl.handed.eq_def t, jobs, tasks]
  cases posted with
  | true =>
    exact ⟨fun _ i hi => perm.symm.subset hi, fun i hi => perm.subset hi, perm.nodup_iff.mpr⟩
  | false =>
    exact ⟨fun posted => absurd posted (by decide), fun i hi => fewer.subset hi, fewer.nodup⟩

theorem HandedOff.update (handed : HandedOff s) (slot : Nat)
    (others : ∀ i, i ≠ slot → t.conns i = s.conns i)
    (members : ∀ i ∈ t.handed, i ≠ slot → i ∈ s.handed)
    (serving : slot ∈ t.handed → (t.conns slot).state = .dispatching) (once : t.handed.Nodup)
    (count : s.connCount ≤ t.connCount) (bufferCap : t.writeBufferCap = s.writeBufferCap)
    (within : (t.conns slot).inUse = true →
      slot < t.connCount ∧ (t.conns slot).writeCap = s.writeBufferCap) : HandedOff t := by
  refine ⟨fun i hi => ?_, once, fun i inUse => ?_, fun i inUse => ?_⟩
  · by_cases h : i = slot
    · subst h
      exact serving hi
    · rw [others i h]
      exact handed.serving i (members i hi h)
  · by_cases h : i = slot
    · subst h
      exact (within inUse).1
    · rw [others i h] at inUse
      exact (handed.below i inUse).trans_le count
  · rw [bufferCap]
    by_cases h : i = slot
    · subst h
      exact (within inUse).2
    · rw [others i h] at inUse ⊢
      exact handed.caps i inUse

theorem HandedOff.tended (handed : HandedOff s) (inUse : (s.conns slot).inUse = true)
    (tended : Tended slot s t) (members : ∀ i ∈ t.handed, i ≠ slot → i ∈ s.handed)
    (serving : slot ∈ t.handed → (t.conns slot).state = .dispatching) (once : t.handed.Nodup) :
    HandedOff t :=
  handed.update slot tended.others members serving once tended.frame.count.ge tended.frame.bufferCap
    fun _ =>
      ⟨tended.frame.count ▸ handed.below slot inUse, tended.cap.trans (handed.caps slot inUse)⟩

theorem Sound.not_mem_of_free (sound : Sound s) (free : (s.conns slot).inUse = false) :
    slot ∉ s.handed := by
  intro member
  have inUse := (sound.kept slot).serving (sound.serving slot member)
  rw [free] at inUse
  cases inUse

theorem mem_handed_dispatched (jobs : t.jobs = s.jobs ++ [slot]) (tasks : t.tasks = s.tasks) :
    i ∈ t.handed ↔ i = slot ∨ i ∈ s.handed := by
  rw [KithControl.handed, jobs, tasks, append_assoc, mem_append, mem_append,
    mem_singleton, KithControl.handed, mem_append]
  tauto

theorem mem_handed_flushed {rest : List Nat} (next : s.tasks = slot :: rest)
    (jobs : t.jobs = s.jobs) (tasks : t.tasks = rest) : i ∈ s.handed ↔ i = slot ∨ i ∈ t.handed := by
  rw [KithControl.handed, next, mem_append, mem_cons, KithControl.handed, jobs, tasks, mem_append]
  tauto

theorem Sound.move (sound : Sound s) (move : Move returns s t) : Sound t := by
  refine ⟨sound.toArmed.move move, ?_⟩
  have handed := sound.toHandedOff
  cases move with
  | quiet conns _ jobs tasks _ setting =>
    have fewer : t.handed.Sublist s.handed := by
      rw [KithControl.handed, jobs]
      exact .append_left tasks _
    refine ⟨fun i hi => conns ▸ handed.serving i (fewer.subset hi), fewer.nodup handed.once,
      fun i inUse => setting.count ▸ handed.below i (conns ▸ inUse), fun i inUse => ?_⟩
    rw [setting.bufferCap, conns]
    exact handed.caps i (conns ▸ inUse)
  | turned slot listed unserved turn =>
    have apart : slot ∉ s.handed := fun member => unserved.idle (handed.serving slot member)
    cases turn with
    | tidy left =>
      have same := handed_of_eq left.jobs left.tasks
      exact handed.tended unserved.inUse left.toTended (fun i hi _ => same ▸ hi)
        (fun hi => absurd (same ▸ hi) apart) (same ▸ handed.once)
    | dispatched tended jobs serving =>
      have members := fun i => mem_handed_dispatched (i := i) jobs tended.tasks
      refine handed.tended unserved.inUse tended (fun i hi h => ((members i).mp hi).resolve_left h)
        (fun _ => serving) ?_
      rw [KithControl.handed, jobs, tended.tasks, append_assoc]
      exact nodup_middle.mpr (nodup_cons.mpr ⟨apart, handed.once⟩)
  | shut slot listed tended serving left jobs =>
    obtain ⟨fd, left⟩ := left
    have same := handed_of_eq jobs tended.tasks
    exact handed.tended listed.inUse tended (fun i hi _ => same ▸ hi)
      (fun _ => by rw [left, serving]) (same ▸ handed.once)
  | filled slot c _ _ fill _ =>
    have same := handed_of_eq fill.jobs fill.tasks
    exact handed.update slot fill.others (fun i hi _ => same ▸ hi)
      (fun hi => absurd (same ▸ hi) (sound.not_mem_of_free fill.free))
        (same ▸ handed.once) fill.count
      fill.bufferCap (fill.here.symm ▸ fill.within)
  | returned slot posted resp member returning conns _ jobs tasks setting =>
    obtain ⟨_, fewer, once⟩ := handed_returned member jobs tasks
    have here : t.conns slot = { s.conns slot with resp := resp } := by
      rw [conns, update_self]
    refine handed.update slot (fun i h => by rw [conns, update_of_ne h])
      (fun i hi _ => fewer i hi) (fun _ => ?_) (once handed.once) setting.count.ge setting.bufferCap
      fun inUse => ?_
    · rw [here]
      exact handed.serving slot (mem_append_left _ member)
    · rw [here] at inUse ⊢
      exact ⟨setting.count ▸ handed.below slot inUse, handed.caps slot inUse⟩
  | flushed slot rest next listed left =>
    have same : t.handed = s.jobs ++ rest := by rw [KithControl.handed, left.jobs, left.tasks]
    have once := handed.once
    rw [KithControl.handed, next] at once
    obtain ⟨apart, others⟩ := nodup_cons.mp (nodup_middle.mp once)
    have popped : HandedOff { s with tasks := rest } := by
      refine ⟨fun i hi => handed.serving i ?_, others, handed.below, handed.caps⟩
      exact (mem_handed_flushed (t := { s with tasks := rest }) next rfl rfl).mpr (.inr hi)
    refine popped.tended listed.inUse left.toTended (fun i hi _ => ?_)
      (fun hi => absurd (same ▸ hi) apart) (same ▸ others)
    rw [same] at hi
    exact hi

inductive MoveAt (returns : Nat → Bool → Prop) (i : Nat) (s s' : KithControl) : Prop where
  | kept (same : SameUse (s.conns i) (s'.conns i)) (jobs : i ∈ s'.jobs ↔ i ∈ s.jobs)
      (handed : (s.conns i).state = .dispatching → (i ∈ s'.handed ↔ i ∈ s.handed))
  | turned (idle : (s.conns i).state ≠ .dispatching)
      (handed : (s'.conns i).state = .dispatching → i ∈ s'.handed)
  | returned (posted : Bool) (member : i ∈ s.jobs) (returning : returns i posted)
      (handed : posted = true → i ∈ s'.handed)
  | flushed (member : i ∈ s.tasks) (idle : (s'.conns i).state ≠ .dispatching)

theorem Move.at (move : Move returns s t) (armed : Armed s) (i : Nat) : MoveAt returns i s t := by
  have apart : t.conns i = s.conns i → t.jobs = s.jobs → t.tasks = s.tasks →
      MoveAt returns i s t := fun conns jobs tasks =>
    .kept ⟨(s.conns i).fd, conns⟩ (by rw [jobs]) fun _ => by rw [handed_of_eq jobs tasks]
  cases move with
  | quiet conns _ jobs tasks stale _ =>
    refine .kept ⟨(s.conns i).fd, congrFun conns i⟩ (by rw [jobs]) fun serving => ?_
    rw [KithControl.handed, KithControl.handed, jobs, mem_append, mem_append]
    exact or_congr_right ⟨fun later => tasks.subset later, fun before =>
      (stale i before).resolve_right (not_not.mpr serving)⟩
  | turned slot _ unserved turn =>
    by_cases h : i = slot
    · subst h
      refine .turned unserved.idle fun serving => ?_
      cases turn with
      | tidy left => exact absurd serving left.idle
      | dispatched tended jobs _ => exact (mem_handed_dispatched jobs tended.tasks).mpr (.inl rfl)
    · cases turn with
      | tidy left => exact apart (left.others i h) left.jobs left.tasks
      | dispatched tended jobs _ =>
        refine .kept ⟨(s.conns i).fd, tended.others i h⟩ (by simp [jobs, h]) fun _ => ?_
        exact (mem_handed_dispatched jobs tended.tasks).trans (or_iff_right h)
  | shut slot _ tended _ same jobs =>
    by_cases h : i = slot
    · subst h
      exact .kept same (by rw [jobs]) fun _ => by rw [handed_of_eq jobs tended.tasks]
    · exact apart (tended.others i h) jobs tended.tasks
  | filled slot c _ _ fill _ =>
    by_cases h : i = slot
    · subst h
      refine .turned (fun serving => ?_) fun serving => ?_
      · have inUse := (armed.kept i).serving serving
        rw [fill.free] at inUse
        cases inUse
      · rw [fill.here, fill.reading] at serving
        cases serving
    · exact apart (fill.others i h) fill.jobs fill.tasks
  | returned slot posted resp member returning conns _ jobs tasks _ =>
    by_cases h : i = slot
    · subst h
      exact .returned posted member returning fun sent =>
        (handed_returned member jobs tasks).1 sent i (mem_append_left _ member)
    · refine .kept ⟨(s.conns i).fd, by rw [conns, update_of_ne h]⟩
        (by rw [jobs, mem_erase_of_ne h]) fun _ => ?_
      rw [KithControl.handed, KithControl.handed, jobs, tasks, mem_append, mem_append,
        mem_erase_of_ne h]
      split <;> simp [h]
  | flushed slot rest next _ left =>
    by_cases h : i = slot
    · subst h
      exact .flushed (by simp [next]) left.idle
    · refine .kept ⟨(s.conns i).fd, left.others i h⟩ (by rw [left.jobs]) fun _ => ?_
      exact ((mem_handed_flushed next left.jobs left.tasks).trans (or_iff_right h)).symm

/-- Every dispatched connection has its route task or its flush task outstanding. -/
def Answered (s : KithControl) : Prop :=
  ∀ i, (s.conns i).state = .dispatching → i ∈ s.handed

theorem Answered.move (answered : Answered s) (armed : Armed s) (move : Move returns s t)
    (posts : ∀ i posted, returns i posted → posted = true) : Answered t := by
  intro i serving
  cases move.at armed i with
  | kept same _ handed =>
    obtain ⟨fd, same⟩ := same
    rw [same] at serving
    exact (handed serving).mpr (answered i serving)
  | turned _ handed => exact handed serving
  | returned posted _ returning handed => exact handed (posts i posted returning)
  | flushed _ idle => exact absurd serving idle

/-- While the handler of a slot has not returned, the slot keeps its buffers, its
request and its response. -/
theorem Sound.sameUse_move (sound : Sound s) (member : slot ∈ s.jobs) (move : Move returns s t)
    (running : ∀ posted, ¬ returns slot posted) :
    slot ∈ t.jobs ∧ SameUse (s.conns slot) (t.conns slot) := by
  cases move.at sound.toArmed slot with
  | kept same jobs _ => exact ⟨jobs.mpr member, same⟩
  | turned idle _ => exact absurd (sound.serving slot (mem_append_left _ member)) idle
  | returned posted _ returning _ => exact absurd returning (running posted)
  | flushed queued _ => exact absurd queued (disjoint_of_nodup_append sound.once member)

/-- A connection in DISPATCHING that has no task left. -/
structure Stranded (slot : Nat) (s : KithControl) : Prop where
  serving : (s.conns slot).state = .dispatching
  forgotten : slot ∉ s.handed

theorem Stranded.move (stranded : Stranded slot s) (armed : Armed s)
    (move : Move returns s t) : Stranded slot t := by
  obtain ⟨serving, forgotten⟩ := stranded
  cases move.at armed slot with
  | kept same _ handed =>
    obtain ⟨fd, same⟩ := same
    exact ⟨by rw [same]; exact serving, mt (handed serving).mp forgotten⟩
  | turned idle _ => exact absurd serving idle
  | returned _ member _ _ => exact absurd (mem_append_left _ member) forgotten
  | flushed member _ => exact absurd (mem_append_right _ member) forgotten

theorem Sound.moves (sound : Sound s) (moves : ReflTransGen (Move returns) s t) : Sound t := by
  induction moves with
  | refl => exact sound
  | tail _ last ih => exact ih.move last

end Hands

section Runs

variable {parse : Nat → List UInt8 → Parsed} {start s t : KithControl} {slot : Nat} {op : ControlOp}

open Runs (Path)
open Relation (ReflTransGen)

/-- No connection has been accepted, and no task handed out. -/
structure Begun (s : KithControl) : Prop where
  started : Started s
  jobs : s.jobs = []
  tasks : s.tasks = []

/-- A worker that returns does so outside the finalization of the interpreter, and
the reactor has a free node for its flush. -/
def ControlOp.Posts : ControlOp → Prop
  | .worker _ finalizing _ posted => finalizing = false ∧ posted = true
  | _ => True

theorem Begun.sound (begun : Begun s) : Sound s := by
  refine ⟨begun.started.armed, fun i member => ?_, ?_, fun i inUse => ?_, fun i inUse => ?_⟩
  · simp [KithControl.handed, begun.jobs, begun.tasks] at member
  · simp [KithControl.handed, begun.jobs, begun.tasks]
  · rw [begun.started.blank i] at inUse
    cases inUse
  · rw [begun.started.blank i] at inUse
    cases inUse

theorem Sound.step (sound : Sound s) (parse : Nat → List UInt8 → Parsed) (fresh : op.Fresh s) :
    Sound (s.step parse op) :=
  sound.moves (step_moves sound.toArmed fresh)

theorem step_answered (sound : Sound s) (answered : Answered s) (fresh : op.Fresh s)
    (posts : op.Posts) : Answered (s.step parse op) := by
  have returns : ∀ i posted, op.Returns i posted → posted = true := by
    intro i posted returning
    cases op with
    | worker slot finalizing resp sent =>
      obtain ⟨rfl, rfl⟩ := posts
      exact returning.2
    | ready | flush | sseFlush | publish => cases returning
  have moves : ReflTransGen (Move op.Returns) s (s.step parse op) := step_moves sound.toArmed fresh
  generalize s.step parse op = t at moves
  have both : Armed t ∧ Answered t := by
    induction moves with
    | refl => exact ⟨sound.toArmed, answered⟩
    | tail _ last ih => exact ⟨ih.1.move last, ih.2.move ih.1 last returns⟩
  exact both.2

/-- Nothing brings back a connection without a task. -/
theorem Stranded.path (stranded : Stranded slot s) (sound : Sound s)
    (path : Path (KithControl.step parse) (fun s op => op.Fresh s) s t) : Stranded slot t := by
  have invariant : Sound t ∧ Stranded slot t := by
    refine path.invariant (fun s => Sound s ∧ Stranded slot s) ?_ ⟨sound, stranded⟩
    rintro s op ⟨sound, stranded⟩ fresh
    refine ⟨sound.step parse fresh, ?_⟩
    have moves : ReflTransGen (Move op.Returns) s (s.step parse op) :=
      step_moves sound.toArmed fresh
    generalize s.step parse op = t at moves
    have both : Armed t ∧ Stranded slot t := by
      induction moves with
      | refl => exact ⟨sound.toArmed, stranded⟩
      | tail _ last ih => exact ⟨ih.1.move last, ih.2.move ih.1 last⟩
    exact both.2
  exact invariant.2

/-- In every run in which every returning worker can post its flush, a connection
in DISPATCHING has its route task in the pool or its flush in the reactor's queue. -/
theorem dispatched_requests_answered (begun : Begun start)
    (path : Path (KithControl.step parse) (fun s op => op.Fresh s ∧ op.Posts) start s) (i : Nat)
    (serving : (s.conns i).state = .dispatching) : i ∈ s.jobs ∨ i ∈ s.tasks := by
  have invariant : Sound s ∧ Answered s := by
    refine path.invariant (fun s => Sound s ∧ Answered s) ?_ ⟨begun.sound, ?_⟩
    · rintro s op ⟨sound, answered⟩ ⟨fresh, posts⟩
      exact ⟨sound.step parse fresh, step_answered sound answered fresh posts⟩
    · intro i serving
      rw [begun.started.blank i] at serving
      cases serving
  exact List.mem_append.mp (invariant.2 i serving)

/-- The control plane, with a count for each slot of the connections that took it
and of the times its buffers were freed. -/
structure Ledger where
  control : KithControl
  taken : Nat → Nat
  freed : Nat → Nat

def Ledger.blank (s : KithControl) : Ledger := ⟨s, fun _ => 0, fun _ => 0⟩

def Ledger.step (parse : Nat → List UInt8 → Parsed) (l : Ledger) (op : ControlOp) : Ledger where
  control := l.control.step parse op
  taken i := l.taken i + if (l.control.conns i).inUse = false ∧
    ((l.control.step parse op).conns i).inUse = true then 1 else 0
  freed i := l.freed i + if (l.control.conns i).buffers = true ∧
    ((l.control.step parse op).conns i).buffers = false then 1 else 0

/-- The counts of frees after `kith_control_destroy`, which frees what the slots up
to the high-water mark still hold. -/
def Ledger.destroyed (l : Ledger) (i : Nat) : Nat :=
  l.freed i + if i < l.control.connCount ∧ (l.control.conns i).buffers = true then 1 else 0

/-- Every connection that left its slot was freed once, and the one in it not yet. -/
def Ledger.Balanced (l : Ledger) : Prop :=
  ∀ i, l.taken i = l.freed i + if (l.control.conns i).inUse then 1 else 0

variable {l : Ledger}

theorem Ledger.Balanced.step (balanced : l.Balanced)
    (held : ∀ i, (l.control.conns i).buffers = (l.control.conns i).inUse)
    (held' : ∀ i, ((l.control.step parse op).conns i).buffers =
      ((l.control.step parse op).conns i).inUse) : (l.step parse op).Balanced := by
  intro i
  have before := balanced i
  simp only [Ledger.step, held i, held' i]
  rcases Bool.eq_false_or_eq_true (l.control.conns i).inUse with was | was <;>
    rcases Bool.eq_false_or_eq_true ((l.control.step parse op).conns i).inUse with is | is <;>
      simp only [was, is] at before ⊢ <;> simp at before ⊢ <;> omega

/-- The handler of `slot` has not returned yet. -/
def StillServes (slot : Nat) (l : Ledger) (op : ControlOp) : Prop :=
  op.Fresh l.control ∧ ∀ posted, ¬ op.Returns slot posted

theorem Sound.sameUse (sound : Sound s) (parse : Nat → List UInt8 → Parsed) (member : slot ∈ s.jobs)
    (fresh : op.Fresh s) (running : ∀ posted, ¬ op.Returns slot posted) :
    slot ∈ (s.step parse op).jobs ∧ SameUse (s.conns slot) ((s.step parse op).conns slot) := by
  have moves : ReflTransGen (Move op.Returns) s (s.step parse op) := step_moves sound.toArmed fresh
  generalize s.step parse op = t at moves
  have both : Sound t ∧ slot ∈ t.jobs ∧ SameUse (s.conns slot) (t.conns slot) := by
    induction moves with
    | refl => exact ⟨sound, member, (s.conns slot).fd, rfl⟩
    | tail _ last ih =>
      obtain ⟨sound, member, fd, same⟩ := ih
      obtain ⟨member', fd', same'⟩ := sound.sameUse_move member last running
      exact ⟨sound.move last, member', fd', by rw [same', same]⟩
  exact both.2

theorem Sound.held (sound : Sound s) (member : slot ∈ s.jobs) :
    (s.conns slot).inUse = true ∧ (s.conns slot).buffers = true := by
  have kept := sound.kept slot
  have inUse := kept.serving (sound.serving slot (mem_append_left _ member))
  exact ⟨inUse, kept.held.trans inUse⟩

theorem served_slot_kept {l' : Ledger} (sound : Sound l.control) (member : slot ∈ l.control.jobs)
    (path : Path (Ledger.step parse) (StillServes slot) l l') :
    (Sound l'.control ∧ slot ∈ l'.control.jobs) ∧
      SameUse (l.control.conns slot) (l'.control.conns slot) ∧ l'.taken slot = l.taken slot ∧
      l'.freed slot = l.freed slot := by
  induction path with
  | start => exact ⟨⟨sound, member⟩, ⟨(l.control.conns slot).fd, rfl⟩, rfl, rfl⟩
  | step op _ allowed ih =>
    obtain ⟨⟨sound, member⟩, ⟨fd, same⟩, taken, freed⟩ := ih
    obtain ⟨fresh, running⟩ := allowed
    obtain ⟨member', fd', same'⟩ := sound.sameUse parse member fresh running
    have sound' := sound.step parse fresh
    have held := sound.held member
    have held' := sound'.held member'
    refine ⟨⟨sound', member'⟩, ⟨fd', ?_⟩, ?_, ?_⟩
    · rw [same] at same'
      exact same'
    · simp only [Ledger.step]
      rw [if_neg (by simp [held.1]), taken, Nat.add_zero]
    · simp only [Ledger.step]
      rw [if_neg (by simp [held'.2]), freed, Nat.add_zero]

theorem flush_frees (sound : Sound s) {rest : List Nat} (next : s.tasks = slot :: rest)
    (shut : (s.conns slot).fd < 0) : ((s.step parse .flush).conns slot).inUse = false := by
  have member : slot ∈ s.handed := by simp [KithControl.handed, next]
  have serving := sound.serving slot member
  simp only [KithControl.step, next, controlConnFlushTask, serving, ne_eq, not_true, if_false, shut,
    if_true]
  simp [ControlConn.release]

theorem Ledger.sound (begun : Begun start)
    (path : Path (Ledger.step parse) (fun l op => op.Fresh l.control) (.blank start) l) :
    Sound l.control ∧ l.Balanced := by
  refine path.invariant (fun l => Sound l.control ∧ l.Balanced) ?_ ⟨begun.sound, fun i => ?_⟩
  · rintro l op ⟨sound, balanced⟩ fresh
    have sound' : Sound (l.control.step parse op) := sound.step parse fresh
    exact ⟨sound', balanced.step (fun i => (sound.kept i).held) fun i => (sound'.kept i).held⟩
  · simp [Ledger.blank, begun.started.blank i, ControlConn.zero]

/-- In every state of every run: until its handler has returned, a served slot keeps
its connection, its buffers, its request and its response, and is neither freed nor
taken; every connection that left a slot was freed once, and the one in the slot,
when the control plane is destroyed at the latest; a closed connection that keeps its
slot is one in DISPATCHING, and its flush frees it. -/
theorem served_buffers_safe {l : Ledger} (begun : Begun start)
    (path : Path (Ledger.step parse) (fun l op => op.Fresh l.control) (.blank start) l) :
    (∀ slot ∈ l.control.jobs, ∀ l', Path (Ledger.step parse) (StillServes slot) l l' →
      (l'.control.conns slot).inUse = true ∧ (l'.control.conns slot).buffers = true ∧
      SameUse (l.control.conns slot) (l'.control.conns slot) ∧ l'.taken slot = l.taken slot ∧
      l'.freed slot = l.freed slot) ∧
    l.Balanced ∧ (∀ slot, l.destroyed slot = l.taken slot) ∧
    (∀ slot, (l.control.conns slot).inUse = true → (l.control.conns slot).fd < 0 →
      (l.control.conns slot).state = .dispatching) ∧
    ∀ slot rest, l.control.tasks = slot :: rest → (l.control.conns slot).fd < 0 →
      (l.step parse .flush).freed slot = l.freed slot + 1 := by
  obtain ⟨sound, balanced⟩ := Ledger.sound begun path
  refine ⟨fun slot member l' serving => ?_, balanced, fun slot => ?_, fun slot => ?_,
    fun slot rest next shut => ?_⟩
  · obtain ⟨⟨sound', member'⟩, same, taken, freed⟩ := served_slot_kept sound member serving
    obtain ⟨inUse, buffers⟩ := sound'.held member'
    exact ⟨inUse, buffers, same, taken, freed⟩
  · rw [Ledger.destroyed, balanced slot, (sound.kept slot).held]
    by_cases inUse : (l.control.conns slot).inUse = true
    · rw [if_pos ⟨sound.below slot inUse, inUse⟩, if_pos inUse]
    · rw [if_neg (fun both => inUse both.2), if_neg inUse]
  · exact (sound.kept slot).closed
  · have member : slot ∈ l.control.handed := by simp [KithControl.handed, next]
    have kept := sound.kept slot
    have before := kept.held.trans (kept.serving (sound.serving slot member))
    have after : ((l.control.step parse .flush).conns slot).buffers = false := by
      have sound' : Sound (l.control.step parse .flush) := sound.step parse trivial
      exact (sound'.kept slot).held.trans (flush_frees sound next shut)
    simp only [Ledger.step]
    rw [if_pos ⟨before, after⟩]

end Runs

section Instances

open Runs (Path)

/-- One connection slot, one Python-bound route and a pool. -/
def pooled : KithControl :=
  { listening (fun _ => .wrote 63) with
    workers := true
    routes := [⟨ascii "GET", ascii "/", true⟩] }

def dial : ControlOp := .ready 3 reactorIn ⟨[⟨5, true⟩], [], ⟨0, ⟨[], false⟩⟩, true⟩

def ask : ControlOp :=
  .ready 5 reactorIn ⟨[], [.data 71 (ascii "ET / HTTP/1.1\r\n\r\n")], ⟨0, ⟨[], false⟩⟩, true⟩

def served : KithControl := (pooled.step rootOnly dial).step rootOnly ask

theorem pooled_begun : Begun pooled :=
  ⟨{ listening_started fun _ => .wrote 63 with }, rfl, rfl⟩

theorem served_reached :
    Path (KithControl.step rootOnly) (fun s op => op.Fresh s ∧ op.Posts) pooled served :=
  .step _ (.step _ .start ⟨fun _ => ⟨listening_unused fun _ => .wrote 63, trivial⟩, trivial⟩)
    ⟨fun _ => trivial, trivial⟩

theorem dispatched_requests_answered_served :
    (served.conns 0).state = .dispatching ∧ (0 ∈ served.jobs ∨ 0 ∈ served.tasks) :=
  ⟨by decide +kernel,
    dispatched_requests_answered pooled_begun served_reached 0 (by decide +kernel)⟩

def servedLedger : Ledger := ((Ledger.blank pooled).step rootOnly dial).step rootOnly ask

def fault : ControlOp := .ready 5 reactorErr ⟨[], [], ⟨0, ⟨[], false⟩⟩, true⟩

/-- The handler of slot 0 is running, and an error closes its connection. -/
theorem served_buffers_safe_fault :
    0 ∈ servedLedger.control.jobs ∧ servedLedger.taken 0 = 1 ∧
      ((servedLedger.step rootOnly fault).control.conns 0).fd = -1 ∧
      ((servedLedger.step rootOnly fault).control.conns 0).buffers = true := by
  have path : Path (Ledger.step rootOnly) (fun l op => op.Fresh l.control) (.blank pooled)
      servedLedger :=
    .step ask (.step dial .start fun _ => ⟨listening_unused fun _ => .wrote 63, trivial⟩) fun _ =>
      trivial
  have running : Path (Ledger.step rootOnly) (StillServes 0) servedLedger
      (servedLedger.step rootOnly fault) :=
    .step fault .start ⟨fun _ => trivial, fun _ returns => returns⟩
  have safe := (served_buffers_safe pooled_begun path).1 0 (by decide +kernel) _ running
  exact ⟨by decide +kernel, by decide +kernel, by decide +kernel, safe.2.1⟩

/-- The handler returns while the reactor's task queue is full. -/
def dropped : KithControl := served.step rootOnly (.worker 0 false ⟨[1, 2, 3], false⟩ false)

/-- The request is never answered: from then on the connection is in DISPATCHING, and
neither the pool nor the reactor has a task for it. -/
theorem refused_flush_strands :
    Begun pooled ∧ Path (KithControl.step rootOnly) (fun s op => op.Fresh s) pooled dropped ∧
      ∀ t, Path (KithControl.step rootOnly) (fun s op => op.Fresh s) dropped t →
        (t.conns 0).state = .dispatching ∧ 0 ∉ t.jobs ∧ 0 ∉ t.tasks := by
  have sound : Sound served := served_reached.invariant Sound
    (fun _ _ sound allowed => sound.step rootOnly allowed.1) pooled_begun.sound
  refine ⟨pooled_begun, .step _ (served_reached.weaken fun _ _ allowed => allowed.1) trivial, ?_⟩
  intro t path
  have stranded : Stranded 0 dropped := ⟨by decide +kernel, by decide +kernel⟩
  have sound' : Sound dropped := sound.step rootOnly trivial
  obtain ⟨serving, forgotten⟩ := stranded.path sound' path
  exact ⟨serving, not_or.mp fun member => forgotten (List.mem_append.mpr member)⟩

end Instances

end Kith.Control
