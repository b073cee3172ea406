import Mathlib.Data.List.Nodup
import Mathlib.Order.Monotone.Basic
import Mathlib.Logic.Function.Iterate
import Kith.Lib.Buckets
import Kith.Lib.Runs

/-!
# The timer wheel

256 lists of timers, each sorted by deadline; a timer is in the list of its deadline's
last eight bits. An advance to `now` walks the cursor over the milliseconds up to `now`
and fires what is due in their lists. A callback may schedule timers, so an advance is
cut here into the steps between which a callback runs.
-/

namespace Kith.Reactor

open Buckets Runs Function List

universe u

section Machine

variable {α : Type u}

/-- `kith_timer_node`. The number tells the timers apart; `asked` is the deadline before
it was clamped, and `task` the callback with its context. -/
structure TimerNode (α : Type u) where
  number : Nat
  asked : Nat
  deadline : Nat
  task : α

/-- `KITH_REACTOR_TIMER_SLOTS`. -/
def timerSlots : Nat := 256

/-- Where an advance to `now` stands. The pointer of the slot's walk is the list head or
the link of a timer that was passed. -/
inductive Advance (α : Type u) where
  | idle
  | ticking (now : Nat)
  | walking (now : Nat) (passed : Option Nat)
  | calling (now : Nat) (passed : Option Nat) (task : α)

structure TimerWheel (α : Type u) where
  slots : Nat → List (TimerNode α)
  timerTick : Nat
  timerCount : Nat
  cachedTime : Nat
  advance : Advance α
  /-- Every timer that was scheduled. -/
  scheduled : List (TimerNode α)
  /-- The timers that fired, each with the time of its advance. -/
  fired : List (TimerNode α × Nat)

namespace TimerWheel

/-- `kith_reactor_create` at a time. -/
def created (now : Nat) : TimerWheel α :=
  ⟨fun _ => [], now, 0, now, .idle, [], []⟩

/-- `timer_wheel_insert`, in one list. -/
def insertSorted (node : TimerNode α) : List (TimerNode α) → List (TimerNode α)
  | [] => [node]
  | first :: rest =>
    if first.deadline ≤ node.deadline then first :: insertSorted node rest
    else node :: first :: rest

variable (w : TimerWheel α)

def newNode (deadline : Nat) (task : α) : TimerNode α where
  number := w.scheduled.length
  asked := deadline
  deadline := if deadline < w.cachedTime then w.cachedTime else deadline
  task := task

/-- `kith_reactor_schedule`; `granted` is whether there is memory for the node. -/
def schedule (deadline : Nat) (task : α) (granted : Bool) : TimerWheel α :=
  if granted then
    let node := w.newNode deadline task
    let slot := node.deadline % timerSlots
    { w with
      slots := update w.slots slot (insertSorted node (w.slots slot))
      timerCount := w.timerCount + 1
      scheduled := w.scheduled ++ [node] }
  else w

/-- The list behind the walk's pointer. -/
def behind (passed : Option Nat) (list : List (TimerNode α)) : List (TimerNode α) :=
  match passed with
  | none => list
  | some number => (list.dropWhile fun node => node.number != number).tail

/-- A step of `timer_wheel_advance` and the `timer_wheel_fire_slot` it calls. -/
def advanceStep : TimerWheel α :=
  match w.advance with
  | .idle => w
  | .ticking now =>
    if w.timerTick < now ∧ 0 < w.timerCount then { w with advance := .walking now none }
    else { w with timerTick := now, advance := .idle }
  | .walking now passed =>
    let slot := w.timerTick % timerSlots
    match behind passed (w.slots slot) with
    | [] => { w with timerTick := w.timerTick + 1, advance := .ticking now }
    | node :: _ =>
      if node.deadline ≤ now then
        { w with
          slots := update w.slots slot
            ((w.slots slot).eraseP fun other => other.number == node.number)
          timerCount := w.timerCount - 1
          advance := .calling now passed node.task
          fired := w.fired ++ [(node, now)] }
      else { w with advance := .walking now (some node.number) }
  | .calling now passed _ => { w with advance := .walking now passed }

end TimerWheel

inductive TimerOp (α : Type u) where
  /-- The loop samples the clock. -/
  | clock (now : Nat)
  /-- The loop samples the clock and advances the wheel. -/
  | advance (now : Nat)
  | run
  | schedule (deadline : Nat) (task : α) (granted : Bool)

variable (w : TimerWheel α)

def TimerWheel.step : TimerOp α → TimerWheel α
  | .clock now => { w with cachedTime := now }
  | .advance now => { w with cachedTime := now, advance := .ticking now }
  | .run => w.advanceStep
  | .schedule deadline task granted => w.schedule deadline task granted

/-- The clock does not go back, an advance ends before the loop goes on, and timers are
scheduled outside an advance or in one of its callbacks. -/
def TimerOp.Allowed : TimerOp α → Prop
  | .clock now => w.advance = .idle ∧ w.cachedTime ≤ now
  | .advance now => w.advance = .idle ∧ w.cachedTime ≤ now
  | .run => True
  | .schedule _ _ _ =>
    w.advance = .idle ∨ ∃ now passed task, w.advance = .calling now passed task

def TimerWheel.pending : List (TimerNode α) := spread timerSlots w.slots

end Machine

section Lists

variable {α : Type u} {node : TimerNode α} {list : List (TimerNode α)}

def Sorted (list : List (TimerNode α)) : Prop :=
  list.Pairwise fun a b => a.deadline ≤ b.deadline

theorem insertSorted_perm (node : TimerNode α) (list : List (TimerNode α)) :
    (TimerWheel.insertSorted node list).Perm (node :: list) := by
  induction list with
  | nil => exact .refl _
  | cons first rest ih =>
    rw [TimerWheel.insertSorted]
    split
    · exact (ih.cons first).trans (.swap ..)
    · exact .refl _

theorem insertSorted_sorted (sorted : Sorted list) :
    Sorted (TimerWheel.insertSorted node list) := by
  induction list with
  | nil => exact pairwise_singleton ..
  | cons first rest ih =>
    obtain ⟨least, later⟩ := pairwise_cons.mp sorted
    rw [TimerWheel.insertSorted]
    split
    · rename_i before
      refine pairwise_cons.mpr ⟨fun other member => ?_, ih later⟩
      rcases mem_cons.mp ((insertSorted_perm node rest).subset member) with rfl | old
      · exact before
      · exact least other old
    · refine pairwise_cons.mpr ⟨fun other member => ?_, sorted⟩
      rcases mem_cons.mp member with rfl | old
      · omega
      · have := least other old
        omega

theorem Sorted.all_later {first : TimerNode α} {now : Nat} (sorted : Sorted (first :: list))
    (later : now < first.deadline) : ∀ other ∈ first :: list, now < other.deadline := by
  intro other member
  rcases mem_cons.mp member with rfl | rest
  · exact later
  · have := (pairwise_cons.mp sorted).1 other rest
    omega

theorem behind_suffix (passed : Option Nat) (list : List (TimerNode α)) :
    TimerWheel.behind passed list <:+ list := by
  cases passed with
  | none => exact suffix_refl _
  | some number => exact (tail_suffix _).trans (dropWhile_suffix _)

theorem behind_next {rest : List (TimerNode α)} {passed : Option Nat}
    (nodup : (list.map TimerNode.number).Nodup)
    (here : TimerWheel.behind passed list = node :: rest) :
    TimerWheel.behind (some node.number) list = rest := by
  obtain ⟨before, split⟩ := behind_suffix passed list
  rw [here] at split
  subst split
  have apart : ∀ other ∈ before, (other.number != node.number) = true := by
    intro other member
    rw [map_append, nodup_append] at nodup
    have different := nodup.2.2 other.number (mem_map_of_mem member) node.number
      (mem_map_of_mem mem_cons_self)
    simpa using different
  simp only [TimerWheel.behind]
  rw [dropWhile_append_of_pos apart]
  simp

end Lists

section Invariant

variable {α : Type u} {w : TimerWheel α} {node : TimerNode α}

def Advance.Sound (w : TimerWheel α) : Advance α → Prop
  | .idle => True
  | .ticking now => w.cachedTime = now
  | .walking now passed => w.cachedTime = now ∧ w.timerTick < now ∧
    (passed ≠ none → ∀ node ∈ w.slots (w.timerTick % timerSlots), now < node.deadline)
  | .calling now passed _ => w.cachedTime = now ∧ w.timerTick < now ∧ passed = none

/-- What holds between any two steps: a timer waits in the list of its deadline, sorted,
and not behind the cursor, and every timer either waits or has fired. -/
structure WheelSound (w : TimerWheel α) : Prop where
  placed : ∀ slot, ∀ node ∈ w.slots slot, node.deadline % timerSlots = slot
  sorted : ∀ slot, Sorted (w.slots slot)
  early : ∀ slot, ∀ node ∈ w.slots slot, w.timerTick ≤ node.deadline
  clock : w.timerTick ≤ w.cachedTime
  count : w.timerCount = w.pending.length
  ledger : (w.pending ++ w.fired.map Prod.fst).Perm w.scheduled
  numbers : w.scheduled.map TimerNode.number = List.range w.scheduled.length
  clamped : ∀ node ∈ w.scheduled, node.asked ≤ node.deadline
  punctual : ∀ entry ∈ w.fired, entry.1.deadline ≤ entry.2
  advance : w.advance.Sound w

theorem WheelSound.mem_pending (sound : WheelSound w) {slot : Nat} (member : node ∈ w.slots slot) :
    node ∈ w.pending := by
  have at_slot := sound.placed slot node member
  have inside : slot < timerSlots := at_slot ▸ Nat.mod_lt _ (by decide)
  exact mem_spread.mpr ⟨slot, inside, member⟩

theorem created_sound (now : Nat) : WheelSound (.created now : TimerWheel α) := by
  have empty : (TimerWheel.created now : TimerWheel α).pending = [] := spread_nil _
  constructor
  · rintro slot node ⟨⟩
  · exact fun _ => .nil
  · rintro slot node ⟨⟩
  · exact Nat.le_refl now
  · rw [empty]
    rfl
  · rw [empty]
    exact .refl _
  · rfl
  · rintro node ⟨⟩
  · rintro entry ⟨⟩
  · trivial

section

variable (sound : WheelSound w)
include sound

theorem schedule_sound
    (allowed : w.advance = .idle ∨ ∃ now passed task, w.advance = .calling now passed task)
    (deadline : Nat) (task : α) (granted : Bool) :
    WheelSound (w.schedule deadline task granted) := by
  rw [TimerWheel.schedule]
  split
  · have number : (w.newNode deadline task).number = w.scheduled.length := rfl
    have late : w.cachedTime ≤ (w.newNode deadline task).deadline ∧
        (w.newNode deadline task).asked ≤ (w.newNode deadline task).deadline := by
      simp only [TimerWheel.newNode]
      split <;> omega
    generalize w.newNode deadline task = node at number late ⊢
    have slot : node.deadline % timerSlots < timerSlots := Nat.mod_lt _ (by decide)
    have one_more : (spread timerSlots (update w.slots (node.deadline % timerSlots)
        (TimerWheel.insertSorted node (w.slots (node.deadline % timerSlots))))).Perm
        (node :: w.pending) := by
      have more :=
        spread_cons w.slots slot (insertSorted_perm node (w.slots (node.deadline % timerSlots)))
      rw [update_eq_self] at more
      exact more
    have inside : ∀ {k other}, other ∈ update w.slots (node.deadline % timerSlots)
        (TimerWheel.insertSorted node (w.slots (node.deadline % timerSlots))) k →
        other ∈ w.slots k ∨ other = node ∧ node.deadline % timerSlots = k := by
      intro k other member
      rw [update_apply] at member
      split at member
      · rename_i same
        subst same
        rcases mem_cons.mp ((insertSorted_perm ..).subset member) with rfl | old
        · exact .inr ⟨rfl, rfl⟩
        · exact .inl old
      · exact .inl member
    constructor
    · intro k other member
      rcases inside member with old | ⟨rfl, here⟩
      · exact sound.placed k other old
      · exact here
    · intro k
      simp only [update_apply]
      split
      · exact insertSorted_sorted (sound.sorted _)
      · exact sound.sorted k
    · intro k other member
      rcases inside member with old | ⟨rfl, _⟩
      · exact sound.early k other old
      · exact Nat.le_trans sound.clock late.1
    · exact sound.clock
    · refine Eq.trans ?_ one_more.length_eq.symm
      rw [length_cons, ← sound.count]
    · refine (one_more.append_right _).trans ?_
      exact (sound.ledger.cons node).trans (perm_append_singleton node _).symm
    · rw [map_append, sound.numbers, length_append, length_singleton, range_succ]
      simp [number]
    · intro other member
      rcases mem_append.mp member with old | new
      · exact sound.clamped other old
      · rw [mem_singleton.mp new]
        exact late.2
    · exact sound.punctual
    · have advance := sound.advance
      rcases allowed with idle | ⟨now, passed, call, calling⟩
      · rw [idle]
        trivial
      · rw [calling] at advance ⊢
        exact advance
  · exact sound

abbrev TimerWheel.slot (w : TimerWheel α) : Nat := w.timerTick % timerSlots

theorem fire_sound {now : Nat} {rest : List (TimerNode α)} (walking : w.advance = .walking now none)
    (list : w.slots w.slot = node :: rest) (due : node.deadline ≤ now) :
    WheelSound { w with
      slots := update w.slots w.slot rest
      timerCount := w.timerCount - 1
      advance := .calling now none node.task
      fired := w.fired ++ [(node, now)] } := by
  have slot : w.slot < timerSlots := Nat.mod_lt _ (by decide)
  have one_less : w.pending.Perm
      (node :: spread timerSlots (update w.slots w.slot rest)) := by
    have less := spread_cons w.slots slot (List.Perm.refl (node :: rest))
    rw [← list, update_eq_self] at less
    exact less
  have inside : ∀ {k other}, other ∈ update w.slots w.slot rest k →
      other ∈ w.slots k := by
    intro k other member
    rw [update_apply] at member
    split at member
    · rename_i same
      rw [same, list]
      exact mem_cons_of_mem _ member
    · exact member
  have advance := sound.advance
  rw [walking] at advance
  constructor
  · exact fun k other member => sound.placed k other (inside member)
  · intro k
    have sorted := sound.sorted k
    simp only [update_apply]
    split
    · rename_i same
      rw [same, list] at sorted
      exact (pairwise_cons.mp sorted).2
    · exact sorted
  · exact fun k other member => sound.early k other (inside member)
  · exact sound.clock
  · have lengths := one_less.length_eq
    have count := sound.count
    rw [length_cons] at lengths
    simp only [TimerWheel.pending]
    rw [count, lengths, Nat.add_sub_cancel]
  · refine List.Perm.trans ?_ sound.ledger
    simp only [map_append, map_cons, map_nil, TimerWheel.pending]
    rw [← append_assoc]
    exact (perm_append_singleton node _).trans (one_less.append_right _).symm
  · exact sound.numbers
  · exact sound.clamped
  · intro entry member
    rcases mem_append.mp member with old | new
    · exact sound.punctual entry old
    · rw [mem_singleton.mp new]
      exact due
  · exact ⟨advance.1, advance.2.1, rfl⟩

theorem advanceStep_sound : WheelSound w.advanceStep := by
  have advance := sound.advance
  cases at_step : w.advance with
  | idle =>
    rw [TimerWheel.advanceStep, at_step]
    exact sound
  | ticking now =>
    rw [at_step] at advance
    have same : w.cachedTime = now := advance
    simp only [TimerWheel.advanceStep, at_step]
    split
    · rename_i more
      exact { sound with advance := ⟨same, more.1, fun passed => absurd rfl passed⟩ }
    · refine { sound with early := ?_, clock := Nat.le_of_eq same.symm, advance := trivial }
      intro slot node member
      have waits := length_pos_of_mem (sound.mem_pending member)
      have early := sound.early slot node member
      have count := sound.count
      dsimp only
      omega
  | walking now passed =>
    rw [at_step] at advance
    obtain ⟨same, before, later⟩ := advance
    simp only [TimerWheel.advanceStep, at_step]
    split
    · rename_i finished
      refine { sound with early := ?_, clock := ?_, advance := same }
      · intro slot node member
        have early := sound.early slot node member
        by_cases here : slot = w.timerTick % timerSlots
        · subst here
          cases passed with
          | none =>
            rw [show w.slots w.slot = [] from finished] at member
            cases member
          | some number =>
            have := later (by simp) node member
            dsimp only
            omega
        · have apart : node.deadline ≠ w.timerTick := by
            intro equal
            exact here (equal ▸ (sound.placed slot node member).symm)
          dsimp only
          omega
      · dsimp only
        omega
    · rename_i node rest list
      have inside : node ∈ w.slots w.slot :=
        (behind_suffix passed _).subset (list ▸ mem_cons_self)
      split
      · rename_i due
        cases passed with
        | none =>
          have list : w.slots w.slot = node :: rest := list
          have fired := fire_sound sound at_step list due
          simpa [list] using fired
        | some number =>
          have := later (by simp) node inside
          omega
      · refine { sound with advance := ⟨same, before, fun _ => ?_⟩ }
        cases passed with
        | none =>
          have sorted := sound.sorted w.slot
          have list : w.slots w.slot = node :: rest := list
          rw [list] at sorted
          rw [list]
          exact sorted.all_later (by omega)
        | some number => exact later (by simp)
  | calling now passed task =>
    rw [at_step] at advance
    obtain ⟨same, before, unmoved⟩ := advance
    simp only [TimerWheel.advanceStep, at_step]
    exact { sound with advance := ⟨same, before, fun moved => absurd unmoved moved⟩ }

theorem step_sound {op : TimerOp α} (allowed : op.Allowed w) : WheelSound (w.step op) := by
  cases op with
  | clock now =>
    refine { sound with clock := Nat.le_trans sound.clock allowed.2, advance := ?_ }
    rw [TimerWheel.step, allowed.1]
    trivial
  | advance now => exact { sound with clock := Nat.le_trans sound.clock allowed.2, advance := rfl }
  | run => exact advanceStep_sound sound
  | schedule deadline task granted => exact schedule_sound sound allowed deadline task granted

end

theorem path_sound {start : Nat}
    (path : Path TimerWheel.step (fun w op => op.Allowed w) (.created start) w) : WheelSound w :=
  path.invariant WheelSound (fun _ _ sound allowed => step_sound sound allowed)
    (created_sound start)

theorem path_runs {start : TimerWheel α} (n : Nat)
    (path : Path TimerWheel.step (fun w op => op.Allowed w) start w) :
    Path TimerWheel.step (fun w op => op.Allowed w) start (TimerWheel.advanceStep^[n] w) := by
  induction n with
  | zero => exact path
  | succ n ih =>
    rw [iterate_succ_apply']
    exact .step TimerOp.run ih trivial

/-- At 10 ms, a timer for 12 ms and a late one for 5 ms; then an advance to 13 ms. -/
def twoTimers : TimerWheel Nat :=
  (((TimerWheel.created 10).step (.schedule 12 1 true)).step (.schedule 5 2 true)).step
    (.advance 13)

end Invariant

section Returning

variable {α : Type u} {w : TimerWheel α} {now : Nat} {passed : Option Nat}

/-- What the callbacks do: each schedules at most one timer, whatever happened before. -/
abbrev Callbacks (α : Type u) := α → TimerWheel α → Option (Nat × α)

def TimerWheel.runStep (callbacks : Callbacks α) (w : TimerWheel α) : TimerWheel α :=
  match w.advance with
  | .calling _ _ task =>
    match callbacks task w with
    | none => w.advanceStep
    | some (deadline, next) => (w.schedule deadline next true).advanceStep
  | _ => w.advanceStep

/-- The wheel behind `n` steps. -/
def TimerWheel.after (callbacks : Callbacks α) (n : Nat) (w : TimerWheel α) : TimerWheel α :=
  (TimerWheel.runStep callbacks)^[n] w

def Returns (callbacks : Callbacks α) (w : TimerWheel α) : Prop :=
  ∃ steps, (w.after callbacks steps).advance = .idle

variable {callbacks : Callbacks α}

theorem after_succ (n : Nat) :
    w.after callbacks (n + 1) = (w.after callbacks n).runStep callbacks :=
  iterate_succ_apply' ..

theorem after_add (m n : Nat) :
    w.after callbacks (m + n) = (w.after callbacks n).after callbacks m :=
  iterate_add_apply ..

theorem runStep_sound (sound : WheelSound w) : WheelSound (w.runStep callbacks) := by
  rw [TimerWheel.runStep]
  split
  · rename_i now passed task calling
    split
    · exact advanceStep_sound sound
    · exact advanceStep_sound (schedule_sound sound (.inr ⟨now, passed, task, calling⟩) ..)
  · exact advanceStep_sound sound

theorem runStep_ticking (ticking : w.advance = .ticking now) :
    w.runStep callbacks = if w.timerTick < now ∧ 0 < w.timerCount
      then { w with advance := .walking now none }
      else { w with timerTick := now, advance := .idle } := by
  simp only [TimerWheel.runStep, ticking, TimerWheel.advanceStep]

theorem runStep_due {node : TimerNode α} {rest : List (TimerNode α)}
    (walking : w.advance = .walking now none)
    (list : w.slots w.slot = node :: rest) (due : node.deadline ≤ now) :
    w.runStep callbacks = { w with
      slots := update w.slots w.slot rest
      timerCount := w.timerCount - 1
      advance := .calling now none node.task
      fired := w.fired ++ [(node, now)] } := by
  simp only [TimerWheel.runStep, walking, TimerWheel.advanceStep, TimerWheel.behind, list]
  rw [if_pos due]
  simp

/-- The advance comes to its end, or has fired more than `k` timers. -/
def Ends (callbacks : Callbacks α) (k : Nat) (w : TimerWheel α) : Prop :=
  ∃ steps, (w.after callbacks steps).advance = .idle ∨
    k < (w.after callbacks steps).fired.length

theorem Ends.of_step {k : Nat} (later : Ends callbacks k (w.runStep callbacks)) :
    Ends callbacks k w := by
  obtain ⟨steps, ended⟩ := later
  exact ⟨steps + 1, ended⟩

theorem advanceStep_scheduled (w : TimerWheel α) : w.advanceStep.scheduled = w.scheduled := by
  simp only [TimerWheel.advanceStep]
  repeat' split
  all_goals rfl

theorem runStep_scheduled (callbacks : Callbacks α) (w : TimerWheel α) :
    (w.runStep callbacks).scheduled = w.scheduled ∨
    ∃ node, (w.runStep callbacks).scheduled = w.scheduled ++ [node] ∧
      w.cachedTime ≤ node.deadline := by
  rw [TimerWheel.runStep]
  split
  · split
    · exact .inl (advanceStep_scheduled w)
    · rename_i deadline next _
      refine .inr ⟨w.newNode deadline next, advanceStep_scheduled _, ?_⟩
      simp only [TimerWheel.newNode]
      split <;> omega
  · exact .inl (advanceStep_scheduled w)

section

variable (sound : WheelSound w)
include sound

theorem WheelSound.slot_nodup (slot : Nat) (inside : slot < timerSlots) :
    ((w.slots slot).map TimerNode.number).Nodup := by
  have all : ((w.pending ++ w.fired.map Prod.fst).map TimerNode.number).Nodup := by
    rw [(sound.ledger.map _).nodup_iff, sound.numbers]
    exact nodup_range
  obtain ⟨others, split⟩ := spread_split w.slots inside
  have apart : w.pending.Perm (w.slots slot ++ others) := by
    have here := split (w.slots slot)
    rw [update_eq_self] at here
    exact here
  rw [map_append, nodup_append] at all
  have both := (apart.map TimerNode.number).nodup_iff.mp all.1
  rw [map_append, nodup_append] at both
  exact both.1

theorem walk_out {k : Nat} (walking : w.advance = .walking now passed)
    (later : ∀ node ∈ w.slots w.slot, now < node.deadline)
    (next : ∀ w' : TimerWheel α, WheelSound w' → w'.timerTick = w.timerTick + 1 →
      w'.advance = .ticking now → w'.fired = w.fired → Ends callbacks k w') :
    Ends callbacks k w := by
  have nodup := sound.slot_nodup w.slot (Nat.mod_lt _ (by decide))
  have sound' : WheelSound (w.runStep callbacks) := runStep_sound sound
  apply Ends.of_step
  induction list : TimerWheel.behind passed (w.slots w.slot)
    generalizing w passed with
  | nil =>
    have stepped : w.runStep callbacks =
        { w with timerTick := w.timerTick + 1, advance := .ticking now } := by
      simp only [TimerWheel.runStep, walking, TimerWheel.advanceStep, list]
    rw [stepped] at sound' ⊢
    exact next _ sound' rfl rfl rfl
  | cons node rest ih =>
    have undue := later node ((behind_suffix passed _).subset (list ▸ mem_cons_self))
    have stepped : w.runStep callbacks = { w with advance := .walking now (some node.number) } := by
      simp only [TimerWheel.runStep, walking, TimerWheel.advanceStep, list]
      rw [if_neg (by omega)]
    rw [stepped] at sound' ⊢
    exact .of_step (ih sound' rfl later next nodup (runStep_sound sound') (behind_next nodup list))

/-- `timer_wheel_fire_slot` fires the first timer of the list or comes to its end. -/
theorem walk_ends (walking : w.advance = .walking now passed)
    (next : ∀ w' : TimerWheel α, WheelSound w' → w'.timerTick = w.timerTick + 1 →
      w'.advance = .ticking now → w'.fired = w.fired → Ends callbacks w.fired.length w') :
    Ends callbacks w.fired.length w := by
  by_cases later : ∀ node ∈ w.slots w.slot, now < node.deadline
  · exact walk_out sound walking later next
  · have advance := sound.advance
    rw [walking] at advance
    obtain rfl : passed = none := by
      by_contra moved
      exact later (advance.2.2 moved)
    cases list : w.slots w.slot with
    | nil =>
      rw [list] at later
      exact absurd nofun later
    | cons node rest =>
      have due : node.deadline ≤ now := by
        by_contra undue
        have sorted := sound.sorted w.slot
        rw [list] at later sorted
        exact later (sorted.all_later (Nat.lt_of_not_le undue))
      apply Ends.of_step
      rw [runStep_due walking list due]
      exact ⟨0, .inr (length_append ▸ Nat.lt_succ_self _)⟩

theorem ticking_ends (ticking : w.advance = .ticking now) : Ends callbacks w.fired.length w := by
  have sound' : WheelSound (w.runStep callbacks) := runStep_sound sound
  apply Ends.of_step
  induction left : now - w.timerTick generalizing w with
  | zero =>
    rw [runStep_ticking ticking, if_neg (by omega)]
    exact ⟨0, .inl rfl⟩
  | succ left ih =>
    rw [runStep_ticking ticking] at sound' ⊢
    split at sound'
    · rename_i more
      rw [if_pos more]
      refine walk_ends sound' rfl fun w' sound ticked ticking same => ?_
      have ticked : w'.timerTick = w.timerTick + 1 := ticked
      rw [← same]
      exact .of_step (ih sound ticking (runStep_sound sound) (by omega))
    · rename_i done
      rw [if_neg done]
      exact ⟨0, .inl rfl⟩

theorem walking_ends (walking : w.advance = .walking now passed) :
    Ends callbacks w.fired.length w :=
  walk_ends sound walking fun _ sound' _ ticking same => same ▸ ticking_ends sound' ticking

variable (callbacks)

theorem runs_sound (n : Nat) : WheelSound (w.after callbacks n) := by
  induction n with
  | zero => exact sound
  | succ n ih =>
    rw [after_succ]
    exact runStep_sound ih

theorem ends_or_fires : Ends callbacks w.fired.length w := by
  cases stands : w.advance with
  | idle => exact ⟨0, .inl stands⟩
  | ticking now => exact ticking_ends sound stands
  | walking now passed => exact walking_ends sound stands
  | calling now passed task =>
    have sound' : WheelSound (w.runStep callbacks) := runStep_sound sound
    have stepped : (w.runStep callbacks).advance = .walking now passed ∧
        (w.runStep callbacks).fired = w.fired := by
      simp only [TimerWheel.runStep, stands]
      split
      · simp [TimerWheel.advanceStep, stands]
      · simp [TimerWheel.schedule, TimerWheel.advanceStep, stands]
    rw [← stepped.2]
    exact .of_step (walking_ends sound' stepped.1)

theorem returns_of_fired_le {bound : Nat}
    (bounded : ∀ n, (w.after callbacks n).fired.length ≤ bound) :
    Returns callbacks w := by
  induction left : bound - w.fired.length using Nat.strongRecOn generalizing w with
  | _ left ih =>
    obtain ⟨n, idle | more⟩ := ends_or_fires callbacks sound
    · exact ⟨n, idle⟩
    · have within := bounded n
      obtain ⟨m, idle⟩ := ih _ (by omega) (runs_sound callbacks sound n)
        (fun m => after_add m n ▸ bounded (m + n)) rfl
      exact ⟨m + n, after_add m n ▸ idle⟩

/-- What a step does to the clock and the cursor, and what it fires: a timer that is due, and
due before `now` when that is less than one turn ahead. -/
structure Advances (w w' : TimerWheel α) : Prop where
  clock : w'.cachedTime = w.cachedTime
  tick : w.timerTick ≤ w'.timerTick
  fired : w'.fired = w.fired ∨ ∃ node, w'.fired = w.fired ++ [(node, w.cachedTime)] ∧
    node.deadline ≤ w.cachedTime ∧
    (w.cachedTime < w.timerTick + timerSlots → node.deadline < w.cachedTime)

theorem advanceStep_advances : Advances w w.advanceStep := by
  have advance := sound.advance
  cases stands : w.advance with
  | idle | calling now passed task =>
    simp only [TimerWheel.advanceStep, stands]
    exact ⟨rfl, Nat.le_refl _, .inl rfl⟩
  | ticking now =>
    rw [stands] at advance
    simp only [TimerWheel.advanceStep, stands]
    split
    · exact ⟨rfl, Nat.le_refl _, .inl rfl⟩
    · exact ⟨rfl, Nat.le_trans sound.clock (Nat.le_of_eq advance), .inl rfl⟩
  | walking now passed =>
    rw [stands] at advance
    obtain ⟨rfl, before, _⟩ := advance
    simp only [TimerWheel.advanceStep, stands]
    split
    · exact ⟨rfl, Nat.le_succ _, .inl rfl⟩
    · rename_i node rest list
      split
      · rename_i due
        have inside : node ∈ w.slots w.slot :=
          (behind_suffix passed _).subset (list ▸ mem_cons_self)
        have placed := sound.placed _ node inside
        have early := sound.early _ node inside
        refine ⟨rfl, Nat.le_refl _, .inr ⟨node, rfl, due, fun near => ?_⟩⟩
        rw [timerSlots] at placed near
        rw [TimerWheel.slot, timerSlots] at placed
        omega
      · exact ⟨rfl, Nat.le_refl _, .inl rfl⟩

theorem runStep_advances : Advances w (w.runStep callbacks) := by
  rw [TimerWheel.runStep]
  split
  · rename_i now passed task calling
    split
    · exact advanceStep_advances sound
    · rename_i deadline next _
      have moves := advanceStep_advances
        (schedule_sound sound (.inr ⟨now, passed, task, calling⟩) deadline next true)
      exact ⟨moves.clock, moves.tick, moves.fired⟩
  · exact advanceStep_advances sound

theorem runs_clock (n : Nat) :
    (w.after callbacks n).cachedTime = w.cachedTime ∧
      w.timerTick ≤ (w.after callbacks n).timerTick := by
  induction n with
  | zero => exact ⟨rfl, Nat.le_refl _⟩
  | succ n ih =>
    rw [after_succ]
    have moves := runStep_advances callbacks (runs_sound callbacks sound n)
    exact ⟨moves.clock.trans ih.1, Nat.le_trans ih.2 moves.tick⟩

theorem fired_le {p : TimerNode α → Bool} (due : ∀ node, node.deadline ≤ w.cachedTime →
      (w.cachedTime < w.timerTick + timerSlots → node.deadline < w.cachedTime) → p node = true)
    (n : Nat) : (w.after callbacks n).fired.length ≤
      w.fired.length + (w.after callbacks n).scheduled.countP p := by
  have ledger := (runs_sound callbacks sound n).ledger.countP_eq p
  rw [countP_append] at ledger
  suffices counted : (w.after callbacks n).fired.length ≤ w.fired.length +
      ((w.after callbacks n).fired.map Prod.fst).countP p by omega
  clear ledger
  induction n with
  | zero => exact Nat.le_add_right ..
  | succ n ih =>
    obtain ⟨clock, tick⟩ := runs_clock callbacks sound n
    have moves := runStep_advances callbacks (runs_sound callbacks sound n)
    rw [after_succ]
    obtain same | ⟨node, more, soon, near⟩ := moves.fired
    · rw [same]
      exact ih
    · rw [clock] at soon near
      have counts := due node soon fun less => near (by omega)
      rw [more, length_append, map_append, countP_append]
      simp only [map_cons, map_nil, countP_singleton, counts, if_true, length_singleton]
      omega

/-- The callbacks schedule nothing that is due before `now`. -/
theorem early_scheduled (n : Nat) :
    (w.after callbacks n).scheduled.countP (·.deadline < w.cachedTime) =
      w.scheduled.countP (·.deadline < w.cachedTime) := by
  induction n with
  | zero => rfl
  | succ n ih =>
    rw [after_succ]
    obtain same | ⟨node, more, late⟩ :=
      runStep_scheduled callbacks (w.after callbacks n)
    · rw [same, ih]
    · rw [(runs_clock callbacks sound n).1] at late
      rw [more, countP_append, ih, countP_singleton, if_neg (by simpa using late), Nat.add_zero]

end

/-- A callback that schedules itself for a time that has passed. -/
def again : Callbacks α := fun task _ => some (0, task)

/-- An advance of at least one turn in which one timer for `now` comes back and back. -/
structure Spinning (now : Nat) (w : TimerWheel α) : Prop where
  clock : w.cachedTime = now
  far : w.timerTick + timerSlots ≤ now
  turn : (∃ node, node.deadline = now ∧ w.timerCount = 1 ∧
      (∀ slot, w.slots slot = if slot = now % timerSlots then [node] else []) ∧
      (w.advance = .ticking now ∨ w.advance = .walking now none)) ∨
    w.timerCount = 0 ∧ (∀ slot, w.slots slot = []) ∧ ∃ task, w.advance = .calling now none task

theorem Spinning.step (spinning : Spinning now w) : Spinning now (w.runStep again) := by
  obtain ⟨clock, far, ⟨node, deadline, count, slots, ticking | walking⟩ |
    ⟨count, slots, task, calling⟩⟩ := spinning
  · have more : w.timerTick < now ∧ 0 < w.timerCount := by
      rw [timerSlots] at far
      omega
    rw [runStep_ticking ticking, if_pos more]
    exact ⟨clock, far, .inl ⟨node, deadline, count, slots, .inr rfl⟩⟩
  · by_cases here : w.timerTick % timerSlots = now % timerSlots
    · have list : w.slots w.slot = [node] := by rw [slots, if_pos here]
      rw [runStep_due walking list (Nat.le_of_eq deadline), count]
      refine ⟨clock, far, .inr ⟨rfl, fun slot => ?_, node.task, rfl⟩⟩
      by_cases same : slot = w.slot
      · rw [same]
        exact update_self ..
      · simp only [update_of_ne same]
        rw [slots, if_neg (here ▸ same)]
    · have list : w.slots w.slot = [] := by rw [slots, if_neg here]
      have stepped : w.runStep again =
          { w with timerTick := w.timerTick + 1, advance := .ticking now } := by
        simp only [TimerWheel.runStep, walking, TimerWheel.advanceStep, TimerWheel.behind, list]
      rw [stepped]
      refine ⟨clock, ?_, .inl ⟨node, deadline, count, slots, .inl rfl⟩⟩
      rw [timerSlots] at far here ⊢
      dsimp only
      omega
  · have made : (w.newNode 0 task).deadline = now := by
      simp only [TimerWheel.newNode, clock]
      split <;> omega
    have stepped :
        w.runStep again = { w.schedule 0 task true with advance := .walking now none } := by
      simp [TimerWheel.runStep, calling, again, TimerWheel.schedule, TimerWheel.advanceStep]
    rw [stepped]
    simp only [TimerWheel.schedule, if_true]
    refine ⟨clock, far, .inl ⟨w.newNode 0 task, made, by simp [count], fun slot => ?_, .inr rfl⟩⟩
    simp only [made, slots, update_apply]
    rfl

theorem Spinning.never_returns (spinning : Spinning now w) : ¬ Returns again w := by
  rintro ⟨steps, idle⟩
  have spins : ∀ n, Spinning now (w.after again n) := by
    intro n
    induction n with
    | zero => exact spinning
    | succ n ih =>
      rw [after_succ]
      exact ih.step
  obtain ⟨_, _, ⟨_, _, _, _, ticking | walking⟩ | ⟨_, _, _, calling⟩⟩ := spins steps
  · cases idle.symm.trans ticking
  · cases idle.symm.trans walking
  · cases idle.symm.trans calling

/-- A wheel at `tick` with one timer for `now`, at the start of the advance to `now`. -/
def lagging (tick now : Nat) (task : α) : TimerWheel α :=
  ((TimerWheel.created tick).schedule now task true).step (.advance now)

theorem lagging_reached {tick : Nat} (task : α) (behind : tick ≤ now) :
    Path TimerWheel.step (fun w op => op.Allowed w) (.created tick) (lagging tick now task) := by
  have scheduled : Path TimerWheel.step (fun w op => op.Allowed w) (.created tick)
      ((TimerWheel.created tick).schedule now task true) :=
    .step (TimerOp.schedule now task true) .start (Or.inl rfl)
  exact .step (TimerOp.advance now) scheduled ⟨rfl, behind⟩

theorem lagging_spinning {tick : Nat} (task : α) (far : tick + timerSlots ≤ now) :
    Spinning now (lagging tick now task) := by
  have made : ((TimerWheel.created tick).newNode now task).deadline = now := by
    simp only [TimerWheel.newNode, TimerWheel.created]
    exact if_neg (by omega)
  refine ⟨rfl, far,
    .inl ⟨(TimerWheel.created tick).newNode now task, made, rfl, fun slot => ?_, .inl rfl⟩⟩
  simp only [lagging, TimerWheel.step, TimerWheel.schedule, if_true, made]
  rw [update_apply]
  rfl

end Returning

end Kith.Reactor
