import Mathlib.Data.List.Chain
import Mathlib.Data.List.Nodup
import Kith.Lib.Linked
import Kith.Lib.Runs

/-!
# The task queue

Threads submit tasks and the reactor's thread runs them. A submission takes a node off
the free list, swaps itself into the tail and then links itself behind the node it found
there, or becomes the head when it found none. The drain takes the whole list at the
head and follows the links; it closes the list by a compare-exchange of the tail, and
where that fails it waits for the link that is still missing. Every atomic operation of
either side is a step of its own here, and so is each turn of the free list, which a
lock guards.
-/

namespace Kith.Reactor

open LinkedList Runs Function List

universe u

section Machine

variable {α : Type u}

/-- Where a thread stands in `kith_reactor_submit`. -/
inductive Submit (α : Type u) where
  | idle
  /-- A node is off the free list. -/
  | popped (node : Nat) (task : α)
  /-- It holds the task and has no successor. -/
  | ready (node : Nat) (task : α)
  /-- It is the tail; `prev` was the tail before. -/
  | linking (node : Nat) (prev : Option Nat)

/-- Where the reactor's thread stands in `task_queue_drain`. -/
inductive Drain where
  | idle
  | loading (head : Nat)
  | closing (head : Nat)
  | waiting (head : Nat)
  | calling (head : Nat) (next : Option Nat)
  | recycling (head : Nat) (next : Option Nat)

structure TaskQueue (α : Type u) where
  next : Nat → Option Nat
  task : Nat → α
  taskHead : Option Nat
  taskTail : Option Nat
  taskFreeList : Option Nat
  calls : Nat → Submit α
  drain : Drain
  /-- The tasks that got into the tail, in that order. -/
  accepted : List α
  /-- The tasks whose callbacks ran. -/
  ran : List α
  /-- The nodes that got into the tail and are not recycled. -/
  queued : List Nat

inductive QueueOp (α : Type u) where
  | pop (thread : Nat) (task : α)
  | prepare (thread : Nat)
  | exchange (thread : Nat)
  | publish (thread : Nat)
  | drain

namespace TaskQueue

variable (q : TaskQueue α)

def setCall (thread : Nat) (call : Submit α) : TaskQueue α :=
  { q with calls := update q.calls thread call }

/-- The locked part of a submission; an empty free list refuses it. -/
def pop (thread : Nat) (task : α) : TaskQueue α :=
  match q.calls thread, q.taskFreeList with
  | .idle, some node =>
    { q.setCall thread (.popped node task) with taskFreeList := q.next node }
  | _, _ => q

def prepare (thread : Nat) : TaskQueue α :=
  match q.calls thread with
  | .popped node task =>
    { q.setCall thread (.ready node task) with
      task := update q.task node task
      next := update q.next node none }
  | _ => q

def exchange (thread : Nat) : TaskQueue α :=
  match q.calls thread with
  | .ready node task =>
    { q.setCall thread (.linking node q.taskTail) with
      taskTail := some node
      accepted := q.accepted ++ [task]
      queued := q.queued ++ [node] }
  | _ => q

def publish (thread : Nat) : TaskQueue α :=
  match q.calls thread with
  | .linking node (some prev) =>
    { q.setCall thread .idle with next := update q.next prev (some node) }
  | .linking node none => { q.setCall thread .idle with taskHead := some node }
  | _ => q

/-- The next step of `task_queue_drain`, with `task_node_recycle` as one. -/
def drainStep : TaskQueue α :=
  match q.drain with
  | .idle =>
    match q.taskHead with
    | none => q
    | some head => { q with taskHead := none, drain := .loading head }
  | .loading head =>
    match q.next head with
    | none => { q with drain := .closing head }
    | some next => { q with drain := .calling head (some next) }
  | .closing head =>
    if q.taskTail = some head then { q with taskTail := none, drain := .calling head none }
    else { q with drain := .waiting head }
  | .waiting head =>
    match q.next head with
    | none => q
    | some next => { q with drain := .calling head (some next) }
  | .calling head next =>
    { q with ran := q.ran ++ [q.task head], drain := .recycling head next }
  | .recycling head next =>
    { q with
      next := update q.next head q.taskFreeList
      taskFreeList := some head
      drain := match next with
        | none => .idle
        | some next => .loading next
      queued := q.queued.erase head }

def step : QueueOp α → TaskQueue α
  | .pop thread task => q.pop thread task
  | .prepare thread => q.prepare thread
  | .exchange thread => q.exchange thread
  | .publish thread => q.publish thread
  | .drain => q.drainStep

/-- A new node goes to the front of the free list. -/
def allocate (node : Nat) : TaskQueue α :=
  { q with
    next := update q.next node q.taskFreeList
    taskFreeList := some node }

/-- The nodes of a new reactor; their tasks are whatever the memory holds. -/
def reactorAllocTaskNodes (count : Nat) (task : Nat → α) : TaskQueue α :=
  (List.range count).foldl allocate
    { next := fun _ => none
      task := task
      taskHead := none
      taskTail := none
      taskFreeList := none
      calls := fun _ => .idle
      drain := .idle
      accepted := []
      ran := []
      queued := [] }

end TaskQueue

end Machine

section Invariant

variable {α : Type u} {b i : Nat}

def Submit.node : Submit α → Option Nat
  | .idle => none
  | .popped node _ => some node
  | .ready node _ => some node
  | .linking node _ => some node

/-- The node of a submission that has not reached the queue. -/
def Submit.held : Submit α → Option Nat
  | .popped node _ => some node
  | .ready node _ => some node
  | _ => none

/-- The front of the queue, when the drain has reached it. -/
def Drain.front : Drain → Option Nat
  | .loading head => some head
  | .closing head => some head
  | .waiting head => some head
  | .calling head (some _) => some head
  | .recycling _ (some next) => some next
  | _ => none

/-- The node that the drain has taken out of the queue and not recycled. -/
def Drain.taken : Drain → List Nat
  | .calling head none => [head]
  | .recycling head _ => [head]
  | _ => []

/-- The taken node, while its callback has not run. -/
def Drain.due : Drain → List Nat
  | .calling head none => [head]
  | _ => []

/-- A node is linked to the one behind it, or a submission is about to do that. -/
def Joined (q : TaskQueue α) (a b : Nat) : Prop :=
  q.next a = some b ∨ q.next a = none ∧ ∃ thread, q.calls thread = .linking b (some a)

/-- The nodes of the queue, the free list and the submissions. -/
structure Stock (q : TaskQueue α) (line free : List Nat) : Prop where
  queued : q.queued = q.drain.taken ++ line
  nodes : (q.queued ++ free).Nodup
  freed : Linked q.next q.taskFreeList free
  owners : ∀ i j b, (q.calls i).node = some b → (q.calls j).node = some b → i = j
  held : ∀ i b, (q.calls i).held = some b → b ∉ q.queued ++ free
  ready : ∀ i b t, q.calls i = .ready b t → q.next b = none ∧ q.task b = t

/-- The nodes from the front of the queue to its tail, and how each is reached. -/
structure Line (q : TaskQueue α) (line : List Nat) : Prop where
  nodup : line.Nodup
  chain : line.IsChain (Joined q)
  linking : ∀ i b a, q.calls i = .linking b (some a) → q.next a = none ∧ [a, b] <:+: line
  opening : ∀ i b, q.calls i = .linking b none →
    line.head? = some b ∧ q.drain.front = none ∧ q.taskHead = none
  tail : q.taskTail = line.getLast?
  last : ∀ z, q.taskTail = some z → q.next z = none
  front : ∀ h, q.drain.front = some h → line.head? = some h ∧ q.taskHead = none
  entry : q.drain.front = none → q.taskHead = line.head? ∨
    q.taskHead = none ∧ ∃ i b, line.head? = some b ∧ q.calls i = .linking b none
  found : ∀ h n, q.drain = .calling h (some n) → q.next h = some n
  awaited : ∀ h, q.drain = .waiting h → q.taskTail ≠ some h

structure Intact (q : TaskQueue α) (line free : List Nat) : Prop where
  stock : Stock q line free
  links : Line q line
  tasks : q.accepted = q.ran ++ (q.drain.due ++ line).map q.task

variable {q q' : TaskQueue α} {line free : List Nat}

theorem held_node {call : Submit α} (held : call.held = some b) : call.node = some b := by
  cases call with
  | popped | ready => exact held
  | _ => cases held

theorem Stock.mem_queued (stock : Stock q line free) (member : b ∈ line) : b ∈ q.queued := by
  rw [stock.queued]
  exact mem_append_right _ member

theorem Stock.mem_due (stock : Stock q line free) (member : b ∈ q.drain.due ++ line) :
    b ∈ q.queued := by
  rcases mem_append.mp member with due | inLine
  · have taken : b ∈ q.drain.taken := by
      cases drain : q.drain with
      | calling head next =>
        cases next with
        | none => simpa [drain, Drain.due, Drain.taken] using due
        | some next => simp [drain, Drain.due] at due
      | _ => simp [drain, Drain.due] at due
    rw [stock.queued]
    exact mem_append_left _ taken
  · exact stock.mem_queued inLine

theorem Line.node_mem (links : Line q line) (held : (q.calls i).held = none)
    (node : (q.calls i).node = some b) : b ∈ line := by
  cases call : q.calls i with
  | idle => simp [call, Submit.node] at node
  | popped | ready => simp [call, Submit.held] at held
  | linking b' prev =>
    rw [call] at node
    cases node
    cases prev with
    | none => exact mem_of_head? (links.opening i b call).1
    | some a => exact (links.linking i b a call).2.subset (by simp)

theorem Intact.not_free (intact : Intact q line free) (node : (q.calls i).node = some b) :
    b ∉ free := by
  cases held : (q.calls i).held with
  | none =>
    have member := intact.stock.mem_queued (intact.links.node_mem held node)
    exact fun isFree => (nodup_append.mp intact.stock.nodes).2.2 b member b isFree rfl
  | some b' =>
    obtain rfl : b' = b := Option.some.inj ((held_node held).symm.trans node)
    exact fun isFree => intact.stock.held i b' held (mem_append_right _ isFree)

theorem Line.frame (links : Line q line) (next : ∀ a ∈ line, q'.next a = q.next a)
    (calls : ∀ i b prev, q'.calls i = .linking b prev ↔ q.calls i = .linking b prev)
    (head : q'.taskHead = q.taskHead) (tail : q'.taskTail = q.taskTail)
    (front : q'.drain.front = q.drain.front)
    (found : ∀ h n, q'.drain = .calling h (some n) → q'.next h = some n)
    (awaited : ∀ h, q'.drain = .waiting h → q.taskTail ≠ some h) : Line q' line := by
  constructor
  · exact links.nodup
  · refine links.chain.imp_of_mem_imp fun a b ha _ joined => ?_
    rw [Joined, next a ha]
    rcases joined with linked | ⟨unlinked, thread, call⟩
    · exact .inl linked
    · exact .inr ⟨unlinked, thread, (calls ..).mpr call⟩
  · intro i b a call
    obtain ⟨unlinked, pair⟩ := links.linking i b a ((calls ..).mp call)
    exact ⟨(next a (pair.subset mem_cons_self)).trans unlinked, pair⟩
  · intro i b call
    rw [front, head]
    exact links.opening i b ((calls ..).mp call)
  · exact tail.trans links.tail
  · intro z isTail
    rw [tail] at isTail
    have member : z ∈ line := mem_of_getLast? (links.tail.symm.trans isTail)
    exact (next z member).trans (links.last z isTail)
  · intro h isFront
    rw [head]
    exact links.front h (front.symm.trans isFront)
  · intro unreached
    rw [head]
    rcases links.entry (front.symm.trans unreached) with entry | ⟨none, i, b, first, call⟩
    · exact .inl entry
    · exact .inr ⟨none, i, b, first, (calls ..).mpr call⟩
  · exact found
  · intro h waiting
    rw [tail]
    exact awaited h waiting

end Invariant

section Steps

variable {α : Type u} {q : TaskQueue α} {line free : List Nat} {thread : Nat} {call : Submit α}
    {calls : Nat → Submit α} {node head : Nat} {drain : Drain}

theorem owners_update (owners : ∀ i j b, (calls i).node = some b → (calls j).node = some b → i = j)
    (own : ∀ j b, call.node = some b → (calls j).node = some b → j = thread) (i j b : Nat)
    (left : (update calls thread call i).node = some b)
    (right : (update calls thread call j).node = some b) : i = j := by
  by_cases hi : i = thread
  · by_cases hj : j = thread
    · exact hi.trans hj.symm
    · subst hi
      rw [update_self] at left
      rw [update_of_ne hj] at right
      exact (own j b left right).symm
  · rw [update_of_ne hi] at left
    by_cases hj : j = thread
    · subst hj
      rw [update_self] at right
      exact own i b right left
    · rw [update_of_ne hj] at right
      exact owners i j b left right

theorem linking_update (before : ∀ b prev, calls thread ≠ .linking b prev)
    (after : ∀ b prev, call ≠ .linking b prev) (i b : Nat) (prev : Option Nat) :
    update calls thread call i = .linking b prev ↔ calls i = .linking b prev := by
  by_cases h : i = thread
  · subst h
    rw [update_self]
    exact ⟨fun now => absurd now (after b prev), fun was => absurd was (before b prev)⟩
  · rw [update_of_ne h]

theorem linking_other {i b : Nat} {prev : Option Nat} (was : calls i = .linking b prev)
    (different : calls thread ≠ .linking b prev) :
    update calls thread call i = .linking b prev := by
  rw [update_of_ne]
  · exact was
  · rintro rfl
    exact different was

theorem Stock.setCall (stock : Stock q line free)
    (own : ∀ j b, call.node = some b → (q.calls j).node = some b → j = thread)
    (held : ∀ b, call.held = some b → b ∉ q.queued ++ free)
    (ready : ∀ b t, call = .ready b t → q.next b = none ∧ q.task b = t) :
    Stock (q.setCall thread call) line free := by
  refine { stock with owners := owners_update stock.owners own, held := ?_, ready := ?_ }
  · intro i b isHeld
    simp only [TaskQueue.setCall, update_apply] at isHeld
    split at isHeld
    · exact held b isHeld
    · exact stock.held i b isHeld
  · intro i b t isReady
    simp only [TaskQueue.setCall, update_apply] at isReady
    split at isReady
    · exact ready b t isReady
    · exact stock.ready i b t isReady

theorem Stock.write (stock : Stock q line free) (apart : node ∉ free)
    (unready : ∀ i t, q.calls i ≠ .ready node t) {task : Nat → α}
    (same : ∀ b, b ≠ node → task b = q.task b) (next : Option Nat) :
    Stock { q with next := update q.next node next, task := task } line free := by
  refine { stock with
    freed := stock.freed.frame fun a member => update_of_ne ?_ ..
    ready := fun i b t isReady => ?_ }
  · rintro rfl
    exact apart member
  · have different : b ≠ node := by
      rintro rfl
      exact unready i t isReady
    simp only [update_of_ne different, same b different]
    exact stock.ready i b t isReady

theorem Intact.pop (intact : Intact q line free) (thread : Nat) (task : α) :
    ∃ free, Intact (q.pop thread task) line free := by
  rw [TaskQueue.pop]
  split
  · rename_i node idle first
    have linked := intact.stock.freed
    rw [first] at linked
    obtain ⟨rest, rfl, freed⟩ := linked.pop
    have nodes := intact.stock.nodes
    have fewer : (q.queued ++ rest).Sublist (q.queued ++ node :: rest) :=
      (sublist_cons_self ..).append_left _
    have stock : Stock { q with taskFreeList := q.next node } line rest := { intact.stock with
      nodes := nodes.sublist fewer
      freed := freed
      held := fun i b held member => intact.stock.held i b held (fewer.subset member) }
    refine ⟨rest, stock.setCall ?_ ?_ (by rintro b t ⟨⟩), ?_, intact.tasks⟩
    · rintro j b ⟨⟩ owned
      exact absurd mem_cons_self (intact.not_free owned)
    · rintro b ⟨⟩
      exact (nodup_cons.mp (nodup_middle.mp nodes)).1
    · refine intact.links.frame (fun _ _ => rfl) ?_ rfl rfl rfl intact.links.found
        intact.links.awaited
      exact linking_update (by simp [idle]) (by simp)
  · exact ⟨free, intact⟩

theorem Intact.prepare (intact : Intact q line free) (thread : Nat) :
    Intact (q.prepare thread) line free := by
  rw [TaskQueue.prepare]
  split
  · rename_i node task popped
    have apart : node ∉ q.queued ++ free := intact.stock.held thread node (by rw [popped]; rfl)
    have other : ∀ {b}, b ∈ q.queued ++ free → b ≠ node := by
      rintro b member rfl
      exact apart member
    have inLine : ∀ {b}, b ∈ line → b ≠ node := fun member =>
      other (mem_append_left _ (intact.stock.mem_queued member))
    have sole : ∀ j, (q.calls j).node = some node → j = thread := fun j owned =>
      intact.stock.owners j thread node owned (by rw [popped]; rfl)
    have unready : ∀ i t, q.calls i ≠ .ready node t := by
      intro i t isReady
      obtain rfl := sole i (by rw [isReady]; rfl)
      cases popped.symm.trans isReady
    have stock := intact.stock.write (fun isFree => apart (mem_append_right _ isFree)) unready
      (fun _ different => update_of_ne different task q.task) none
    refine ⟨stock.setCall ?_ ?_ ?_, ?_, ?_⟩
    · rintro j b ⟨⟩ owned
      exact sole j owned
    · rintro b ⟨⟩
      exact apart
    · rintro b t ⟨⟩
      simp
    · refine intact.links.frame (fun a member => update_of_ne (inLine member) ..) ?_ rfl rfl
        rfl (fun h n calling => ?_) intact.links.awaited
      · exact linking_update (by simp [popped]) (by simp)
      · have front : q.drain.front = some h := by
          rw [show q.drain = .calling h (some n) from calling]
          rfl
        have member := mem_of_head? (intact.links.front h front).1
        exact (update_of_ne (inLine member) ..).trans (intact.links.found h n calling)
    · refine intact.tasks.trans (congrArg (q.ran ++ ·) (map_congr_left fun b member => ?_))
      exact (update_of_ne (other (mem_append_left _ (intact.stock.mem_due member))) ..).symm
  · exact intact

theorem Line.exchange (links : Line q line) {task : α} (ready : q.calls thread = .ready node task)
    (apart : node ∉ line) (bare : q.next node = none) (accepted : List α) (queued : List Nat) :
    Line { q.setCall thread (.linking node q.taskTail) with
      taskTail := some node
      accepted := accepted
      queued := queued } (line ++ [node]) := by
  have others : ∀ {i b prev}, q.calls i = .linking b prev →
      update q.calls thread (.linking node q.taskTail) i = .linking b prev :=
    fun call => linking_other call (by simp [ready])
  have first : ∀ {b}, line.head? = some b → (line ++ [node]).head? = some b := by
    intro b isFirst
    rw [head?_append, isFirst]
    rfl
  constructor
  · rw [nodup_append]
    refine ⟨links.nodup, pairwise_singleton .., ?_⟩
    rintro a member b isNode rfl
    exact apart (mem_singleton.mp isNode ▸ member)
  · refine isChain_append.mpr ⟨links.chain.imp fun a b joined => ?_, isChain_singleton _, ?_⟩
    · rcases joined with linked | ⟨unlinked, i, call⟩
      · exact .inl linked
      · exact .inr ⟨unlinked, i, others call⟩
    · intro a isLast b isNode
      have isTail : q.taskTail = some a := links.tail.trans isLast
      cases isNode
      refine .inr ⟨links.last a isTail, thread, ?_⟩
      simp only [TaskQueue.setCall, update_self, isTail]
  · intro i b a call
    simp only [TaskQueue.setCall, update_apply] at call ⊢
    split at call
    · simp only [Submit.linking.injEq] at call
      obtain ⟨rfl, isTail⟩ := call
      obtain ⟨init, rfl⟩ := getLast?_eq_some_iff.mp (links.tail.symm.trans isTail)
      exact ⟨links.last a isTail, init, [], by simp⟩
    · obtain ⟨unlinked, pair⟩ := links.linking i b a call
      exact ⟨unlinked, pair.trans (prefix_append line [node]).isInfix⟩
  · intro i b call
    simp only [TaskQueue.setCall, update_apply] at call ⊢
    split at call
    · simp only [Submit.linking.injEq] at call
      obtain ⟨rfl, isTail⟩ := call
      obtain rfl := getLast?_eq_none_iff.mp (links.tail.symm.trans isTail)
      have unreached : q.drain.front = none := by
        cases isFront : q.drain.front with
        | none => rfl
        | some h => cases (links.front h isFront).1
      refine ⟨rfl, unreached, ?_⟩
      rcases links.entry unreached with entry | ⟨none, _⟩
      · exact entry
      · exact none
    · obtain ⟨isFirst, unreached, none⟩ := links.opening i b call
      exact ⟨first isFirst, unreached, none⟩
  · simp
  · rintro z ⟨⟩
    exact bare
  · intro h isFront
    obtain ⟨isFirst, none⟩ := links.front h isFront
    exact ⟨first isFirst, none⟩
  · intro unreached
    rcases links.entry unreached with entry | ⟨none, i, b, isFirst, call⟩
    · cases isFirst : line.head? with
      | none =>
        obtain rfl := head?_eq_none_iff.mp isFirst
        refine .inr ⟨entry.trans isFirst, thread, node, rfl, ?_⟩
        simp only [TaskQueue.setCall, update_self, links.tail, getLast?_nil]
      | some b => exact .inl (entry.trans (isFirst.trans (first isFirst).symm))
    · exact .inr ⟨none, i, b, first isFirst, others call⟩
  · exact links.found
  · rintro h waiting ⟨⟩
    have isFront : q.drain.front = some node := by
      rw [show q.drain = .waiting node from waiting]
      rfl
    exact apart (mem_of_head? (links.front node isFront).1)

theorem Intact.exchange (intact : Intact q line free) (thread : Nat) :
    ∃ line, Intact (q.exchange thread) line free := by
  cases call : q.calls thread with
  | ready node task =>
    obtain ⟨bare, stored⟩ := intact.stock.ready thread node task call
    have apart : node ∉ q.queued ++ free := intact.stock.held thread node (by rw [call]; rfl)
    have apart' : node ∉ line := fun member =>
      apart (mem_append_left _ (intact.stock.mem_queued member))
    have links := intact.links.exchange call apart' bare (q.accepted ++ [task]) (q.queued ++ [node])
    rw [TaskQueue.exchange, call]
    have stock : Stock (q.setCall thread (.linking node q.taskTail)) line free := by
      refine intact.stock.setCall ?_ (by rintro b ⟨⟩) (by rintro b t ⟨⟩)
      rintro j b ⟨⟩ owned
      exact intact.stock.owners j thread node owned (by rw [call]; rfl)
    refine ⟨line ++ [node], { stock with queued := ?_, nodes := ?_, held := ?_ }, links, ?_⟩
    · simp only [TaskQueue.setCall, intact.stock.queued, append_assoc]
    · rw [append_assoc]
      exact nodup_middle.mpr (nodup_cons.mpr ⟨apart, intact.stock.nodes⟩)
    · intro i b held
      have away := stock.held i b held
      have different : b ≠ node := by
        rintro rfl
        obtain rfl :=
          stock.owners i thread b (held_node held) (by simp [TaskQueue.setCall, Submit.node])
        simp [TaskQueue.setCall, Submit.held] at held
      simp only [mem_append, mem_singleton, not_or] at away ⊢
      exact ⟨⟨away.1, different⟩, away.2⟩
    · simp [TaskQueue.setCall, intact.tasks, map_append, append_assoc, map_cons, map_nil, stored]
  | _ =>
    refine ⟨line, ?_⟩
    rw [TaskQueue.exchange, call]
    exact intact

theorem linking_done {i b : Nat} {prev : Option Nat}
    (call : update calls thread .idle i = .linking b prev) :
    i ≠ thread ∧ calls i = .linking b prev := by
  by_cases h : i = thread
  · subst h
    rw [update_self] at call
    cases call
  · rw [update_of_ne h] at call
    exact ⟨h, call⟩

variable (intact : Intact q line free)
include intact

theorem Line.publish_link {prev : Nat} (call : q.calls thread = .linking node (some prev)) :
    Line { q.setCall thread .idle with next := update q.next prev (some node) } line := by
  obtain ⟨unlinked, pair⟩ := intact.links.linking thread node prev call
  have nodup := intact.links.nodup
  -- A link behind `prev` that is still to come is this one.
  have only : ∀ {i b}, q.calls i = .linking b (some prev) → b = node ∧ i = thread := by
    intro i b other
    obtain rfl := pair_unique nodup (intact.links.linking i b prev other).2 pair
    exact ⟨rfl, intact.stock.owners i thread b (by rw [other]; rfl) (by rw [call]; rfl)⟩
  have links := intact.links
  refine { links with
    chain := ?_, linking := ?_, opening := ?_, last := ?_, entry := ?_, found := ?_ }
  · refine links.chain.imp fun a b joined => ?_
    by_cases h : a = prev
    · subst h
      left
      rcases joined with linked | ⟨_, i, other⟩
      · rw [unlinked] at linked
        cases linked
      · rw [(only other).1]
        exact update_self ..
    · rw [Joined]
      simp only [TaskQueue.setCall, update_of_ne h]
      rcases joined with linked | ⟨bare, i, other⟩
      · exact .inl linked
      · exact .inr ⟨bare, i, linking_other other (by simp [call, Ne.symm h])⟩
  · intro i b a other
    obtain ⟨h, still⟩ := linking_done other
    have different : a ≠ prev := by
      rintro rfl
      exact h (only still).2
    simp only [update_of_ne different]
    exact links.linking i b a still
  · intro i b other
    obtain ⟨_, other⟩ := linking_done other
    exact links.opening i b other
  · intro z isTail
    have different : z ≠ prev := by
      rintro rfl
      exact pair_not_last nodup pair (links.tail.symm.trans isTail)
    exact (update_of_ne different ..).trans (links.last z isTail)
  · intro unreached
    rcases links.entry unreached with entry | ⟨none, i, b, isFirst, other⟩
    · exact .inl entry
    · exact .inr ⟨none, i, b, isFirst, linking_other other (by simp [call])⟩
  · intro h n calling
    have next := links.found h n calling
    have different : h ≠ prev := by
      rintro rfl
      rw [unlinked] at next
      cases next
    exact (update_of_ne different ..).trans next

theorem Line.publish_head (call : q.calls thread = .linking node none) :
    Line { q.setCall thread .idle with taskHead := some node } line := by
  have links := intact.links
  obtain ⟨isFirst, unreached, _⟩ := links.opening thread node call
  refine { links with
    chain := ?_, linking := ?_, opening := ?_, front := ?_, entry := fun _ => .inl isFirst.symm }
  · refine links.chain.imp fun a b joined => ?_
    rcases joined with linked | ⟨bare, i, other⟩
    · exact .inl linked
    · exact .inr ⟨bare, i, linking_other other (by simp [call])⟩
  · intro i b a other
    exact links.linking i b a (linking_done other).2
  · intro i b other
    obtain ⟨h, other⟩ := linking_done other
    have same : some b = some node := (links.opening i b other).1.symm.trans isFirst
    cases same
    exact absurd (intact.stock.owners i thread node (by rw [other]; rfl) (by rw [call]; rfl)) h
  · intro h isFront
    cases unreached.symm.trans isFront

theorem Intact.publish (thread : Nat) : Intact (q.publish thread) line free := by
  have done : ∀ {q : TaskQueue α}, Stock q line free → Stock (q.setCall thread .idle) line free :=
    fun stock => stock.setCall (by rintro j b ⟨⟩) (by rintro b ⟨⟩) (by rintro b t ⟨⟩)
  rw [TaskQueue.publish]
  split
  · rename_i node prev call
    have inLine : prev ∈ line :=
      (intact.links.linking thread node prev call).2.subset mem_cons_self
    have inQueue := intact.stock.mem_queued inLine
    have stock := intact.stock.write
      (fun isFree => (nodup_append.mp intact.stock.nodes).2.2 prev inQueue prev isFree rfl)
      (fun i t isReady => intact.stock.held i prev (by rw [isReady]; rfl)
        (mem_append_left _ inQueue)) (fun _ _ => rfl) (some node)
    exact ⟨done stock, .publish_link intact call, intact.tasks⟩
  · rename_i node call
    have stock : Stock { q with taskHead := some node } line free := { intact.stock with }
    exact ⟨done stock, .publish_head intact call, intact.tasks⟩
  · exact intact

theorem Intact.move {was : Drain} (here : q.drain = was) (front : drain.front = was.front)
    (taken : drain.taken = was.taken) (due : drain.due = was.due)
    (found : ∀ h n, drain = .calling h (some n) → q.next h = some n)
    (awaited : ∀ h, drain = .waiting h → q.taskTail ≠ some h) :
    Intact { q with drain := drain } line free := by
  subst here
  refine ⟨{ intact.stock with queued := by rw [intact.stock.queued, taken] },
    intact.links.frame (fun _ _ => rfl) (fun _ _ _ => Iff.rfl) rfl rfl front found awaited, ?_⟩
  rw [due]
  exact intact.tasks

theorem Intact.take (idle : q.drain = .idle) (first : q.taskHead = some head) :
    Intact { q with taskHead := none, drain := .loading head } line free := by
  obtain ⟨stock, links, tasks⟩ := intact
  have queued := stock.queued
  have isFirst : line.head? = some head := by
    rcases links.entry (by rw [idle]; rfl) with entry | ⟨none, _⟩
    · exact entry.symm.trans first
    · rw [first] at none
      cases none
  rw [idle] at queued tasks
  refine ⟨{ stock with queued },
    { links with opening := ?_, front := ?_, entry := ?_, found := ?_, awaited := ?_ }, tasks⟩
  · intro i b call
    have none := (links.opening i b call).2.2
    rw [first] at none
    cases none
  · rintro h ⟨⟩
    exact ⟨isFirst, rfl⟩
  · rintro ⟨⟩
  · rintro h n ⟨⟩
  · rintro h ⟨⟩

theorem Intact.close (closing : q.drain = .closing head) (isTail : q.taskTail = some head) :
    Intact { q with taskTail := none, drain := .calling head none } [] free := by
  obtain ⟨stock, links, tasks⟩ := intact
  obtain ⟨isFirst, empty⟩ := links.front head (by rw [closing]; rfl)
  obtain rfl : line = [head] := eq_singleton links.nodup isFirst (links.tail.symm.trans isTail)
  have queued := stock.queued
  rw [closing] at queued tasks
  refine ⟨{ stock with queued }, ?_, tasks⟩
  constructor
  · exact nodup_nil
  · exact isChain_nil
  · intro i b a call
    have pair := (links.linking i b a call).2
    exact absurd pair.length_le (by simp)
  · intro i b call
    have unreached := (links.opening i b call).2.1
    rw [closing] at unreached
    cases unreached
  · rfl
  · rintro z ⟨⟩
  · rintro h ⟨⟩
  · exact fun _ => .inl empty
  · rintro h n ⟨⟩
  · rintro h ⟨⟩

theorem Intact.run {next : Nat} (calling : q.drain = .calling head (some next)) :
    ∃ line, Intact { q with ran := q.ran ++ [q.task head], drain := .recycling head (some next) }
      line free := by
  obtain ⟨stock, links, tasks⟩ := intact
  have linked := links.found head next calling
  obtain ⟨isFirst, empty⟩ := links.front head (by rw [calling]; rfl)
  have queued := stock.queued
  rw [calling] at queued tasks
  -- The successor is the second node of the line.
  obtain ⟨behind, rfl⟩ := head?_eq_some_iff.mp isFirst
  cases behind with
  | nil => cases (links.last head links.tail).symm.trans linked
  | cons second rest =>
    obtain rfl : second = next := by
      rcases (isChain_cons_cons.mp links.chain).1 with joined | ⟨bare, _⟩
      · exact Option.some.inj (joined.symm.trans linked)
      · cases bare.symm.trans linked
    refine ⟨second :: rest, { stock with queued }, ?_, ?_⟩
    · constructor
      · exact links.nodup.of_cons
      · exact links.chain.tail
      · intro i b a call
        obtain ⟨bare, pair⟩ := links.linking i b a call
        refine ⟨bare, ?_⟩
        rcases infix_cons_iff.mp pair with front | later
        · obtain ⟨rfl, _⟩ := cons_prefix_cons.mp front
          cases bare.symm.trans linked
        · exact later
      · intro i b call
        have unreached := (links.opening i b call).2.1
        rw [calling] at unreached
        cases unreached
      · exact links.tail.trans getLast?_cons_cons
      · exact links.last
      · rintro h ⟨⟩
        exact ⟨rfl, empty⟩
      · rintro ⟨⟩
      · rintro h n ⟨⟩
      · rintro h ⟨⟩
    · simpa [Drain.due] using tasks

theorem Intact.run_closed (calling : q.drain = .calling head none) :
    Intact { q with ran := q.ran ++ [q.task head], drain := .recycling head none } line free := by
  obtain ⟨stock, links, tasks⟩ := intact
  have queued := stock.queued
  rw [calling] at queued tasks
  refine ⟨{ stock with queued }, ?_, ?_⟩
  · refine links.frame (fun _ _ => rfl) (fun _ _ _ => Iff.rfl) rfl rfl ?_ (by rintro h n ⟨⟩)
      (by rintro h ⟨⟩)
    rw [calling]
    rfl
  · simpa [Drain.due] using tasks

/-- `task_node_recycle`: the node that ran goes back to the free list. -/
theorem Intact.recycle {next : Option Nat} (recycling : q.drain = .recycling head next)
    (front : drain.front = q.drain.front) (taken : drain.taken = []) (due : drain.due = [])
    (loads : ∀ h n, drain ≠ .calling h (some n)) (moves : ∀ h, drain ≠ .waiting h) :
    Intact { q with
      next := update q.next head q.taskFreeList
      taskFreeList := some head
      drain := drain
      queued := q.queued.erase head } line (head :: free) := by
  obtain ⟨queued, nodes, freed, owners, held, ready⟩ := intact.stock
  have tasks := intact.tasks
  rw [recycling] at queued tasks
  have queued : q.queued = head :: line := queued
  rw [queued, cons_append] at nodes held
  have apart := (nodup_cons.mp nodes).1
  rw [mem_append, not_or] at apart
  have away : ∀ {b}, b ∈ line → b ≠ head := by
    rintro b member rfl
    exact apart.1 member
  have left : q.queued.erase head = line := by simp [queued]
  refine ⟨⟨by simp [left, taken], ?_, freed.push apart.2, owners, ?_, ?_⟩, ?_, ?_⟩
  · rw [left]
    exact nodup_middle.mpr nodes
  · intro i b isHeld
    have outside := held i b isHeld
    rw [left]
    simp only [mem_cons, mem_append, not_or] at outside ⊢
    exact ⟨outside.2.1, outside.1, outside.2.2⟩
  · intro i b t isReady
    have different : b ≠ head := by
      rintro rfl
      have isHeld : (q.calls i).held = some b := by
        rw [show q.calls i = .ready b t from isReady]
        rfl
      exact held i b isHeld mem_cons_self
    simp only [update_of_ne different]
    exact ready i b t isReady
  · exact intact.links.frame (fun a member => update_of_ne (away member) ..)
      (fun _ _ _ => Iff.rfl) rfl rfl front (fun h n calling => absurd calling (loads h n))
      fun h waiting => absurd waiting (moves h)
  · rw [due]
    exact tasks

theorem Intact.drainStep : ∃ line free, Intact q.drainStep line free := by
  rw [TaskQueue.drainStep]
  cases drain : q.drain with
  | idle =>
    cases first : q.taskHead with
    | none => exact ⟨line, free, intact⟩
    | some head => exact ⟨line, free, intact.take drain first⟩
  | loading head =>
    dsimp only
    cases linked : q.next head with
    | none =>
      exact ⟨line, free, intact.move drain rfl rfl rfl (by rintro h n ⟨⟩) (by rintro h ⟨⟩)⟩
    | some next =>
      refine ⟨line, free, intact.move drain rfl rfl rfl ?_ (by rintro h ⟨⟩)⟩
      rintro h n ⟨⟩
      exact linked
  | closing head =>
    dsimp only
    split
    · rename_i isTail
      exact ⟨[], free, intact.close drain isTail⟩
    · rename_i moved
      refine ⟨line, free, intact.move drain rfl rfl rfl (by rintro h n ⟨⟩) ?_⟩
      rintro h ⟨⟩
      exact moved
  | waiting head =>
    dsimp only
    cases linked : q.next head with
    | none => exact ⟨line, free, intact⟩
    | some next =>
      refine ⟨line, free, intact.move drain rfl rfl rfl ?_ (by rintro h ⟨⟩)⟩
      rintro h n ⟨⟩
      exact linked
  | calling head next =>
    cases next with
    | none => exact ⟨line, free, intact.run_closed drain⟩
    | some next =>
      obtain ⟨line, intact⟩ := intact.run drain
      exact ⟨line, free, intact⟩
  | recycling head next =>
    refine ⟨line, head :: free, intact.recycle drain ?_ ?_ ?_ ?_ ?_⟩
    · rw [drain]
      cases next <;> rfl
    · cases next <;> rfl
    · cases next <;> rfl
    · intro h n
      cases next <;> simp
    · intro h
      cases next <;> simp

theorem Intact.step (op : QueueOp α) : ∃ line free, Intact (q.step op) line free := by
  cases op with
  | pop thread task =>
    obtain ⟨free, intact⟩ := intact.pop thread task
    exact ⟨line, free, intact⟩
  | prepare thread => exact ⟨line, free, intact.prepare thread⟩
  | exchange thread =>
    obtain ⟨line, intact⟩ := intact.exchange thread
    exact ⟨line, free, intact⟩
  | publish thread => exact ⟨line, free, intact.publish thread⟩
  | drain => exact intact.drainStep

end Steps

section Progress

variable {α : Type u} {q : TaskQueue α} {line free : List Nat}

/-- The steps that finish what is under way: links of accepted tasks and the drain. -/
def Finishing (_ : TaskQueue α) : QueueOp α → Prop
  | .publish _ => True
  | .drain => True
  | _ => False

/-- How far the drain is from the next callback. -/
def Drain.distance : Drain → Nat
  | .recycling _ _ => 5
  | .idle => 4
  | .loading _ => 3
  | .closing _ => 2
  | .waiting _ => 1
  | .calling _ _ => 0

def stepsLeft (q : TaskQueue α) : Nat := 6 * (q.accepted.length - q.ran.length) + q.drain.distance

section

variable (intact : Intact q line free)
include intact

theorem Intact.pending : q.accepted.length - q.ran.length = (q.drain.due ++ line).length := by
  rw [intact.tasks, length_append, length_map]
  omega

/-- A link that the front waits for can be made. -/
theorem Intact.link {head : Nat} (front : q.drain.front = some head)
    (behind : q.taskTail ≠ some head) (bare : q.next head = none) :
    ∃ thread next, q.calls thread = .linking next (some head) := by
  obtain ⟨isFirst, _⟩ := intact.links.front head front
  obtain ⟨rest, rfl⟩ := head?_eq_some_iff.mp isFirst
  cases rest with
  | nil => exact absurd intact.links.tail behind
  | cons second rest =>
    rcases (isChain_cons_cons.mp intact.links.chain).1 with joined | ⟨_, thread, call⟩
    · cases bare.symm.trans joined
    · exact ⟨thread, second, call⟩

/-- While an accepted task has not run, a step of the drain, or the link that it waits for
and then a step, brings the next callback nearer. -/
theorem Intact.progress (left : q.ran.length < q.accepted.length) :
    ∃ q', Path TaskQueue.step Finishing q q' ∧ q'.accepted = q.accepted ∧
      stepsLeft q' < stepsLeft q := by
  have one : Path TaskQueue.step Finishing q q.drainStep := .step QueueOp.drain .start trivial
  have two : ∀ thread, Path TaskQueue.step Finishing q (q.publish thread).drainStep := fun thread =>
    .step QueueOp.drain (.step (QueueOp.publish thread) .start trivial) trivial
  cases drain : q.drain with
  | idle =>
    have pending := intact.pending
    rw [drain] at pending
    obtain ⟨b, rest, rfl⟩ : ∃ b rest, line = b :: rest := by
      cases line with
      | nil => simp [Drain.due] at pending; omega
      | cons b rest => exact ⟨b, rest, rfl⟩
    rcases intact.links.entry (by rw [drain]; rfl) with entry | ⟨_, thread, node, _, call⟩
    · refine ⟨q.drainStep, one, ?_⟩
      simp [TaskQueue.drainStep, drain, stepsLeft, entry, Drain.distance]
    · refine ⟨(q.publish thread).drainStep, two thread, ?_⟩
      simp [TaskQueue.publish, call, TaskQueue.setCall, TaskQueue.drainStep, drain, stepsLeft,
        Drain.distance]
  | loading head =>
    refine ⟨q.drainStep, one, ?_⟩
    simp only [TaskQueue.drainStep, drain, stepsLeft]
    cases q.next head <;> simp [Drain.distance]
  | closing head =>
    refine ⟨q.drainStep, one, ?_⟩
    simp only [TaskQueue.drainStep, drain, stepsLeft]
    split <;> simp [Drain.distance]
  | waiting head =>
    cases linked : q.next head with
    | some next =>
      refine ⟨q.drainStep, one, ?_⟩
      simp [TaskQueue.drainStep, drain, stepsLeft, linked, Drain.distance]
    | none =>
      obtain ⟨thread, next, call⟩ := intact.link (by rw [drain]; rfl)
        (intact.links.awaited head drain) linked
      refine ⟨(q.publish thread).drainStep, two thread, ?_⟩
      simp [TaskQueue.publish, call, TaskQueue.setCall, TaskQueue.drainStep, drain, stepsLeft,
        Drain.distance]
  | calling head next =>
    refine ⟨q.drainStep, one, by simp only [TaskQueue.drainStep, drain], ?_⟩
    simp only [TaskQueue.drainStep, drain, stepsLeft, Drain.distance, length_append,
      length_singleton]
    omega
  | recycling head next =>
    refine ⟨q.drainStep, one, ?_⟩
    simp only [TaskQueue.drainStep, drain, stepsLeft]
    cases next <;> simp [Drain.distance]

omit intact in
theorem path_intact {guard : TaskQueue α → QueueOp α → Prop} {q' : TaskQueue α}
    (intact : ∃ line free, Intact q line free) (path : Path TaskQueue.step guard q q') :
    ∃ line free, Intact q' line free :=
  path.invariant (fun q => ∃ line free, Intact q line free)
    (fun _ op ⟨_, _, intact⟩ _ => intact.step op) intact

/-- The steps under way run every accepted task. -/
theorem Intact.finish :
    ∃ q', Path TaskQueue.step Finishing q q' ∧ q'.accepted = q.accepted ∧ q'.ran = q.accepted := by
  induction measure : stepsLeft q using Nat.strong_induction_on generalizing q line free with
  | _ n ih =>
    by_cases left : q.ran.length < q.accepted.length
    · obtain ⟨q₁, first, kept, nearer⟩ := intact.progress left
      obtain ⟨line₁, free₁, intact₁⟩ := path_intact ⟨line, free, intact⟩ first
      obtain ⟨q', rest, accepted, ran⟩ := ih _ (measure ▸ nearer) intact₁ rfl
      exact ⟨q', first.trans rest, accepted.trans kept, ran.trans kept⟩
    · have pending := intact.pending
      have done : q.drain.due ++ line = [] := by
        apply eq_nil_of_length_eq_zero
        omega
      refine ⟨q, .start, rfl, ?_⟩
      rw [intact.tasks, done, map_nil, append_nil]

end

/-- A queue that nothing was submitted to, with its nodes on the free list. -/
structure Unused (q : TaskQueue α) (free : List Nat) : Prop where
  nodup : free.Nodup
  freed : Linked q.next q.taskFreeList free
  calls : ∀ i, q.calls i = .idle
  drain : q.drain = .idle
  empty : q.taskHead = none ∧ q.taskTail = none ∧ q.queued = []
  tasks : q.accepted = [] ∧ q.ran = []

theorem Unused.allocate {node : Nat} (unused : Unused q free) (fresh : node ∉ free) :
    Unused (q.allocate node) (node :: free) := { unused with
  nodup := nodup_cons.mpr ⟨fresh, unused.nodup⟩
  freed := unused.freed.push fresh }

theorem Unused.intact (unused : Unused q free) : Intact q [] free := by
  obtain ⟨nodup, freed, calls, drain, ⟨head, tail, queued⟩, accepted, ran⟩ := unused
  refine ⟨⟨by simp [drain, queued, Drain.taken], by simpa [queued] using nodup, freed, ?_, ?_, ?_⟩,
    ?_, by simp [accepted, ran, drain, Drain.due]⟩
  · simp [calls, Submit.node]
  · simp [calls, Submit.held]
  · simp [calls]
  · constructor <;> simp [calls, drain, head, tail, Drain.front]

theorem reactorAllocTaskNodes_unused (count : Nat) (task : Nat → α) :
    ∃ free, (∀ node ∈ free, node < count) ∧
      Unused (TaskQueue.reactorAllocTaskNodes count task) free := by
  induction count with
  | zero => exact ⟨[], by simp, nodup_nil, rfl, fun _ => rfl, rfl, ⟨rfl, rfl, rfl⟩, rfl, rfl⟩
  | succ count ih =>
    obtain ⟨free, below, unused⟩ := ih
    have fresh : count ∉ free := fun member => Nat.lt_irrefl _ (below count member)
    have one_more : TaskQueue.reactorAllocTaskNodes (count + 1) task =
        (TaskQueue.reactorAllocTaskNodes count task).allocate count := by
      simp [TaskQueue.reactorAllocTaskNodes, range_succ]
    refine ⟨count :: free, ?_, ?_⟩
    · intro node member
      rcases mem_cons.mp member with rfl | old
      · exact Nat.lt_succ_self _
      · exact Nat.lt_succ_of_lt (below node old)
    · rw [one_more]
      exact unused.allocate fresh

theorem Intact.due_suffix (intact : Intact q line free) : q.drain.due ++ line <:+ q.queued := by
  rw [intact.stock.queued]
  cases q.drain with
  | calling head next =>
    cases next with
    | none | some next => exact suffix_refl _
  | recycling head next => exact suffix_cons _ _
  | _ => exact suffix_refl _

/-- In every interleaving the callbacks that ran are those of the first accepted tasks, in
the order of the tail exchanges; the nodes of the other accepted tasks are in the queue,
and no node there is on the free list; and the links and drain steps under way lead to a
state where all of them ran. -/
theorem tasks_exactly_once {count : Nat} {task : Nat → α} {q : TaskQueue α}
    (path : Path TaskQueue.step (fun _ _ => True) (.reactorAllocTaskNodes count task) q) :
    (∃ unrun, unrun <:+ q.queued ∧ q.accepted = q.ran ++ unrun.map q.task) ∧
      (∃ free, Linked q.next q.taskFreeList free ∧ (q.queued ++ free).Nodup) ∧
      ∃ q', Path TaskQueue.step Finishing q q' ∧ q'.accepted = q.accepted ∧
        q'.ran = q.accepted := by
  obtain ⟨free, _, unused⟩ := reactorAllocTaskNodes_unused count task
  obtain ⟨line, free, intact⟩ := path_intact ⟨[], free, unused.intact⟩ path
  exact ⟨⟨q.drain.due ++ line, intact.due_suffix, intact.tasks⟩,
    ⟨free, intact.stock.freed, intact.stock.nodes⟩, intact.finish⟩

/-- Two threads submit. The second swaps itself into the tail behind the first and links
itself before the first has published the head; then the drain runs both tasks. -/
def overtaken : List (QueueOp Nat) :=
  [.pop 0 7, .pop 1 8, .prepare 0, .prepare 1, .exchange 0, .exchange 1, .drain, .publish 1,
    .publish 0] ++ List.replicate 8 .drain

def twoNodes : TaskQueue Nat := .reactorAllocTaskNodes 2 fun _ => 0

theorem tasks_exactly_once_overtaken :
    (overtaken.foldl TaskQueue.step twoNodes).ran = [7, 8] ∧
      ∃ free, Linked (overtaken.foldl TaskQueue.step twoNodes).next
        (overtaken.foldl TaskQueue.step twoNodes).taskFreeList free := by
  obtain ⟨_, ⟨free, freed, _⟩, _⟩ := tasks_exactly_once (path_foldl twoNodes overtaken)
  exact ⟨by decide, free, freed⟩

end Progress

end Kith.Reactor
