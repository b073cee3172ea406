import Kith.Gateway.Cache
import Kith.Lib.RefCount

/-!
# Session windows over the shared cache

A session tracks the cells of its window and holds one reference on the cache
node of each. A call on a session holds the session's window lock; the calls of
other sessions and the direct subscriptions of other threads may fall between
the accesses it makes to the cache, so a call that makes several is a task that
advances by one access a step. Session destroy detaches the session first.
-/

namespace Kith.Gateway

open LinearProbe RefCount Runs SwapRemove Kith.Fabric Function List Option

/-- A call that holds the window lock between two of its accesses to the cache:
`next` is the window position it releases next, `keys` the cells it still has to add. -/
inductive WindowTask where
  | clear (next : Nat)
  | destroy (next : Nat)
  | populate (keys : List CellKey) (rc : Rc)
  deriving DecidableEq

/-- What the window calls use of a session. `attached` is a gateway pointer that is not
null; `pending` lists the retained adds in the order of the ring. -/
structure WindowSession where
  attached : Bool
  actorId : UInt64
  window : List CellKey
  windowCap : Nat
  windowSeq : UInt64
  pending : List CellKey
  pendingCap : Nat
  task : Option WindowTask
  deriving DecidableEq

structure WindowGateway where
  shared : SharedCache
  windowAddFailures : UInt64
  windowRetriesPending : UInt64
  windowRetryAdds : UInt64

def WindowGateway.setHeap (g : WindowGateway) (heap : Heap CacheSite) : WindowGateway :=
  { g with shared := { g.shared with heap := heap } }

section Retained

def gatewayWindowPendingMax : Nat := 64

variable (g : WindowGateway) (s : WindowSession)

/-- An add that finds no memory for the ring is dropped without a word. -/
def gatewayWindowPendingPushBack (key : CellKey) : WindowGateway × WindowSession :=
  if s.pending.length = s.pendingCap then
    match g.shared.heap.request .pending with
    | (false, heap) => (g.setHeap heap, s)
    | (true, heap) =>
      (g.setHeap heap, { s with
        pending := s.pending ++ [key]
        pendingCap :=
          min (if s.pendingCap = 0 then 8 else s.pendingCap * 2) gatewayWindowPendingMax })
  else (g, { s with pending := s.pending ++ [key] })

/-- The gauge counts the add whether or not the ring took it. -/
def gatewayWindowRetain (key : CellKey) : WindowGateway × WindowSession :=
  if key ∈ s.pending then (g, s)
  else if gatewayWindowPendingMax ≤ s.pending.length then (g, s)
  else
    match gatewayWindowPendingPushBack g s key with
    | (g, s) => ({ g with windowRetriesPending := g.windowRetriesPending + 1 }, s)

def gatewayWindowPendingPurgeKey (key : CellKey) : WindowGateway × WindowSession :=
  ({ g with windowRetriesPending := g.windowRetriesPending - UInt64.ofNat (s.pending.count key) },
    { s with pending := s.pending.filter (· ≠ key) })

def dropRetained : WindowGateway × WindowSession :=
  ({ g with windowRetriesPending := g.windowRetriesPending - UInt64.ofNat s.pending.length },
    { s with pending := [] })

end Retained

section Calls

variable (g : WindowGateway) (s : WindowSession)

/-- The cell is pushed, and popped again when its subscription fails. -/
def windowPush (supply : Supply) (key : CellKey) : Rc × WindowGateway × WindowSession :=
  match kithGatewaySubscribe g.shared supply key with
  | (.ok, shared) =>
    (.ok, { g with shared := shared },
      { s with window := s.window ++ [key], windowSeq := s.windowSeq + 1 })
  | (rc, shared) => (rc, { g with shared := shared }, s)

def gatewayWindowAddLocked (supply : Supply) (key : CellKey) : Rc × WindowGateway × WindowSession :=
  if s.window.length = s.windowCap then
    match g.shared.heap.request .window with
    | (false, heap) => (.err .enomem, g.setHeap heap, s)
    | (true, heap) =>
      windowPush (g.setHeap heap)
        { s with windowCap := if s.windowCap = 0 then 8 else s.windowCap * 2 } supply key
  else windowPush g s supply key

/-- What follows a failed add: a want of room is counted and retained for the tick. -/
def countFailedAdd (rc : Rc) (g : WindowGateway) (s : WindowSession) (key : CellKey) :
    WindowGateway × WindowSession :=
  if rc = .err .enomem then
    gatewayWindowRetain { g with windowAddFailures := g.windowAddFailures + 1 } s key
  else (g, s)

/-- The add of one cell by an attached session. -/
def windowAddCell (supply : Supply) (key : CellKey) : Rc × WindowGateway × WindowSession :=
  if key ∈ s.window then (.ok, g, s)
  else
    match gatewayWindowAddLocked g s supply key with
    | (rc, g, s) =>
      match countFailedAdd rc g s key with
      | (g, s) => (rc, g, s)

def kithGatewaySessionWindowAdd (supply : Supply)
    (key : CellKey) : Rc × WindowGateway × WindowSession :=
  if s.attached then windowAddCell g s supply key else (.ok, g, s)

def kithGatewaySessionWindowRemove (key : CellKey) : Rc × WindowGateway × WindowSession :=
  match if s.attached then gatewayWindowPendingPurgeKey g s key else (g, s) with
  | (g, s) =>
    match s.window.findIdx? (· = key) with
    | none => (.ok, g, s)
    | some i =>
      let g := if s.attached then { g with shared := kithGatewayUnsubscribe g.shared key } else g
      (.ok, g, { s with window := swapRemove s.window i, windowSeq := s.windowSeq + 1 })

def windowClearEnd : WindowGateway × WindowSession :=
  let s := { s with window := [], windowSeq := s.windowSeq + 1, task := none }
  if s.attached then dropRetained g s else (g, s)

/-- The start of a clear; a detached session has nothing to release. -/
def kithGatewaySessionWindowClear : WindowGateway × WindowSession :=
  if s.attached then (g, { s with task := some (.clear 0) }) else windowClearEnd g s

/-- The start of a populate: the identity and the counter. -/
def kithGatewaySessionPopulate (actorId : UInt64)
    (keys : List CellKey) : WindowGateway × WindowSession :=
  let s := { s with actorId := actorId, windowSeq := s.windowSeq + 1 }
  (g, if s.attached then { s with task := some (.populate keys .ok) } else s)

/-- The start of a destroy: the session is detached before its cells are released. -/
def kithGatewaySessionDestroy : WindowGateway × WindowSession :=
  if s.attached then (g, { s with attached := false, task := some (.destroy 0) })
  else (g, { s with window := [], windowSeq := s.windowSeq + 1 })

/-- The next access of a call in progress, or its end. -/
def windowProceed (supply : Supply) : WindowTask → WindowGateway × WindowSession
  | .clear i =>
    match s.window[i]? with
    | some key => ({ g with shared := kithGatewayUnsubscribe g.shared key },
        { s with task := some (.clear (i + 1)) })
    | none => windowClearEnd g s
  | .destroy i =>
    match s.window[i]? with
    | some key => ({ g with shared := kithGatewayUnsubscribe g.shared key },
        { s with task := some (.destroy (i + 1)) })
    | none => dropRetained g { s with window := [], windowSeq := s.windowSeq + 1, task := none }
  | .populate [] _ => (g, { s with task := none })
  | .populate (key :: keys) rc =>
    match windowAddCell g s supply key with
    | (added, g, s) =>
      (g, { s with task := some (.populate keys (if rc = .ok then added else rc)) })

/-- One visit of the tick pass to the ring. `full` is what the two capacity guards
answered; they are read before the add, and other threads move in between. -/
def windowRetry (supply : Supply) (full : Bool) : WindowGateway × WindowSession :=
  match s.attached, s.pending with
  | true, key :: pending =>
    let s := { s with pending := pending }
    if key ∈ s.window then ({ g with windowRetriesPending := g.windowRetriesPending - 1 }, s)
    else if full then gatewayWindowPendingPushBack g s key
    else
      match gatewayWindowAddLocked g s supply key with
      | (.ok, g, s) =>
        ({ g with
          windowRetryAdds := g.windowRetryAdds + 1
          windowRetriesPending := g.windowRetriesPending - 1 }, s)
      | (_, g, s) => gatewayWindowPendingPushBack g s key
  | _, _ => (g, s)

end Calls

section Machine

inductive WindowOp where
  | create
  | add (sid : Nat) (key : CellKey) (supply : Supply)
  | remove (sid : Nat) (key : CellKey)
  | clear (sid : Nat)
  | populate (sid : Nat) (actorId : UInt64) (keys : List CellKey)
  | destroy (sid : Nat)
  | proceed (sid : Nat) (supply : Supply)
  | retry (sid : Nat) (full : Bool) (supply : Supply)
  | subscribe (key : CellKey) (supply : Supply)
  | unsubscribe (key : CellKey)

inductive WindowReply where
  | unknown
  | waits
  | started
  | done (rc : Rc)
  deriving DecidableEq

/-- `direct` counts the direct subscriptions that have not been given back. -/
structure WindowRun where
  gateway : WindowGateway
  sessions : List WindowSession
  direct : CellKey → Nat

def WindowSession.fresh : WindowSession := ⟨true, 0, [], 0, 0, [], 0, none⟩

def WindowRun.start (c : GatewayCache) (sub : Subscription) (heap : Heap CacheSite) : WindowRun :=
  ⟨⟨⟨c, sub, heap⟩, 0, 0, 0⟩, [], fun _ => 0⟩

variable (r : WindowRun)

def WindowRun.write (sid : Nat) (g : WindowGateway) (s : WindowSession) : WindowRun :=
  { r with gateway := g, sessions := r.sessions.set sid s }

def WindowRun.callOn (sid : Nat) (reply : WindowReply)
    (body : WindowGateway → WindowSession → WindowGateway × WindowSession) :
    WindowReply × WindowRun :=
  match r.sessions[sid]? with
  | none => (.unknown, r)
  | some s =>
    if s.task.isSome then (.waits, r)
    else
      match body r.gateway s with
      | (g, s) => (reply, r.write sid g s)

def WindowRun.proceed (sid : Nat) (supply : Supply) : WindowReply × WindowRun :=
  match r.sessions[sid]? with
  | none => (.unknown, r)
  | some s =>
    match s.task with
    | none => (.waits, r)
    | some task =>
      match windowProceed r.gateway s supply task with
      | (g, s) => (.started, r.write sid g s)

def WindowRun.step : WindowOp → Option (WindowReply × WindowRun)
  | .create => some (.done .ok, { r with sessions := r.sessions ++ [.fresh] })
  | .add sid key supply =>
    match r.sessions[sid]? with
    | none => some (.unknown, r)
    | some s =>
      if s.task.isSome then some (.waits, r)
      else
        match kithGatewaySessionWindowAdd r.gateway s supply key with
        | (rc, g, s) => some (.done rc, r.write sid g s)
  | .remove sid key =>
    some (r.callOn sid (.done .ok) fun g s => (kithGatewaySessionWindowRemove g s key).2)
  | .clear sid => some (r.callOn sid .started kithGatewaySessionWindowClear)
  | .populate sid actorId keys =>
    some (r.callOn sid .started fun g s => kithGatewaySessionPopulate g s actorId keys)
  | .destroy sid => some (r.callOn sid .started kithGatewaySessionDestroy)
  | .proceed sid supply => some (r.proceed sid supply)
  | .retry sid full supply =>
    some (r.callOn sid (.done .ok) fun g s => windowRetry g s supply full)
  | .subscribe key supply =>
    match kithGatewaySubscribe r.gateway.shared supply key with
    | (rc, shared) =>
      some (.done rc, { r with
        gateway := { r.gateway with shared := shared }
        direct := if rc = .ok then update r.direct key (r.direct key + 1) else r.direct })
  | .unsubscribe key =>
    some (.done .ok, { r with
      gateway := { r.gateway with shared := kithGatewayUnsubscribe r.gateway.shared key }
      direct := update r.direct key (r.direct key - 1) })

end Machine

section Counts

variable {c c' : GatewayCache} {sub sub' : Subscription} {key : CellKey}

def GatewayCache.refcount (c : GatewayCache) (key : CellKey) : Option Nat :=
  (c.node key).map fun n => n.refcount.toNat

def Coupled (c : GatewayCache) (sub : Subscription) : Prop :=
  ∀ key, (sub.interest key).isSome = (c.node key).isSome

theorem refcount_update {o : Option CacheNode} (node : c'.node = update c.node key o) :
    c'.refcount = update c.refcount key (o.map fun n => n.refcount.toNat) := by
  funext k
  rw [GatewayCache.refcount, node, update_apply, update_apply]
  split
  · rfl
  · rfl

theorem Subscribes.refcount (subscribed : Subscribes c sub key .ok c' sub')
    (room : ∀ n, c.refcount key = some n → n + 1 < 2 ^ 32) :
    c'.refcount = update c.refcount key (some ((c.refcount key).getD 0 + 1)) := by
  cases subscribed with
  | @counted _ n n' held rows node =>
    have count : c.refcount key = some n.refcount.toNat := by rw [GatewayCache.refcount, held]; rfl
    have same : n'.refcount = n.refcount + 1 := by
      rcases rows with ⟨rfl, _⟩ | ⟨_, _, copy⟩
      · rfl
      · exact copy.entry.refcount
    rw [refcount_update node, map_some, same, UInt32.toNat_add, UInt32.toNat_one,
      Nat.mod_eq_of_lt (room _ count), count]
    rfl
  | created absent copy node added =>
    rw [refcount_update node, map_some, copy.entry.refcount, GatewayCache.refcount, absent]
    rfl

theorem Subscribes.coupled (subscribed : Subscribes c sub key .ok c' sub') (valid : sub.Valid)
    (coupled : Coupled c sub) : Coupled c' sub' := by
  intro k
  cases subscribed with
  | counted held rows node =>
    rw [coupled k, node, update_apply]
    split
    · rename_i here
      rw [here, held]
      rfl
    · rfl
  | created absent copy node added =>
    obtain ⟨rc, sub'', added', _, _, outcome⟩ := kithFabricSubscriptionAdd_spec valid key
    rw [added] at added'
    cases added'
    rcases outcome with ⟨_, interest⟩ | ⟨failed, _⟩
    · rw [interest, node, update_apply, update_apply]
      split
      · rfl
      · exact coupled k
    · cases failed

theorem Subscribes.unchanged {code : KithError}
    (subscribed : Subscribes c sub key (.err code) c' sub') : c'.node = c.node ∧ sub' = sub := by
  cases subscribed with
  | refused absent node clock => exact ⟨node, rfl⟩

variable (released : Releases c sub key c' sub')
include released

theorem Releases.eq_of_absent (absent : c.node key = none) : c' = c := by
  cases released with
  | absent _ => rfl
  | dropped held _ _ | evicted held _ _ _ =>
    rw [absent] at held
    cases held

theorem Releases.refcount {left : Nat} (one : c.refcount key = some (left + 1)) :
    c'.refcount = update c.refcount key (if left = 0 then none else some left) := by
  rw [GatewayCache.refcount] at one
  cases released with
  | absent absent =>
    rw [absent] at one
    cases one
  | @dropped _ n held more node =>
    rw [held, map_some, some_inj] at one
    have positive : 0 < n.refcount := UInt32.lt_iff_toNat_lt.mpr (by rw [UInt32.toNat_zero]; omega)
    rw [refcount_update node, map_some, CacheNode.withRefcount, toNat_pred positive, one,
      Nat.add_sub_cancel, if_neg (by omega)]
  | evicted held last node removed =>
    rw [held, map_some, some_inj] at one
    rw [refcount_update node, map_none, if_pos (by omega)]

theorem Releases.coupled (valid : sub.Valid) (coupled : Coupled c sub) : Coupled c' sub' := by
  intro k
  cases released with
  | absent absent => exact coupled k
  | dropped held more node =>
    rw [coupled k, node, update_apply]
    split
    · rename_i here
      rw [here, held]
      rfl
    · rfl
  | evicted held last node removed =>
    obtain ⟨sub'', removed', _, _, interest⟩ := kithFabricSubscriptionRemove_spec valid key
    rw [removed] at removed'
    cases removed'
    rw [interest, node, update_apply, update_apply]
    split
    · rfl
    · exact coupled k

end Counts

section Sessions

variable {g g' : WindowGateway} {s s' : WindowSession} {key : CellKey} {g'' : WindowGateway}
    {s'' : WindowSession}

/-- The cells a session has references on: a clear and a destroy have given back those
they passed. -/
def WindowSession.held (s : WindowSession) : List CellKey :=
  match s.task with
  | some (.clear i) => s.window.drop i
  | some (.destroy i) => s.window.drop i
  | _ => s.window

structure WindowSession.Wf (s : WindowSession) : Prop where
  nodup : s.window.Nodup
  detached : s.attached = false →
    s.window = [] ∧ s.task = none ∨ ∃ i, s.task = some (.destroy i)

theorem wf_of_attached (attached : s.attached = true) (nodup : s.window.Nodup) : s.Wf := by
  refine ⟨nodup, ?_⟩
  intro detached
  rw [attached] at detached
  cases detached

theorem WindowSession.Wf.attached (wf : s.Wf) {task : WindowTask} (now : s.task = some task)
    (other : ∀ i, task ≠ .destroy i) : s.attached = true := by
  by_contra detached
  rcases wf.detached (by simpa using detached) with ⟨_, idle⟩ | ⟨i, destroying⟩
  · rw [now] at idle
    cases idle
  · rw [now] at destroying
    exact other i (some_inj.mp destroying)

theorem held_of_idle (idle : s.task = none) : s.held = s.window := by
  rw [WindowSession.held, idle]

/-- What one access of a session can do: nothing to the entries, one reference more on a
cell it did not hold, or one less on a cell it held. -/
inductive Effect (c : GatewayCache) (sub : Subscription) (held : List CellKey) (c' : GatewayCache)
    (sub' : Subscription) (held' : List CellKey) : Prop
  | keep (node : c'.node = c.node) (sub : sub' = sub) (held : ∀ x, x ∈ held' ↔ x ∈ held)
  | gain (key : CellKey) (subscribed : Subscribes c sub key .ok c' sub')
      (missing : key ∉ held) (gained : ∀ x, x ∈ held' ↔ x = key ∨ x ∈ held)
  | lose (key : CellKey) (released : Releases c sub key c' sub')
      (member : key ∈ held) (lost : ∀ x, x ∈ held' ↔ x ≠ key ∧ x ∈ held)

structure Access (g : WindowGateway) (s : WindowSession) (g' : WindowGateway) (s' : WindowSession) :
    Prop where
  valid : g'.shared.Valid
  wf : s'.Wf
  effect : Effect g.shared.cache g.shared.sub s.held g'.shared.cache g'.shared.sub s'.held

/-- Steps that leave the entries, the window and the call in progress alone. -/
structure Quiet (g : WindowGateway) (s : WindowSession) (g' : WindowGateway) (s' : WindowSession) :
    Prop where
  cache : g'.shared.cache = g.shared.cache
  sub : g'.shared.sub = g.shared.sub
  window : s'.window = s.window
  task : s'.task = s.task
  attached : s'.attached = s.attached

theorem Quiet.refl (g : WindowGateway) (s : WindowSession) : Quiet g s g s :=
  ⟨rfl, rfl, rfl, rfl, rfl⟩

section

variable (quiet : Quiet g s g' s')
include quiet

theorem Quiet.held : s'.held = s.held := by
  rw [WindowSession.held, WindowSession.held, quiet.task, quiet.window]

theorem Quiet.valid (valid : g.shared.Valid) : g'.shared.Valid := by
  constructor
  · rw [quiet.cache]
    exact valid.cache
  · rw [quiet.sub]
    exact valid.sub

theorem Quiet.wf (wf : s.Wf) : s'.Wf := by
  constructor
  · rw [quiet.window]
    exact wf.nodup
  · rw [quiet.window, quiet.task, quiet.attached]
    exact wf.detached

theorem Quiet.access (valid : g.shared.Valid) (wf : s.Wf) : Access g s g' s' := by
  refine ⟨quiet.valid valid, quiet.wf wf, .keep (by rw [quiet.cache]) quiet.sub ?_⟩
  intro x
  rw [quiet.held]

end

theorem Access.quiet (access : Access g s g' s') (quiet : Quiet g' s' g'' s'') :
    Access g s g'' s'' := by
  refine ⟨quiet.valid access.valid, quiet.wf access.wf, ?_⟩
  rw [quiet.cache, quiet.sub, quiet.held]
  exact access.effect

theorem Quiet.before (quiet : Quiet g s g' s') (access : Access g' s' g'' s'') :
    Access g s g'' s'' := by
  refine ⟨access.valid, access.wf, ?_⟩
  rw [← quiet.cache, ← quiet.sub, ← quiet.held]
  exact access.effect

theorem started_access (valid : g.shared.Valid) (wf : s'.Wf) (held : s'.held = s.held) :
    Access g s g s' := by
  refine ⟨valid, wf, .keep rfl rfl ?_⟩
  intro x
  rw [held]

theorem mem_rest_iff {rest : List CellKey} (nodup : (key :: rest).Nodup) (x : CellKey) :
    x ∈ rest ↔ x ≠ key ∧ x ∈ key :: rest := by
  rw [mem_cons]
  constructor
  · intro member
    refine ⟨?_, .inr member⟩
    rintro rfl
    exact (nodup_cons.mp nodup).1 member
  · rintro ⟨other, same | member⟩
    · exact absurd same other
    · exact member

theorem pushBack_quiet (g : WindowGateway) (s : WindowSession) (key : CellKey) :
    ∃ g' s', gatewayWindowPendingPushBack g s key = (g', s') ∧ Quiet g s g' s' := by
  rw [gatewayWindowPendingPushBack]
  split
  · split
    · exact ⟨_, _, rfl, ⟨rfl, rfl, rfl, rfl, rfl⟩⟩
    · exact ⟨_, _, rfl, ⟨rfl, rfl, rfl, rfl, rfl⟩⟩
  · exact ⟨_, _, rfl, ⟨rfl, rfl, rfl, rfl, rfl⟩⟩

theorem countFailedAdd_quiet (rc : Rc) (g : WindowGateway) (s : WindowSession) (key : CellKey) :
    ∃ g' s', countFailedAdd rc g s key = (g', s') ∧ Quiet g s g' s' := by
  rw [countFailedAdd]
  split
  · rw [gatewayWindowRetain]
    split
    · exact ⟨_, _, rfl, ⟨rfl, rfl, rfl, rfl, rfl⟩⟩
    · split
      · exact ⟨_, _, rfl, ⟨rfl, rfl, rfl, rfl, rfl⟩⟩
      · obtain ⟨g', s', pushed, quiet⟩ :=
          pushBack_quiet { g with windowAddFailures := g.windowAddFailures + 1 } s key
        rw [pushed]
        exact ⟨_, _, rfl, { quiet with }⟩
  · exact ⟨_, _, rfl, .refl g s⟩

/-- A session that may add cells: no release is in progress. -/
structure Adds (s : WindowSession) : Prop where
  attached : s.attached = true
  task : s.task = none ∨ ∃ keys rc, s.task = some (.populate keys rc)

theorem Adds.held (adds : Adds s) : s.held = s.window := by
  rw [WindowSession.held]
  rcases adds.task with idle | ⟨keys, rc, adding⟩
  · rw [idle]
  · rw [adding]

/-- The result of an add: the call in progress stays. -/
structure Added (g : WindowGateway) (s : WindowSession) (out : Rc × WindowGateway × WindowSession) :
    Prop where
  access : Access g s out.2.1 out.2.2
  task : out.2.2.task = s.task
  attached : out.2.2.attached = s.attached

section

variable (valid : g.shared.Valid) (wf : s.Wf) (adds : Adds s) (supply : Supply)
include valid wf adds supply

theorem windowPush_added (missing : key ∉ s.window) : Added g s (windowPush g s supply key) := by
  obtain ⟨rc, shared, subscribed, valid', outcome, _⟩ := kithGatewaySubscribe_spec valid supply key
  rw [windowPush, subscribed]
  cases rc with
  | err code =>
    obtain ⟨node, sub⟩ := outcome.unchanged
    exact ⟨⟨valid', wf, .keep node sub fun x => .rfl⟩, rfl, rfl⟩
  | ok =>
    have adds' : Adds { s with window := s.window ++ [key], windowSeq := s.windowSeq + 1 } :=
      ⟨adds.attached, adds.task⟩
    refine ⟨⟨valid', wf_of_attached adds.attached ?_, .gain key outcome ?_ ?_⟩, rfl, rfl⟩
    · exact nodup_append.mpr ⟨wf.nodup, nodup_singleton key, by
        intro a ha b hb same
        rw [mem_singleton] at hb
        exact missing (hb ▸ same ▸ ha)⟩
    · rw [adds.held]
      exact missing
    · intro x
      rw [adds'.held, adds.held, mem_append, mem_singleton]
      exact or_comm

theorem gatewayWindowAddLocked_added (missing : key ∉ s.window) :
    Added g s (gatewayWindowAddLocked g s supply key) := by
  rw [gatewayWindowAddLocked]
  split
  · split
    · rename_i heap _
      have quiet : Quiet g s (g.setHeap heap) s := ⟨rfl, rfl, rfl, rfl, rfl⟩
      exact ⟨quiet.access valid wf, rfl, rfl⟩
    · rename_i heap _
      generalize grown : ({ s with windowCap := if s.windowCap = 0 then 8 else s.windowCap * 2 } :
        WindowSession) = s₁
      have quiet : Quiet g s (g.setHeap heap) s₁ := by
        rw [← grown]
        exact ⟨rfl, rfl, rfl, rfl, rfl⟩
      have adds₁ : Adds s₁ := by
        rw [← grown]
        exact ⟨adds.attached, adds.task⟩
      have missing₁ : key ∉ s₁.window := by
        rw [quiet.window]
        exact missing
      have pushed := windowPush_added (quiet.valid valid) (quiet.wf wf) adds₁ supply missing₁
      exact ⟨quiet.before pushed.access, pushed.task.trans quiet.task,
        pushed.attached.trans quiet.attached⟩
  · exact windowPush_added valid wf adds supply missing

theorem windowAddCell_added (key : CellKey) : Added g s (windowAddCell g s supply key) := by
  rw [windowAddCell]
  split
  · exact ⟨(Quiet.refl g s).access valid wf, rfl, rfl⟩
  · rename_i missing
    have added := gatewayWindowAddLocked_added valid wf adds supply missing
    rcases out : gatewayWindowAddLocked g s supply key with ⟨rc, g₁, s₁⟩
    rw [out] at added
    obtain ⟨g₂, s₂, counted, quiet⟩ := countFailedAdd_quiet rc g₁ s₁ key
    dsimp only
    rw [counted]
    exact ⟨added.access.quiet quiet, quiet.task.trans added.task,
      quiet.attached.trans added.attached⟩

end

theorem WindowSession.Wf.empty_of_detached (wf : s.Wf) (idle : s.task = none)
    (detached : s.attached = false) : s.window = [] := by
  rcases wf.detached detached with ⟨empty, _⟩ | ⟨i, destroying⟩
  · exact empty
  · rw [idle] at destroying
    cases destroying

variable {i : Nat}

theorem WindowSession.Wf.attached_of_tracked (wf : s.Wf) (idle : s.task = none)
    (found : s.window[i]? = some key) : s.attached = true := by
  by_contra detached
  rw [wf.empty_of_detached idle (by simpa using detached)] at found
  cases found

section

variable (valid : g.shared.Valid)
include valid

theorem windowAdd_access (wf : s.Wf) (idle : s.task = none) (supply : Supply) (key : CellKey) :
    Access g s (kithGatewaySessionWindowAdd g s supply key).2.1
      (kithGatewaySessionWindowAdd g s supply key).2.2 := by
  rw [kithGatewaySessionWindowAdd]
  split
  · rename_i attached
    exact (windowAddCell_added valid wf ⟨attached, .inl idle⟩ supply key).access
  · exact (Quiet.refl g s).access valid wf

theorem windowRelease_access (wf : s.Wf) (idle : s.task = none) (found : s.window[i]? = some key) :
    Access g s { g with shared := kithGatewayUnsubscribe g.shared key }
      { s with window := swapRemove s.window i, windowSeq := s.windowSeq + 1 } := by
  obtain ⟨shared, released, valid', releases⟩ := kithGatewayUnsubscribe_spec valid key
  rw [released]
  have perm := swapRemove_perm found
  have nodup : (key :: swapRemove s.window i).Nodup := perm.nodup_iff.mpr wf.nodup
  have attached := wf.attached_of_tracked idle found
  refine ⟨valid', wf_of_attached attached (nodup_cons.mp nodup).2, .lose key releases ?_ ?_⟩
  · rw [held_of_idle idle]
    exact mem_of_getElem? found
  · intro x
    rw [held_of_idle idle, held_of_idle (by exact idle), ← perm.mem_iff]
    exact mem_rest_iff nodup x

theorem windowRemove_access (wf : s.Wf) (idle : s.task = none) (key : CellKey) :
    Access g s (kithGatewaySessionWindowRemove g s key).2.1
      (kithGatewaySessionWindowRemove g s key).2.2 := by
  obtain ⟨g₁, s₁, purged, quiet⟩ : ∃ g₁ s₁,
      (if s.attached then gatewayWindowPendingPurgeKey g s key else (g, s)) = (g₁, s₁) ∧
        Quiet g s g₁ s₁ := by
    split
    · exact ⟨_, _, rfl, ⟨rfl, rfl, rfl, rfl, rfl⟩⟩
    · exact ⟨_, _, rfl, .refl g s⟩
  rw [kithGatewaySessionWindowRemove, purged]
  dsimp only
  cases found : s₁.window.findIdx? (· = key) with
  | none => exact quiet.access valid wf
  | some i =>
    obtain ⟨inside, at_i, _⟩ := findIdx?_eq_some_iff_getElem.mp found
    have here : s₁.window[i]? = some key := by
      rw [getElem?_eq_getElem inside]
      exact congrArg some (by simpa using at_i)
    have idle₁ : s₁.task = none := quiet.task.trans idle
    rw [if_pos ((quiet.wf wf).attached_of_tracked idle₁ here)]
    exact quiet.before (windowRelease_access (quiet.valid valid) (quiet.wf wf) idle₁ here)

theorem emptied_access (empty : s.held = []) (cache : g'.shared.cache = g.shared.cache)
    (sub : g'.shared.sub = g.shared.sub) (window : s'.window = []) (idle : s'.task = none) :
    Access g s g' s' := by
  refine ⟨⟨by rw [cache]; exact valid.cache, by rw [sub]; exact valid.sub⟩, ?_,
    .keep (by rw [cache]) sub ?_⟩
  · exact ⟨by rw [window]; exact .nil, fun _ => .inl ⟨window, idle⟩⟩
  · intro x
    rw [held_of_idle idle, window, empty]

end

theorem windowClearEnd_eq (g : WindowGateway) (s : WindowSession) :
    ∃ g' s', windowClearEnd g s = (g', s') ∧ g'.shared = g.shared ∧ s'.window = [] ∧
      s'.task = none := by
  rw [windowClearEnd]
  split
  · exact ⟨_, _, rfl, rfl, rfl, rfl⟩
  · exact ⟨_, _, rfl, rfl, rfl, rfl⟩

variable (valid : g.shared.Valid) (wf : s.Wf)
include valid wf

theorem windowClear_access (idle : s.task = none) :
    Access g s (kithGatewaySessionWindowClear g s).1 (kithGatewaySessionWindowClear g s).2 := by
  rw [kithGatewaySessionWindowClear]
  split
  · rename_i attached
    exact started_access valid (wf_of_attached attached wf.nodup) (held_of_idle idle).symm
  · rename_i detached
    obtain ⟨g', s', ended, shared, window, task⟩ := windowClearEnd_eq g s
    rw [ended]
    refine emptied_access valid ?_ (by rw [shared]) (by rw [shared]) window task
    rw [held_of_idle idle, wf.empty_of_detached idle (by simpa using detached)]

theorem populate_access (idle : s.task = none) (actorId : UInt64) (keys : List CellKey) :
    Access g s (kithGatewaySessionPopulate g s actorId keys).1
      (kithGatewaySessionPopulate g s actorId keys).2 := by
  rw [kithGatewaySessionPopulate]
  split
  · rename_i attached
    exact started_access valid (wf_of_attached attached wf.nodup) (held_of_idle idle).symm
  · have quiet : Quiet g s g { s with actorId := actorId, windowSeq := s.windowSeq + 1 } :=
      ⟨rfl, rfl, rfl, rfl, rfl⟩
    exact quiet.access valid wf

theorem destroy_access (idle : s.task = none) :
    Access g s (kithGatewaySessionDestroy g s).1 (kithGatewaySessionDestroy g s).2 := by
  rw [kithGatewaySessionDestroy]
  split
  · exact started_access valid ⟨wf.nodup, fun _ => .inr ⟨0, rfl⟩⟩ (held_of_idle idle).symm
  · rename_i detached
    refine emptied_access valid ?_ rfl rfl rfl idle
    rw [held_of_idle idle, wf.empty_of_detached idle (by simpa using detached)]

theorem giveBack_access {t : Nat → WindowTask}
    (releases : ∀ j w, WindowSession.held { s with window := w, task := some (t j) } = w.drop j)
    (now : s.task = some (t i)) (found : s.window[i]? = some key)
    (kept : WindowSession.Wf { s with task := some (t (i + 1)) }) :
    Access g s { g with shared := kithGatewayUnsubscribe g.shared key }
      { s with task := some (t (i + 1)) } := by
  obtain ⟨shared, released, valid', outcome⟩ := kithGatewayUnsubscribe_spec valid key
  rw [released]
  have before : s.held = key :: s.window.drop (i + 1) := by
    have held := releases i s.window
    rw [← now] at held
    obtain ⟨inside, here⟩ := List.getElem?_eq_some_iff.mp found
    rw [held, drop_eq_getElem_cons inside, here]
  have nodup : (key :: s.window.drop (i + 1)).Nodup := by
    obtain ⟨inside, here⟩ := List.getElem?_eq_some_iff.mp found
    rw [← here, ← drop_eq_getElem_cons inside]
    exact wf.nodup.sublist (drop_sublist i s.window)
  refine ⟨valid', kept, .lose key outcome ?_ ?_⟩
  · rw [before]
    exact mem_cons_self
  · intro x
    rw [before, releases (i + 1) s.window]
    exact mem_rest_iff nodup x

theorem windowProceed_access (supply : Supply) {task : WindowTask} (now : s.task = some task) :
    Access g s (windowProceed g s supply task).1 (windowProceed g s supply task).2 := by
  cases task with
  | clear i =>
    have attached := wf.attached now (by simp)
    rw [windowProceed]
    cases found : s.window[i]? with
    | some key =>
      exact giveBack_access valid wf (t := .clear) (fun _ _ => rfl) now found
        (wf_of_attached attached wf.nodup)
    | none =>
      obtain ⟨g', s', ended, shared, window, idle⟩ := windowClearEnd_eq g s
      rw [ended]
      refine emptied_access valid ?_ (by rw [shared]) (by rw [shared]) window idle
      rw [WindowSession.held, now]
      exact drop_eq_nil_of_le (getElem?_eq_none_iff.mp found)
  | destroy i =>
    rw [windowProceed]
    cases found : s.window[i]? with
    | some key =>
      exact giveBack_access valid wf (t := .destroy) (fun _ _ => rfl) now found
        ⟨wf.nodup, fun _ => .inr ⟨i + 1, rfl⟩⟩
    | none =>
      refine emptied_access valid ?_ rfl rfl rfl rfl
      rw [WindowSession.held, now]
      exact drop_eq_nil_of_le (getElem?_eq_none_iff.mp found)
  | populate keys rc =>
    have attached := wf.attached now (by simp)
    have held : s.held = s.window := Adds.held ⟨attached, .inr ⟨keys, rc, now⟩⟩
    cases keys with
    | nil => exact started_access valid (wf_of_attached attached wf.nodup) held.symm
    | cons key keys =>
      have outcome :=
        windowAddCell_added valid wf ⟨attached, .inr ⟨key :: keys, rc, now⟩⟩ supply key
      rw [windowProceed]
      rcases out : windowAddCell g s supply key with ⟨added, g₁, s₁⟩
      rw [out] at outcome
      have still := outcome.attached.trans attached
      -- The call goes on with the remaining cells; what it holds is the window either way.
      have held₁ : s₁.held = s₁.window :=
        Adds.held ⟨still, .inr ⟨key :: keys, rc, outcome.task.trans now⟩⟩
      refine ⟨outcome.access.valid, wf_of_attached still outcome.access.wf.nodup, ?_⟩
      have effect := outcome.access.effect
      rw [held₁] at effect
      exact effect

theorem windowRetry_access (idle : s.task = none) (supply : Supply) (full : Bool) :
    Access g s (windowRetry g s supply full).1 (windowRetry g s supply full).2 := by
  rw [windowRetry]
  split
  · rename_i key pending attached _
    have popped : Quiet g s g { s with pending := pending } := ⟨rfl, rfl, rfl, rfl, rfl⟩
    dsimp only
    split
    · have quiet : Quiet g s { g with windowRetriesPending := g.windowRetriesPending - 1 }
          { s with pending := pending } := ⟨rfl, rfl, rfl, rfl, rfl⟩
      exact quiet.access valid wf
    · rename_i missing
      split
      · obtain ⟨g', s', pushed, quiet⟩ := pushBack_quiet g { s with pending := pending } key
        rw [pushed]
        exact popped.before (quiet.access valid (popped.wf wf))
      · have added :=
          gatewayWindowAddLocked_added valid (popped.wf wf) ⟨attached, .inl idle⟩ supply missing
        rcases out : gatewayWindowAddLocked g { s with pending := pending } supply key with
          ⟨rc, g₁, s₁⟩
        rw [out] at added
        have before := popped.before added.access
        cases rc with
        | ok => exact before.quiet ⟨rfl, rfl, rfl, rfl, rfl⟩
        | err code =>
          obtain ⟨g', s', pushed, quiet⟩ := pushBack_quiet g₁ s₁ key
          dsimp only
          rw [pushed]
          exact before.quiet quiet
  · exact (Quiet.refl g s).access valid wf

end Sessions

end Kith.Gateway
