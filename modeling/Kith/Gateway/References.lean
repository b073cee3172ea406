import Kith.Gateway.Window

/-!
# The reference counts of the cache are exact

The references on a cell are the sessions that hold it and the direct
subscriptions that were not given back. One step of any thread changes them by at
most one, and the node of the cell with them. A direct release that no direct
subscription stands against takes the reference of some window instead: the calls
count references and do not know whose they are.
-/

namespace Kith.Gateway

open LinearProbe RefCount Runs Kith.Fabric Function List

section Invariant

variable {r : WindowRun} {key : CellKey}

def WindowRun.references (r : WindowRun) (key : CellKey) : Nat :=
  holders WindowSession.held r.sessions key + r.direct key

structure WindowRun.Balanced (r : WindowRun) : Prop where
  shared : r.gateway.shared.Valid
  tallied : Tallied r.gateway.shared.cache.refcount r.references
  coupled : Coupled r.gateway.shared.cache r.gateway.shared.sub
  sessions : ∀ s ∈ r.sessions, s.Wf

/-- No cell has as many references as its counter can hold, and a direct release gives
back a direct subscription, or is of a cell that is not cached. -/
def WindowRun.Orderly (r : WindowRun) (op : WindowOp) : Prop :=
  (∀ key, r.references key + 1 < 2 ^ 32) ∧
  match op with
  | .unsubscribe key => 0 < r.direct key ∨ r.gateway.shared.cache.node key = none
  | _ => True

theorem add_update {h d : CellKey → Nat} (key : CellKey) (n : Nat) :
    (fun k => update h key n k + d k) = update (fun k => h k + d k) key (n + d key) := by
  funext k
  by_cases here : k = key
  · rw [here, update_self, update_self]
  · rw [update_of_ne here, update_of_ne here]

theorem update_add {h d : CellKey → Nat} (key : CellKey) (n : Nat) :
    (fun k => h k + update d key n k) = update (fun k => h k + d k) key (h key + n) := by
  simp only [Nat.add_comm (h _)]
  exact add_update key n

theorem WindowRun.Balanced.room (balanced : r.Balanced)
    (below : ∀ key, r.references key + 1 < 2 ^ 32)
    {n : Nat} (counted : r.gateway.shared.cache.refcount key = some n) : n + 1 < 2 ^ 32 := by
  rw [balanced.tallied.eq_refs counted]
  exact below key

section Changes

variable {r' : WindowRun} (balanced : r.Balanced) (valid : r'.gateway.shared.Valid)
  (sessions : ∀ s ∈ r'.sessions, s.Wf)
include balanced valid sessions

theorem WindowRun.Balanced.kept (node : r'.gateway.shared.cache.node = r.gateway.shared.cache.node)
    (sub : r'.gateway.shared.sub = r.gateway.shared.sub)
    (references : r'.references = r.references) :
    r'.Balanced := by
  refine ⟨valid, ?_, ?_, sessions⟩
  · have counts : r'.gateway.shared.cache.refcount = r.gateway.shared.cache.refcount := by
      funext key
      rw [GatewayCache.refcount, GatewayCache.refcount, node]
    rw [references, counts]
    exact balanced.tallied
  · intro key
    rw [node, sub]
    exact balanced.coupled key

theorem WindowRun.Balanced.gained (below : ∀ key, r.references key + 1 < 2 ^ 32)
    (subscribed : Subscribes r.gateway.shared.cache r.gateway.shared.sub key .ok
      r'.gateway.shared.cache r'.gateway.shared.sub)
    (references : r'.references = update r.references key (r.references key + 1)) :
    r'.Balanced := by
  refine ⟨valid, ?_, subscribed.coupled balanced.shared.sub balanced.coupled, sessions⟩
  rw [references, subscribed.refcount fun n counted => balanced.room below counted]
  exact balanced.tallied.acquire key

theorem WindowRun.Balanced.lost (released : Releases r.gateway.shared.cache r.gateway.shared.sub key
      r'.gateway.shared.cache r'.gateway.shared.sub) (positive : 0 < r.references key)
    (references : r'.references = update r.references key (r.references key - 1)) :
    r'.Balanced := by
  refine ⟨valid, ?_, released.coupled balanced.shared.sub balanced.coupled, sessions⟩
  obtain ⟨left, one⟩ : ∃ left, r.references key = left + 1 := ⟨r.references key - 1, by omega⟩
  have counted : r.gateway.shared.cache.refcount key = some (left + 1) := by
    rw [balanced.tallied key, one, if_neg (Nat.succ_ne_zero left)]
  rw [references, released.refcount counted]
  exact balanced.tallied.release one

end Changes

theorem WindowRun.Balanced.access (balanced : r.Balanced)
    (below : ∀ key, r.references key + 1 < 2 ^ 32)
    {sid : Nat} {s s' : WindowSession} {g' : WindowGateway} (found : r.sessions[sid]? = some s)
    (access : Access r.gateway s g' s') : (r.write sid g' s').Balanced := by
  have sessions : ∀ s₁ ∈ r.sessions.set sid s', s₁.Wf := by
    intro s₁ member
    rcases mem_or_eq_of_mem_set member with before | rfl
    · exact balanced.sessions s₁ before
    · exact access.wf
  have references : (r.write sid g' s').references =
    fun k => holders WindowSession.held (r.sessions.set sid s') k + r.direct k := rfl
  cases access.effect with
  | keep node sub held =>
    refine balanced.kept access.valid sessions node sub ?_
    rw [references, holders_same found held]
    rfl
  | gain key subscribed missing gained =>
    refine balanced.gained access.valid sessions below subscribed ?_
    rw [references, holders_gain found missing gained, add_update, Nat.add_right_comm]
    rfl
  | lose key released member lost =>
    obtain ⟨positive, fewer⟩ := holders_lose found member lost
    refine balanced.lost access.valid sessions released (Nat.add_pos_left positive _) ?_
    rw [references, fewer, add_update, ← Nat.sub_add_comm positive]
    rfl

end Invariant

section Steps

variable {r : WindowRun}

variable (balanced : r.Balanced)
include balanced

section

variable (below : ∀ key, r.references key + 1 < 2 ^ 32)
include below

theorem WindowRun.Balanced.callOn (sid : Nat)
    (reply : WindowReply) (body : WindowGateway → WindowSession → WindowGateway × WindowSession)
    (accesses : ∀ s : WindowSession, s.Wf → s.task = none →
      Access r.gateway s (body r.gateway s).1 (body r.gateway s).2) :
    (r.callOn sid reply body).2.Balanced := by
  rw [WindowRun.callOn]
  cases found : r.sessions[sid]? with
  | none => exact balanced
  | some s =>
    dsimp only
    split
    · exact balanced
    · rename_i free
      have idle : s.task = none := by simpa using free
      exact balanced.access below found
        (accesses s (balanced.sessions s (mem_of_getElem? found)) idle)

theorem WindowRun.Balanced.proceed (sid : Nat)
    (supply : Supply) : (r.proceed sid supply).2.Balanced := by
  rw [WindowRun.proceed]
  cases found : r.sessions[sid]? with
  | none => exact balanced
  | some s =>
    dsimp only
    cases now : s.task with
    | none => exact balanced
    | some task =>
      exact balanced.access below found
        (windowProceed_access balanced.shared
          (balanced.sessions s (mem_of_getElem? found)) supply now)

omit below in
theorem WindowRun.Balanced.create :
    WindowRun.Balanced { r with sessions := r.sessions ++ [.fresh] } := by
  refine ⟨balanced.shared, ?_, balanced.coupled, ?_⟩
  · have references :
        WindowRun.references { r with sessions := r.sessions ++ [.fresh] } = r.references := by
      funext key
      exact congrArg (· + r.direct key) (congrFun (holders_concat rfl) key)
    rw [references]
    exact balanced.tallied
  · intro s member
    rcases mem_append.mp member with before | new
    · exact balanced.sessions s before
    · rw [mem_singleton.mp new]
      exact wf_of_attached rfl .nil

theorem WindowRun.Balanced.subscribe (key : CellKey) (supply : Supply) :
    ∃ rc r', r.step (.subscribe key supply) = some (.done rc, r') ∧ r'.Balanced := by
  obtain ⟨rc, shared, subscribed, valid, outcome, _⟩ :=
    kithGatewaySubscribe_spec balanced.shared supply key
  rw [WindowRun.step, subscribed]
  refine ⟨rc, _, rfl, ?_⟩
  cases rc with
  | ok => exact balanced.gained valid balanced.sessions below outcome (update_add key _)
  | err code =>
    obtain ⟨node, sub⟩ := outcome.unchanged
    exact balanced.kept valid balanced.sessions node sub rfl

omit below in
theorem WindowRun.Balanced.unsubscribe (key : CellKey)
    (own : 0 < r.direct key ∨ r.gateway.shared.cache.node key = none) :
    ∃ r', r.step (.unsubscribe key) = some (.done .ok, r') ∧ r'.Balanced := by
  obtain ⟨shared, released, valid, outcome⟩ := kithGatewayUnsubscribe_spec balanced.shared key
  rw [WindowRun.step, released]
  refine ⟨_, rfl, ?_⟩
  rcases Nat.eq_zero_or_pos (r.direct key) with none_left | some_left
  · -- The cell is not cached: no reference is on it, and the release does nothing.
    have absent := own.resolve_left (by omega)
    have same : update r.direct key (r.direct key - 1) = r.direct := by
      rw [none_left, Nat.zero_sub, ← none_left, update_eq_self]
    refine ⟨valid, ?_, outcome.coupled balanced.shared.sub balanced.coupled, balanced.sessions⟩
    rw [outcome.eq_of_absent absent, same]
    exact balanced.tallied
  · refine balanced.lost valid balanced.sessions outcome (Nat.add_pos_right _ some_left) ?_
    rw [WindowRun.references, Nat.add_sub_assoc some_left]
    exact update_add key _

theorem WindowRun.Balanced.add (sid : Nat) (key : CellKey) (supply : Supply) :
    ∃ reply r', r.step (.add sid key supply) = some (reply, r') ∧ r'.Balanced := by
  rw [WindowRun.step]
  cases found : r.sessions[sid]? with
  | none => exact ⟨_, _, rfl, balanced⟩
  | some s =>
    dsimp only
    split
    · exact ⟨_, _, rfl, balanced⟩
    · rename_i free
      exact ⟨_, _, rfl, balanced.access below found (windowAdd_access balanced.shared
        (balanced.sessions s (mem_of_getElem? found)) (by simpa using free) supply key)⟩

end

theorem WindowRun.Balanced.step {op : WindowOp} (orderly : r.Orderly op) :
    ∃ reply r', r.step op = some (reply, r') ∧ r'.Balanced := by
  obtain ⟨below, own⟩ := orderly
  cases op with
  | create => exact ⟨_, _, rfl, balanced.create⟩
  | add sid key supply => exact balanced.add below sid key supply
  | remove sid key =>
    exact ⟨_, _, rfl, balanced.callOn below sid (.done .ok)
      (fun g s => (kithGatewaySessionWindowRemove g s key).2) fun s wf idle =>
      windowRemove_access balanced.shared wf idle key⟩
  | clear sid =>
    exact ⟨_, _, rfl, balanced.callOn below sid _ _ fun s wf idle =>
      windowClear_access balanced.shared wf idle⟩
  | populate sid actorId keys =>
    exact ⟨_, _, rfl, balanced.callOn below sid .started
      (fun g s => kithGatewaySessionPopulate g s actorId keys) fun s wf idle =>
      populate_access balanced.shared wf idle actorId keys⟩
  | destroy sid =>
    exact ⟨_, _, rfl,
      balanced.callOn below sid _ _ fun s wf idle => destroy_access balanced.shared wf idle⟩
  | proceed sid supply => exact ⟨_, _, rfl, balanced.proceed below sid supply⟩
  | retry sid full supply =>
    exact ⟨_, _, rfl, balanced.callOn below sid (.done .ok) (fun g s => windowRetry g s supply full)
      fun s wf idle => windowRetry_access balanced.shared wf idle supply full⟩
  | subscribe key supply =>
    obtain ⟨rc, r', stepped, after⟩ := balanced.subscribe below key supply
    exact ⟨_, r', stepped, after⟩
  | unsubscribe key =>
    obtain ⟨r', stepped, after⟩ := balanced.unsubscribe key own
    exact ⟨_, r', stepped, after⟩

end Steps

section Exactness

/-- What the cache, the interest set and the windows agree on. -/
structure WindowRun.Exact (r : WindowRun) : Prop where
  live : ∀ key, (r.gateway.shared.cache.node key).isSome ↔
    0 < (r.gateway.shared.cache.refcount key).getD 0
  refcount : ∀ key, (r.gateway.shared.cache.refcount key).getD 0 =
    (r.sessions.countP fun s => key ∈ s.held) + r.direct key
  interest : ∀ key, (r.gateway.shared.sub.interest key).isSome ↔
    (r.gateway.shared.cache.node key).isSome
  count : ∀ j, (r.gateway.shared.cache.stripes j).count = liveCount cacheLayout
    (r.gateway.shared.cache.stripes j).buckets (r.gateway.shared.cache.stripes j).nodes
  refused : ∀ supply key code shared,
    kithGatewaySubscribe r.gateway.shared supply key = (.err code, shared) →
      shared.cache.node = r.gateway.shared.cache.node ∧
      shared.sub.interest = r.gateway.shared.sub.interest ∧
      ∀ j, (shared.cache.stripes j).count = (r.gateway.shared.cache.stripes j).count

variable {r : WindowRun}

theorem WindowRun.Balanced.exact (balanced : r.Balanced) : r.Exact := by
  have counted : ∀ key, (r.gateway.shared.cache.refcount key).getD 0 = r.references key := by
    intro key
    rw [balanced.tallied key]
    split
    · rename_i none_left
      rw [none_left, Option.getD_none]
    · rw [Option.getD_some]
  constructor
  · intro key
    rw [counted, ← balanced.tallied.isSome_iff, GatewayCache.refcount, Option.isSome_map]
  · exact counted
  · intro key
    rw [balanced.coupled key]
  · intro j
    obtain ⟨_, table⟩ := (balanced.shared.cache.stripe j).table
    exact table.live
  · intro supply key code shared failed
    obtain ⟨rc, shared', subscribed, valid, outcome, _⟩ :=
      kithGatewaySubscribe_spec balanced.shared supply key
    rw [failed] at subscribed
    cases subscribed
    obtain ⟨node, sub⟩ := outcome.unchanged
    exact ⟨node, by rw [sub], count_eq_of_node_eq balanced.shared.cache valid.cache node⟩

theorem cacheStripeBuckets_pow {buckets n : Nat} (found : cacheStripeBuckets buckets = some n) :
    ∃ b, n = 2 ^ b := by
  obtain ⟨r, rounded, rfl⟩ := Option.map_eq_some_iff.mp found
  obtain ⟨k, _, pow⟩ := nextPow2Loop_pow rounded
  split
  · exact ⟨4, rfl⟩
  · exact ⟨k, pow⟩

theorem gatewayCacheInit_spec {heap heap' : Heap CacheSite} {buckets : Nat} {c : GatewayCache}
    (made : gatewayCacheInit heap buckets = some (.ok c, heap')) :
    c.Valid ∧ (∀ key, c.node key = none) := by
  obtain ⟨n, rounded, filled⟩ := Option.map_eq_some_iff.mp made
  obtain ⟨b, rfl⟩ := cacheStripeBuckets_pow rounded
  split at filled
  · cases filled
    have blank : ∀ i < 2 ^ b, cacheLayout.used ((CacheStripe.blank (2 ^ b)).nodes i) = false :=
      fun _ _ => rfl
    have empty : ∀ key, (CacheStripe.blank (2 ^ b)).entry key = none :=
      congrFun (entry_empty blank rfl)
    refine ⟨⟨fun _ => ⟨⟨0, .empty b blank⟩⟩, ?_, ?_⟩, fun key => empty key⟩
    · intro j key held
      rw [empty key] at held
      cases held
    · intro key n held
      rw [GatewayCache.node, GatewayCache.stripeOf, empty key] at held
      cases held
  · cases filled

/-- From the creation of a gateway on, whatever the threads do in whatever order: every
cell is cached exactly while something refers to it, under the number of references. -/
theorem cache_references_exact {heap heap' : Heap CacheSite} {buckets : Nat} {c : GatewayCache}
    (made : gatewayCacheInit heap buckets = some (.ok c, heap'))
    {fabricHeap fabricHeap' : Heap FabricSite}
    {handle b : Nat} {sub : Subscription}
    (watching : fabricSubInit fabricHeap handle (2 ^ b) = (.ok sub, fabricHeap'))
    (ops : List WindowOp)
    (along : Along WindowRun.step WindowRun.Orderly (.start c sub heap') ops) :
    ∃ replies r, run WindowRun.step (.start c sub heap') ops = some (replies, r) ∧ r.Exact := by
  obtain ⟨valid, empty⟩ := gatewayCacheInit_spec made
  obtain ⟨watched, _, none_watched⟩ := fabricSubInit_spec watching
  have start : (WindowRun.start c sub heap').Balanced := by
    refine ⟨⟨valid, watched⟩, ?_, ?_, ?_⟩
    · intro key
      show (c.node key).map _ = _
      rw [empty key]
      rfl
    · intro key
      show (sub.interest key).isSome = (c.node key).isSome
      rw [empty key, none_watched]
      rfl
    · exact fun s member => absurd member List.not_mem_nil
  obtain ⟨replies, r, ran, balanced⟩ := run_invariant
    (fun r op balanced orderly => WindowRun.Balanced.step balanced orderly) start ops along
  exact ⟨replies, r, ran, balanced.exact⟩

def grantAll {Site : Type} : Heap Site := ⟨fun _ _ => true, 0⟩

def plainCell : CellKey := ⟨1, 0, 0, 0, 0⟩

/-- Every copy of the cell finds it empty. -/
def emptySupply : Supply := ⟨fun _ => .ok [], fun _ => ⟨0, 0, 0, 0, 0, 0, 0, 0, 0⟩⟩

def smallRun : WindowRun :=
  .start ⟨fun _ => .blank 16, 0, 1⟩ ⟨7, fun _ => SubNode.zero, 2 ^ 4, 0⟩
    { grantAll with calls := 32 }

theorem few_references (sessions : r.sessions.length ≤ 1) (direct : ∀ key, r.direct key ≤ 1)
    (key : CellKey) : r.references key + 1 < 2 ^ 32 := by
  have held : holders WindowSession.held r.sessions key ≤ r.sessions.length := countP_le_length
  have given := direct key
  rw [WindowRun.references]
  omega

theorem cache_references_exact_shared :
    ∃ replies r, run WindowRun.step smallRun
        [.create, .add 0 plainCell emptySupply, .subscribe plainCell emptySupply,
          .unsubscribe plainCell, .remove 0 plainCell] =
      some (replies, r) ∧ r.Exact := by
  have made : gatewayCacheInit grantAll 256 = some (.ok smallRun.gateway.shared.cache,
      { grantAll with calls := 32 }) := rfl
  have watching : fabricSubInit grantAll 7 (2 ^ 4) = (.ok smallRun.gateway.shared.sub,
      { grantAll with calls := 2 }) := rfl
  refine cache_references_exact made watching _ ?_
  have one : ∀ key, update (fun _ => 0) plainCell 1 key ≤ 1 := by
    intro key
    rw [update_apply]
    split
    · exact le_rfl
    · exact Nat.zero_le 1
  have none_left : ∀ key, update (update (fun _ => 0) plainCell 1) plainCell 0 key ≤ 1 := by
    intro key
    rw [update_idem, update_apply]
    split
    · exact Nat.zero_le 1
    · exact Nat.zero_le 1
  refine ⟨⟨few_references (by decide) fun _ => Nat.zero_le 1, trivial⟩,
    ⟨few_references (by decide +kernel) fun _ => Nat.zero_le 1, trivial⟩,
    ⟨few_references (by decide +kernel) fun _ => Nat.zero_le 1, trivial⟩,
    ⟨few_references (by decide +kernel) one, .inl (by decide +kernel)⟩,
    ⟨few_references (by decide +kernel) none_left, trivial⟩, trivial⟩

/-- A direct release without a direct subscription evicts a cell that a window holds. -/
theorem unowned_release_evicts :
    ∃ replies r, run WindowRun.step smallRun
        [.create, .add 0 plainCell emptySupply, .unsubscribe plainCell] = some (replies, r) ∧
      (r.sessions.countP fun s => plainCell ∈ s.window) = 1 ∧
      (r.gateway.shared.cache.node plainCell).isSome = false ∧
      (r.gateway.shared.sub.interest plainCell).isSome = false :=
  ⟨_, _, rfl, by decide +kernel, by decide +kernel, by decide +kernel⟩

end Exactness

end Kith.Gateway
