import Mathlib.Logic.Function.Basic
import Kith.Lib.Runs

/-!
# Delivery scratch buffers

A batch is put together in a scratch buffer: the gateway's own one, or one that
the delivering thread has claimed from the gateway's executor. The claim is kept
in a thread-local that no gateway resets, while the claimed buffers of a gateway
are freed with it. Gateways, threads and buffers are numbered; no number is used
twice.
-/

namespace Kith.Gateway

open Runs Function

inductive ScratchBuffer where
  | own (gateway : Nat)
  | claimed (node : Nat)
  deriving DecidableEq

/-- `claimed` is the executor's registry of scratch nodes. -/
structure ScratchGateway where
  executor : Bool
  alive : Bool
  claimed : List Nat
  deriving DecidableEq

/-- `claims` is the thread-local of each thread, `nodes` the number of nodes allocated so
far, `holding` the buffer a delivery on the thread is working in and `serving` the gateway it
is for. `deliveries` are all so far: thread, gateway, and the allocator's answer. -/
structure ScratchRun where
  gateways : List ScratchGateway
  nodes : Nat
  claims : Nat → Option Nat
  holding : Nat → Option ScratchBuffer
  serving : Nat → Option Nat
  deliveries : List (Nat × Nat × Bool)

variable (r : ScratchRun)

/-- `granted` answers the allocation of a node. -/
def gatewayDeliveryScratch (thread gateway : Nat) (granted : Bool) :
    Option ScratchBuffer × ScratchRun :=
  match r.claims thread, r.gateways[gateway]? with
  | some node, _ => (some (.claimed node), r)
  | none, none => (none, r)
  | none, some g =>
    if g.executor = false then (some (.own gateway), r)
    else if granted then
      (some (.claimed r.nodes), { r with
        gateways := r.gateways.set gateway { g with claimed := r.nodes :: g.claimed }
        nodes := r.nodes + 1
        claims := update r.claims thread (some r.nodes) })
    else (none, r)

inductive ScratchOp where
  | create (executor : Bool)
  | deliver (thread gateway : Nat) (granted : Bool)
  | done (thread : Nat)
  | destroy (gateway : Nat)

/-- A delivery holds the buffer from the call to its end. `gateway_delivery_executor_fini`
frees the registered nodes and leaves the thread-locals alone. -/
def ScratchRun.next : ScratchOp → ScratchRun
  | .create executor => { r with gateways := r.gateways ++ [⟨executor, true, []⟩] }
  | .deliver thread gateway granted =>
    let (buffer, r) := gatewayDeliveryScratch r thread gateway granted
    { r with
      holding := update r.holding thread buffer
      serving := update r.serving thread (some gateway)
      deliveries := (thread, gateway, granted) :: r.deliveries }
  | .done thread =>
    { r with
      holding := update r.holding thread none
      serving := update r.serving thread none }
  | .destroy gateway =>
    { r with gateways := r.gateways.modify gateway fun g =>
      { g with alive := false, claimed := [] } }

def ScratchRun.start : ScratchRun := ⟨[], 0, fun _ => none, fun _ => none, fun _ => none, []⟩

def ScratchRun.Owns (gateway : Nat) : ScratchBuffer → Prop
  | .own owner => owner = gateway ∧ ∃ g, r.gateways[gateway]? = some g ∧ g.alive = true
  | .claimed node => ∃ g, r.gateways[gateway]? = some g ∧ g.alive = true ∧ node ∈ g.claimed

/-- The condition on a step. A thread delivers one batch at a time and for a gateway that is
there; a thread that was granted a node for a gateway with an executor delivers for no other
gateway; and no two threads deliver for a gateway without an executor at the same time. -/
def ScratchRun.Proper : ScratchOp → Prop
  | .deliver thread gateway _ =>
    r.serving thread = none ∧
      (∀ other g, (thread, other, true) ∈ r.deliveries → r.gateways[other]? = some g →
        g.executor = true → other = gateway) ∧
      ∃ g, r.gateways[gateway]? = some g ∧ g.alive = true ∧
        (g.executor = false → ∀ other, r.serving other ≠ some gateway)
  | _ => True

section Ownership

variable {r : ScratchRun} {thread gateway : Nat} {granted : Bool}

/-- The thread was granted the node for a gateway, which lists it as long as it is there. -/
def ScratchRun.Registered (r : ScratchRun) (thread node : Nat) : Prop :=
  ∃ gateway g, (thread, gateway, true) ∈ r.deliveries ∧ r.gateways[gateway]? = some g ∧
    g.executor = true ∧ (g.alive = true → node ∈ g.claimed)

/-- A claimed node is registered and one thread's; a delivery works in what its thread has
claimed, or alone in the own buffer of its gateway. -/
structure ScratchRun.Separate (r : ScratchRun) : Prop where
  fresh : ∀ thread node, r.claims thread = some node → node < r.nodes
  single : ∀ thread other node, r.claims thread = some node → r.claims other = some node →
    thread = other
  registered : ∀ thread node, r.claims thread = some node → r.Registered thread node
  mine : ∀ thread node, r.holding thread = some (.claimed node) → r.claims thread = some node
  own : ∀ thread gateway, r.holding thread = some (.own gateway) → r.serving thread = some gateway
  alone : ∀ thread other gateway, r.holding thread = some (.own gateway) →
    r.holding other = some (.own gateway) → thread = other

/-- What one call of the accessor can give. -/
inductive ScratchAnswer (r : ScratchRun) (thread gateway : Nat) (granted : Bool) :
    Option ScratchBuffer × ScratchRun → Prop
  | kept {node : Nat} (claim : r.claims thread = some node) :
    ScratchAnswer r thread gateway granted (some (.claimed node), r)
  | none : ScratchAnswer r thread gateway granted (none, r)
  | own {g : ScratchGateway} (here : r.gateways[gateway]? = some g) (alone : g.executor = false) :
    ScratchAnswer r thread gateway granted (some (.own gateway), r)
  | claimed {g : ScratchGateway} (here : r.gateways[gateway]? = some g) (pooled : g.executor = true)
      (unclaimed : r.claims thread = .none) (allocated : granted = true) :
    ScratchAnswer r thread gateway granted (some (.claimed r.nodes), { r with
      gateways := r.gateways.set gateway { g with claimed := r.nodes :: g.claimed }
      nodes := r.nodes + 1
      claims := update r.claims thread (some r.nodes) })

theorem gatewayDeliveryScratch_answer (r : ScratchRun) (thread gateway : Nat) (granted : Bool) :
    ScratchAnswer r thread gateway granted (gatewayDeliveryScratch r thread gateway granted) := by
  rw [gatewayDeliveryScratch]
  split
  · rename_i claim
    exact .kept claim
  · exact .none
  · rename_i g claim here
    split
    · exact .own here ‹_›
    · rename_i pooled
      split
      · exact .claimed here (eq_true_of_ne_false pooled) claim ‹_›
      · exact .none

theorem update_some {α : Type} {f : Nat → Option α} {v : Option α} {t : Nat} {a : α}
    (here : update f thread v t = some a) : t = thread ∧ v = some a ∨ f t = some a := by
  rw [update_apply] at here
  split at here
  · exact .inl ⟨‹_›, here⟩
  · exact .inr here

theorem ScratchRun.Registered.later {node : Nat} (registered : r.Registered thread node)
    {s : ScratchRun} (more : r.deliveries ⊆ s.deliveries)
    (kept : ∀ (i : Nat) g, r.gateways[i]? = some g → ∃ g', s.gateways[i]? = some g' ∧
      g'.executor = g.executor ∧ (g'.alive = true → g.alive = true ∧ g.claimed ⊆ g'.claimed)) :
    s.Registered thread node := by
  obtain ⟨gateway, g, called, here, pooled, listed⟩ := registered
  obtain ⟨g', here', same, living⟩ := kept gateway g here
  exact ⟨gateway, g', more called, here', same.trans pooled,
    fun alive => (living alive).2 (listed (living alive).1)⟩

theorem ScratchRun.Separate.hold (separate : r.Separate) {buffer : Option ScratchBuffer}
    {serving : Option Nat} {deliveries : List (Nat × Nat × Bool)} (more : r.deliveries ⊆ deliveries)
    (mine : ∀ node, buffer = some (.claimed node) → r.claims thread = some node)
    (own : ∀ gateway, buffer = some (.own gateway) →
      serving = some gateway ∧ ∀ other, r.serving other ≠ some gateway) :
    ScratchRun.Separate { r with
      holding := update r.holding thread buffer
      serving := update r.serving thread serving
      deliveries := deliveries } where
  fresh := separate.fresh
  single := separate.single
  registered t node claim := by
    refine (separate.registered t node claim).later more fun i g here => ?_
    exact ⟨g, here, rfl, fun alive => ⟨alive, List.Subset.refl _⟩⟩
  mine t node held := by
    obtain ⟨rfl, now⟩ | held := update_some held
    · exact mine node now
    · exact separate.mine t node held
  own t gateway held := by
    dsimp only at held ⊢
    by_cases here : t = thread
    · rw [here, update_self] at held ⊢
      exact (own gateway held).1
    · rw [update_of_ne here] at held ⊢
      exact separate.own t gateway held
  alone t other gateway held held' := by
    obtain ⟨rfl, now⟩ | before := update_some held
    · obtain ⟨rfl, _⟩ | before := update_some held'
      · rfl
      · exact absurd (separate.own other gateway before) ((own gateway now).2 other)
    · obtain ⟨rfl, now⟩ | before' := update_some held'
      · exact absurd (separate.own t gateway before) ((own gateway now).2 t)
      · exact separate.alone t other gateway before before'

theorem ScratchRun.Separate.claim (separate : r.Separate) {g : ScratchGateway}
    (here : r.gateways[gateway]? = some g) (pooled : g.executor = true)
    (unclaimed : r.claims thread = none) :
    ScratchRun.Separate { r with
      gateways := r.gateways.set gateway { g with claimed := r.nodes :: g.claimed }
      nodes := r.nodes + 1
      claims := update r.claims thread (some r.nodes)
      deliveries := (thread, gateway, true) :: r.deliveries } where
  fresh t node claim := by
    obtain ⟨_, ⟨⟩⟩ | claim := update_some claim
    · exact Nat.lt_succ_self _
    · exact Nat.lt_succ_of_lt (separate.fresh t node claim)
  single t other node claim claim' := by
    obtain ⟨rfl, ⟨⟩⟩ | claim := update_some claim
    · obtain ⟨rfl, _⟩ | claim' := update_some claim'
      · rfl
      · exact absurd (separate.fresh other _ claim') (Nat.lt_irrefl _)
    · obtain ⟨_, ⟨⟩⟩ | claim' := update_some claim'
      · exact absurd (separate.fresh t _ claim) (Nat.lt_irrefl _)
      · exact separate.single t other node claim claim'
  registered t node claim := by
    have inside := (List.getElem?_eq_some_iff.mp here).1
    obtain ⟨rfl, ⟨⟩⟩ | claim := update_some claim
    · exact ⟨gateway, _, List.mem_cons_self, List.getElem?_set_self inside, pooled,
        fun _ => List.mem_cons_self⟩
    · refine (separate.registered t node claim).later (List.subset_cons_self ..) ?_
      intro i g' there
      by_cases same : gateway = i
      · subst same
        cases here.symm.trans there
        exact ⟨_, List.getElem?_set_self inside, rfl,
          fun alive => ⟨alive, List.subset_cons_self ..⟩⟩
      · exact ⟨g', (List.getElem?_set_ne same).trans there, rfl,
          fun alive => ⟨alive, List.Subset.refl _⟩⟩
  mine t node held := by
    have claim := separate.mine t node held
    have other : t ≠ thread := by
      rintro rfl
      cases unclaimed.symm.trans claim
    exact (update_of_ne other ..).trans claim
  own := separate.own
  alone := separate.alone

theorem ScratchRun.Separate.next (separate : r.Separate) {op : ScratchOp} (proper : r.Proper op) :
    (r.next op).Separate := by
  cases op with
  | create executor =>
    refine { separate with registered := fun t node claim =>
      (separate.registered t node claim).later (List.Subset.refl _) ?_ }
    intro i g there
    have first := (List.getElem?_eq_some_iff.mp there).1
    exact ⟨g, (List.getElem?_append_left first).trans there, rfl,
      fun alive => ⟨alive, List.Subset.refl _⟩⟩
  | destroy gateway =>
    refine { separate with registered := fun t node claim =>
      (separate.registered t node claim).later (List.Subset.refl _) ?_ }
    intro i g there
    rw [ScratchRun.next, List.getElem?_modify, there]
    refine ⟨_, rfl, ?_⟩
    split
    · exact ⟨rfl, nofun⟩
    · exact ⟨rfl, fun alive => ⟨alive, List.Subset.refl _⟩⟩
  | done thread => exact separate.hold (List.Subset.refl _) nofun nofun
  | deliver thread gateway granted =>
    obtain ⟨_, _, g, here, _, unshared⟩ := proper
    have answer := gatewayDeliveryScratch_answer r thread gateway granted
    rw [ScratchRun.next]
    generalize gatewayDeliveryScratch r thread gateway granted = outcome at answer
    have more := List.subset_cons_self (thread, gateway, granted) r.deliveries
    cases answer with
    | kept claim =>
      refine separate.hold more ?_ nofun
      rintro _ ⟨⟩
      exact claim
    | none => exact separate.hold more nofun nofun
    | own found alone =>
      cases here.symm.trans found
      refine separate.hold more nofun ?_
      rintro _ ⟨⟩
      exact ⟨rfl, unshared alone⟩
    | claimed found pooled unclaimed allocated =>
      subst allocated
      refine (separate.claim found pooled unclaimed).hold (List.Subset.refl _) ?_ nofun
      rintro _ ⟨⟩
      exact update_self ..

theorem ScratchRun.Separate.owned (separate : r.Separate)
    (proper : r.Proper (.deliver thread gateway granted)) {buffer : ScratchBuffer}
    (given : (gatewayDeliveryScratch r thread gateway granted).1 = some buffer) :
    (gatewayDeliveryScratch r thread gateway granted).2.Owns gateway buffer := by
  obtain ⟨_, faithful, g, here, alive, _⟩ := proper
  have answer := gatewayDeliveryScratch_answer r thread gateway granted
  generalize gatewayDeliveryScratch r thread gateway granted = outcome at answer given
  cases answer with
  | kept claim =>
    cases given
    obtain ⟨other, g', called, found, pooled, listed⟩ := separate.registered thread _ claim
    cases faithful other g' called found pooled
    cases here.symm.trans found
    exact ⟨g, here, alive, listed alive⟩
  | none => cases given
  | own _ _ =>
    cases given
    exact ⟨rfl, g, here, alive⟩
  | claimed found _ _ _ =>
    cases given
    cases here.symm.trans found
    have inside := (List.getElem?_eq_some_iff.mp here).1
    exact ⟨_, List.getElem?_set_self inside, alive, List.mem_cons_self⟩

/-- In every run in which a thread that was granted a node for one gateway delivers for no
other, and gateways without an executor are delivered for by one thread at a time: the accessor
gives allocated buffers of the gateway it is called for, and no two deliveries share one. -/
theorem scratch_buffers_owned (path : Path ScratchRun.next ScratchRun.Proper .start r) :
    (∀ thread gateway granted, r.Proper (.deliver thread gateway granted) → ∀ buffer,
      (gatewayDeliveryScratch r thread gateway granted).1 = some buffer →
        (gatewayDeliveryScratch r thread gateway granted).2.Owns gateway buffer) ∧
    ∀ thread other buffer, r.holding thread = some buffer → r.holding other = some buffer →
      thread = other := by
  have separate :=
    path.invariant ScratchRun.Separate (fun r op separate proper => separate.next proper)
    ⟨by rintro _ _ ⟨⟩, by rintro _ _ _ ⟨⟩, by rintro _ _ ⟨⟩, by rintro _ _ ⟨⟩, by rintro _ _ ⟨⟩,
      by rintro _ _ _ ⟨⟩⟩
  refine ⟨fun _ _ _ proper _ given => separate.owned proper given, ?_⟩
  intro thread other buffer held held'
  cases buffer with
  | own gateway => exact separate.alone thread other gateway held held'
  | claimed node =>
    exact separate.single thread other node (separate.mine _ _ held) (separate.mine _ _ held')

/-- Two threads deliver for a gateway with an executor, and the first one is done. -/
def claimedRun : ScratchRun :=
  [ScratchOp.create true, .deliver 0 0 true, .deliver 1 0 true, .done 0].foldl ScratchRun.next
    .start

theorem scratch_buffers_owned_again :
    gatewayDeliveryScratch claimedRun 0 0 true = (some (.claimed 0), claimedRun) ∧
    claimedRun.Owns 0 (.claimed 0) ∧
    ∀ other, claimedRun.holding other = some (.claimed 1) → (1 : Nat) = other := by
  have path : Path ScratchRun.next ScratchRun.Proper .start claimedRun := by
    refine Allowed.path ⟨trivial, ⟨rfl, nofun, _, rfl, rfl, nofun⟩,
      ⟨rfl, ?_, _, rfl, rfl, nofun⟩, trivial, trivial⟩
    intro other g called
    cases List.mem_singleton.mp called
  obtain ⟨owned, apart⟩ := scratch_buffers_owned path
  have proper : claimedRun.Proper (.deliver 0 0 true) := by
    refine ⟨rfl, fun other g called _ _ => ?_, _, rfl, rfl, nofun⟩
    have member : (0, other, true) ∈ [(1, 0, true), (0, 0, true)] := called
    simpa using member
  exact ⟨rfl, owned 0 0 true proper _ rfl, fun other held => apart 1 other _ rfl held⟩

/-- The claim outlives the gateway: the next gateway's delivery on the thread is given the
freed buffer of the first. -/
theorem claim_outlives_gateway :
    ∃ r : ScratchRun, r =
      [ScratchOp.done 0, .destroy 0, .create true].foldl ScratchRun.next claimedRun ∧
      (gatewayDeliveryScratch r 0 1 true).1 = some (.claimed 0) ∧
      ∀ g ∈ r.gateways, 0 ∉ g.claimed :=
  ⟨_, rfl, rfl, by decide⟩

end Ownership

end Kith.Gateway
