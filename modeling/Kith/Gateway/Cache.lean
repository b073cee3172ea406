import Kith.Fabric.Subscriptions

/-!
# The cell cache of the gateway

Sixteen probed tables, chosen by the low bits of the cell's hash, hold one
reference-counted node for each cell that some subscriber tracks. A node keeps
the rows of its cell in one buffer and copies the next ones into another; the
two change places when a copy succeeds. A call holds the lock of its stripe from
beginning to end and touches one cell of the fabric's interest set, so it is one
step here. The sim may change between the rounds of one copy: what each round
reads is an input.
-/

namespace Kith.Gateway

open LinearProbe Kith.Fabric Function List

/-- `kith_fabric_artifact_t`; the cache asks for full rows only. -/
structure Artifact where
  actorId : UInt64
  posX : Int64
  posY : Int64
  posZ : Int64
  velX : Int64
  velY : Int64
  velZ : Int64
  inputTick : UInt32
  updateSeq : UInt32
  deriving DecidableEq

/-- `struct gateway_cache_node`. A buffer is its rows, its capacity their number;
`none` is a null pointer. -/
structure CacheNode where
  key : CellKey
  refcount : UInt32
  authorityEpoch : UInt32
  latestPublishSeq : UInt64
  refreshedAtMs : UInt64
  contentSeq : UInt64
  actorCount : UInt32
  productLevel : Fabric.ProductLevel
  used : Bool
  deleted : Bool
  artifacts : Option (List Artifact)
  artifactCount : Nat
  staging : Option (List Artifact)
  sumX : Int64
  sumY : Int64
  sumZ : Int64
  deriving DecidableEq

def CacheNode.zero : CacheNode :=
  ⟨⟨0, 0, 0, 0, 0⟩, 0, 0, 0, 0, 0, 0, .full, false, false, none, 0, none, 0, 0, 0⟩

def CacheNode.rows (n : CacheNode) : List Artifact := (n.artifacts.getD []).take n.artifactCount

def CacheNode.withRefcount (n : CacheNode) (refcount : UInt32) : CacheNode :=
  { n with refcount := refcount }

def cacheLayout : Layout CacheNode CellKey := ⟨CacheNode.used, CacheNode.deleted, CacheNode.key⟩

structure CacheStripe where
  nodes : Nat → CacheNode
  buckets : Nat
  count : Nat

structure GatewayCache where
  stripes : Fin 16 → CacheStripe
  lastRefreshMs : UInt64
  contentSeqClock : UInt64

inductive CacheSite where
  | stripe | stripeLock | staging | products | window | pending
  deriving DecidableEq

section Hashing

def gatewayKeyHash (key : CellKey) : UInt64 := cellMix key

def gatewayCacheStripeIndex (key : CellKey) : Fin 16 :=
  ⟨(gatewayKeyHash key &&& 15).toNat, Nat.lt_succ_of_le Nat.and_le_right⟩

/-- The bits above the stripe index choose the bucket. -/
def cacheHome (key : CellKey) : Nat := (gatewayKeyHash key >>> 4).toNat

variable (c : GatewayCache) (key : CellKey)

def GatewayCache.stripeOf : CacheStripe :=
  c.stripes (gatewayCacheStripeIndex key)

def GatewayCache.setStripe (s : CacheStripe) : GatewayCache :=
  { c with stripes := update c.stripes (gatewayCacheStripeIndex key) s }

def GatewayCache.setNode (i : Nat) (n : CacheNode) : GatewayCache :=
  c.setStripe key { c.stripeOf key with nodes := update (c.stripeOf key).nodes i n }

end Hashing

section Lifecycle

def gatewayCacheNextPow2 (v : UInt32) : Option UInt32 := nextPow2Loop v 33 1

/-- `none` is a rounding loop that does not end; the quotient is cut to 32 bits first. -/
def cacheStripeBuckets (buckets : Nat) : Option Nat :=
  (gatewayCacheNextPow2 (UInt32.ofNat (buckets / 16))).map fun b => if b.toNat < 16 then 16
    else b.toNat

def CacheStripe.blank (buckets : Nat) : CacheStripe := ⟨fun _ => .zero, buckets, 0⟩

/-- The stripes are allocated in turn; a refusal rolls the earlier ones back. -/
def gatewayCacheInitStripes (heap : Heap CacheSite) : Nat → Rc × Heap CacheSite
  | 0 => (.ok, heap)
  | left + 1 =>
    match heap.request .stripe with
    | (false, heap) => (.err .enomem, heap)
    | (true, heap) =>
      match heap.request .stripeLock with
      | (false, heap) => (.err .estate, heap)
      | (true, heap) => gatewayCacheInitStripes heap left

/-- The fabric's subscription is created by the caller of this part. -/
def gatewayCacheInit (heap : Heap CacheSite) (buckets : Nat) :
    Option (Except KithError GatewayCache × Heap CacheSite) :=
  (cacheStripeBuckets buckets).map fun b =>
    match gatewayCacheInitStripes heap 16 with
    | (.ok, heap) => (.ok ⟨fun _ => .blank b, 0, 1⟩, heap)
    | (.err code, heap) => (.error code, heap)

end Lifecycle

section Nodes

variable (c : GatewayCache) (key : CellKey)

def gatewayCacheFind : Option Nat :=
  lookup cacheLayout (c.stripeOf key).buckets (c.stripeOf key).nodes (cacheHome key) key

def CacheNode.claimed (seq : UInt64) : CacheNode :=
  { CacheNode.zero with key := key, used := true, contentSeq := seq }

def gatewayCacheNodeClaim (i : Nat) : GatewayCache :=
  let s := c.stripeOf key
  { c.setStripe key ⟨update s.nodes i (.claimed key c.contentSeqClock), s.buckets, s.count + 1⟩ with
    contentSeqClock := c.contentSeqClock + 1 }

def gatewayCacheCreate : Option (Nat × GatewayCache) :=
  match place cacheLayout (c.stripeOf key).buckets (c.stripeOf key).nodes (cacheHome key) with
  | .fresh i _ => some (i, gatewayCacheNodeClaim c key i)
  | .full (some i) => some (i, gatewayCacheNodeClaim c key i)
  | .full none => none

def CacheNode.evicted (n : CacheNode) : CacheNode :=
  { n with
    artifacts := none, artifactCount := 0, staging := none, sumX := 0, sumY := 0, sumZ := 0
    deleted := true, used := true }

def gatewayCacheEvict (i : Nat) : GatewayCache :=
  let s := c.stripeOf key
  c.setStripe key ⟨update s.nodes i (s.nodes i).evicted, s.buckets,
    if s.count > 0 then s.count - 1 else s.count⟩

end Nodes

section Copying

/-- What the sim behind the fabric answers to one snapshot call. -/
abbrev Reading : Type := Except KithError (List Artifact)

/-- `kith_fabric_snapshot_cell`, without a buffer (`none`) or with one for `max` rows:
the rows it writes, and the count, which a failed call does not set. -/
def kithFabricSnapshotCell (reading : Reading) : Option Nat → Rc × List Artifact × Option Nat
  | none =>
    match reading with
    | .error code => (.err code, [], none)
    | .ok rows => (.ok, [], some rows.length)
  | some max =>
    match reading with
    | .error code => (.err code, [], none)
    | .ok rows =>
      (if max < rows.length then .err .erange else .ok, rows.take max, some rows.length)

/-- The variables of the copy loop. -/
structure Staging where
  buffer : Option (List Artifact)
  copied : Nat
  heap : Heap CacheSite

/-- What one copy meets: `readings r` is what the sim answers with `r` rounds to go
after this one, `junk` what a grown buffer holds before it is written. -/
structure Supply where
  readings : Nat → Reading
  junk : Nat → Artifact

variable (junk : Nat → Artifact)

def gatewayCacheEnsureStaging (rows : Nat) (st : Staging) : Rc × Staging :=
  let held := st.buffer.getD []
  if rows ≤ held.length then (.ok, st)
  else
    match st.heap.request .staging with
    | (false, heap) => (.err .enomem, { st with heap := heap })
    | (true, heap) =>
      (.ok, { st with
        buffer := some (held ++ (List.range (rows - held.length)).map junk), heap := heap })

/-- The end of a round: the loop goes on after a growth that was granted. -/
def stageGrow (rows : Nat) (st : Staging) : Bool × Rc × Staging :=
  match gatewayCacheEnsureStaging junk rows st with
  | (.ok, st) => (false, .ok, st)
  | (rc, st) => (true, rc, st)

/-- One round of the copy loop; `true` is a `break`. -/
def stageRound (reading : Reading) (st : Staging) : Bool × Rc × Staging :=
  match st.buffer with
  | none =>
    match kithFabricSnapshotCell reading none with
    | (.ok, _, count) =>
      if count.getD 0 = 0 then (true, .ok, st) else stageGrow junk (count.getD 0) st
    | (rc, _, _) => (true, rc, st)
  | some held =>
    match kithFabricSnapshotCell reading (some held.length) with
    | (rc, rows, count) =>
      let st : Staging :=
        { st with buffer := some (rows ++ held.drop rows.length), copied := count.getD st.copied }
      if rc = .err .erange then stageGrow junk st.copied st else (true, rc, st)

/-- The loop with `left` rounds to go. A last round that grows the buffer ends it with
the code of the growth. -/
def stageRounds (supply : Supply) : Nat → Rc → Staging → Rc × Staging
  | 0, rc, st => (rc, st)
  | left + 1, _, st =>
    match stageRound supply.junk (supply.readings left) st with
    | (true, rc, st) => (rc, st)
    | (false, rc, st) => stageRounds supply left rc st

def gatewayCacheCopyAttempts : Nat := 3

def gatewayCacheStageCell (supply : Supply) (heap : Heap CacheSite) (n : CacheNode) :
    Rc × Staging :=
  stageRounds supply gatewayCacheCopyAttempts .ok ⟨n.staging, 0, heap⟩

/-- `qsort` by actor id. -/
def sortArtifacts (rows : List Artifact) : List Artifact :=
  rows.mergeSort fun a b => decide (a.actorId ≤ b.actorId)

def sumOf (coordinate : Artifact → Int64) (rows : List Artifact) : Int64 :=
  rows.foldl (fun sum a => sum + coordinate a) 0

/-- What a copy that returned 0 leaves in the node. -/
def CacheNode.recopied (n : CacheNode) (st : Staging) (seq : UInt64) : CacheNode :=
  if st.copied = 0 then
    { n with
      staging := st.buffer, artifactCount := 0, sumX := 0, sumY := 0, sumZ := 0, contentSeq := seq }
  else
    let held := st.buffer.getD []
    let rows := sortArtifacts (held.take st.copied)
    { n with
      artifacts := some (rows ++ held.drop st.copied)
      artifactCount := st.copied
      staging := n.artifacts
      sumX := sumOf Artifact.posX rows
      sumY := sumOf Artifact.posY rows
      sumZ := sumOf Artifact.posZ rows
      contentSeq := seq }

/-- On the node at bucket `i` of the cell's stripe. A failure keeps the rows; the
staging buffer keeps its growth. -/
def gatewayCacheRefreshArtifacts (c : GatewayCache) (heap : Heap CacheSite) (supply : Supply)
    (key : CellKey) (i : Nat) : Rc × GatewayCache × Heap CacheSite :=
  let n := (c.stripeOf key).nodes i
  match gatewayCacheStageCell supply heap n with
  | (.ok, st) =>
    (.ok, { c.setNode key i (n.recopied st c.contentSeqClock) with
      contentSeqClock := c.contentSeqClock + 1 }, st.heap)
  | (rc, st) => (rc, c.setNode key i { n with staging := st.buffer }, st.heap)

end Copying

section Calls

/-- The cache, the gateway's interest set in the fabric and the allocator. -/
structure SharedCache where
  cache : GatewayCache
  sub : Subscription
  heap : Heap CacheSite

variable (s : SharedCache)

def subscribeFound (supply : Supply) (key : CellKey) (i : Nat) : SharedCache :=
  let n := (s.cache.stripeOf key).nodes i
  let c := s.cache.setNode key i (n.withRefcount (n.refcount + 1))
  if n.artifactCount = 0 then
    -- The reconcile's code is ignored.
    match gatewayCacheRefreshArtifacts c s.heap supply key i with
    | (_, c, heap) => { s with cache := c, heap := heap }
  else { s with cache := c }

/-- The cell has its new node at bucket `i`. -/
def subscribeCreated (supply : Supply) (key : CellKey) (i : Nat) (c : GatewayCache) :
    Rc × SharedCache :=
  let c := c.setNode key i (((c.stripeOf key).nodes i).withRefcount 1)
  match kithFabricSubscriptionAdd s.sub key with
  | (.ok, sub) =>
    -- The first copy's code is ignored too.
    match gatewayCacheRefreshArtifacts c s.heap supply key i with
    | (_, c, heap) => (.ok, ⟨c, sub, heap⟩)
  | (rc, sub) => (rc, ⟨gatewayCacheEvict c key i, sub, s.heap⟩)

def kithGatewaySubscribe (supply : Supply) (key : CellKey) : Rc × SharedCache :=
  match gatewayCacheFind s.cache key with
  | some i => (.ok, subscribeFound s supply key i)
  | none =>
    match gatewayCacheCreate s.cache key with
    | none => (.err .enomem, s)
    | some (i, c) => subscribeCreated s supply key i c

def kithGatewayUnsubscribe (key : CellKey) : SharedCache :=
  match gatewayCacheFind s.cache key with
  | none => s
  | some i =>
    let n := (s.cache.stripeOf key).nodes i
    let n := if n.refcount > 0 then n.withRefcount (n.refcount - 1) else n
    let c := s.cache.setNode key i n
    if n.refcount > 0 then { s with cache := c }
    else
      let (_, sub) := kithFabricSubscriptionRemove s.sub key
      { s with cache := gatewayCacheEvict c key i, sub := sub }

end Calls

section Map

variable {c : GatewayCache} {key : CellKey} {i : Nat} {n : CacheNode} {s : CacheStripe}

def CacheStripe.entry (s : CacheStripe) : CellKey → Option CacheNode :=
  LinearProbe.entry cacheLayout s.buckets s.nodes cacheHome

/-- The cache as a map: the node the probe of the cell's stripe finds. -/
def GatewayCache.node (c : GatewayCache) (key : CellKey) : Option CacheNode :=
  (c.stripeOf key).entry key

/-- The searches of the composer are by halving. -/
def CacheNode.Sorted (n : CacheNode) : Prop := n.rows.Pairwise fun a b => a.actorId ≤ b.actorId

/-- The count of a stripe is exact. -/
structure CacheStripe.Valid (s : CacheStripe) : Prop where
  table : ∃ tombs, Counted cacheLayout cacheHome s.buckets s.nodes s.count tombs

structure GatewayCache.Valid (c : GatewayCache) : Prop where
  stripe : ∀ j, (c.stripes j).Valid
  homed : ∀ j key, ((c.stripes j).entry key).isSome → gatewayCacheStripeIndex key = j
  sorted : ∀ key n, c.node key = some n → n.Sorted

theorem CacheStripe.Valid.find (valid : s.Valid)
    (found : lookup cacheLayout s.buckets s.nodes (cacheHome key) key = some i) :
    Holds cacheLayout s.buckets s.nodes key i ∧ s.entry key = some (s.nodes i) := by
  obtain ⟨_, table⟩ := valid.table
  have holds := table.lookup_iff.mp found
  exact ⟨holds, table.entry_of_holds holds⟩

theorem GatewayCache.Valid.stripeOf (valid : c.Valid) (key : CellKey) : (c.stripeOf key).Valid :=
  valid.stripe _

theorem GatewayCache.Valid.find (valid : c.Valid) (found : gatewayCacheFind c key = some i) :
    Holds cacheLayout (c.stripeOf key).buckets (c.stripeOf key).nodes key i ∧
      c.node key = some ((c.stripeOf key).nodes i) :=
  (valid.stripeOf key).find found

theorem node_of_find_none (missing : gatewayCacheFind c key = none) : c.node key = none :=
  Option.map_eq_none_iff.mpr missing

section

variable (valid : c.Valid)
include valid

theorem GatewayCache.Valid.write {o : Option CacheNode} (stripe : s.Valid)
    (written : s.entry = update (c.stripeOf key).entry key o)
    (sorted : ∀ n, o = some n → n.Sorted) :
    (c.setStripe key s).Valid ∧ (c.setStripe key s).node = update c.node key o := by
  have node : (c.setStripe key s).node = update c.node key o := by
    have routed := routed_update gatewayCacheStripeIndex CacheStripe.entry c.stripes written
    exact routed
  refine ⟨⟨routed_each valid.stripe stripe _,
    routed_homed gatewayCacheStripeIndex CacheStripe.entry valid.homed written, ?_⟩, node⟩
  intro k n held
  rw [node, update_apply] at held
  split at held
  · exact sorted n held
  · exact valid.sorted k n held

section

variable (holds : Holds cacheLayout (c.stripeOf key).buckets (c.stripeOf key).nodes key i)
include holds

theorem GatewayCache.Valid.setNode
    (live : cacheLayout.live n = true) (same : n.key = key) (sorted : n.Sorted) :
    (c.setNode key i n).Valid ∧ (c.setNode key i n).node = update c.node key (some n) ∧
      Holds cacheLayout ((c.setNode key i n).stripeOf key).buckets
        ((c.setNode key i n).stripeOf key).nodes key i := by
  obtain ⟨tombs, table⟩ := (valid.stripeOf key).table
  obtain ⟨after, held, written⟩ := table.modify (c := n) holds live same
  obtain ⟨valid', node⟩ := valid.write (s := { c.stripeOf key with
    nodes := update (c.stripeOf key).nodes i n }) ⟨⟨tombs, after⟩⟩ written
    (by rintro _ ⟨⟩; exact sorted)
  refine ⟨valid', node, ?_⟩
  simpa only [GatewayCache.setNode, GatewayCache.setStripe, GatewayCache.stripeOf,
    update_self] using held

omit holds in
/-- A cell that is not cached takes a bucket of its stripe, or the stripe is full. -/
theorem gatewayCacheCreate_spec (absent : c.node key = none) :
    gatewayCacheCreate c key = none ∨
    ∃ i c', gatewayCacheCreate c key = some (i, c') ∧ c'.Valid ∧
      Holds cacheLayout (c'.stripeOf key).buckets (c'.stripeOf key).nodes key i ∧
      (c'.stripeOf key).nodes i = .claimed key c.contentSeqClock ∧
      c'.node = update c.node key (some (.claimed key c.contentSeqClock)) ∧
      c'.contentSeqClock = c.contentSeqClock + 1 ∧ c'.lastRefreshMs = c.lastRefreshMs := by
  obtain ⟨tombs, table⟩ := (valid.stripeOf key).table
  have claim :
      ∀ i, Open cacheLayout (c.stripeOf key).buckets (c.stripeOf key).nodes (cacheHome key) i →
      (gatewayCacheNodeClaim c key i).Valid ∧
      Holds cacheLayout ((gatewayCacheNodeClaim c key i).stripeOf key).buckets
        ((gatewayCacheNodeClaim c key i).stripeOf key).nodes key i ∧
      ((gatewayCacheNodeClaim c key i).stripeOf key).nodes i = .claimed key c.contentSeqClock ∧
      (gatewayCacheNodeClaim c key i).node =
        update c.node key (some (.claimed key c.contentSeqClock)) := by
    intro i opened
    obtain ⟨after, held, written⟩ := table.fill (c := CacheNode.claimed key c.contentSeqClock)
      absent opened rfl rfl
    have stripe : CacheStripe.Valid ⟨update (c.stripeOf key).nodes i
        (.claimed key c.contentSeqClock), (c.stripeOf key).buckets, (c.stripeOf key).count + 1⟩ :=
      ⟨⟨_, after⟩⟩
    obtain ⟨valid', node⟩ := valid.write stripe written (by rintro _ ⟨⟩; exact .nil)
    refine ⟨{ valid' with }, ?_, ?_, node⟩
    · simpa only [gatewayCacheNodeClaim, GatewayCache.setStripe, GatewayCache.stripeOf,
        update_self] using held
    · simp [gatewayCacheNodeClaim, GatewayCache.setStripe, GatewayCache.stripeOf, update_self]
  rw [gatewayCacheCreate]
  cases placed :
    place cacheLayout (c.stripeOf key).buckets (c.stripeOf key).nodes (cacheHome key) with
  | fresh i reused =>
    obtain ⟨valid', held, at_i, node⟩ := claim i (place_fresh placed).1
    exact .inr ⟨i, _, rfl, valid', held, at_i, node, rfl, rfl⟩
  | full tomb =>
    cases tomb with
    | none => exact .inl rfl
    | some i =>
      obtain ⟨valid', held, at_i, node⟩ := claim i (place_full_open placed)
      exact .inr ⟨i, _, rfl, valid', held, at_i, node, rfl, rfl⟩

theorem gatewayCacheEvict_spec : (gatewayCacheEvict c key i).Valid ∧
      (gatewayCacheEvict c key i).node = update c.node key none := by
  obtain ⟨tombs, table⟩ := (valid.stripeOf key).table
  obtain ⟨after, positive, written⟩ :=
    table.bury (c := ((c.stripeOf key).nodes i).evicted) holds rfl rfl
  refine valid.write ?_ written (by rintro _ ⟨⟩)
  rw [if_pos positive]
  exact ⟨⟨tombs + 1, after⟩⟩

end

/-- The map fixes the counts: a stripe counts the cells of the map that it homes. -/
theorem count_eq_of_node_eq {c' : GatewayCache} (valid' : c'.Valid)
    (same : c'.node = c.node) (j : Fin 16) : (c'.stripes j).count = (c.stripes j).count := by
  obtain ⟨_, table⟩ := (valid.stripe j).table
  obtain ⟨_, table'⟩ := (valid'.stripe j).table
  have entries : ∀ key, ((c'.stripes j).entry key).isSome ↔ ((c.stripes j).entry key).isSome := by
    intro key
    by_cases here : gatewayCacheStripeIndex key = j
    · subst here
      exact (congrArg (fun o => Option.isSome o = true) (congrFun same key)).to_iff
    · exact ⟨fun held => absurd (valid'.homed j key held) here,
        fun held => absurd (valid.homed j key held) here⟩
  rw [← table.card_liveKeys, ← table'.card_liveKeys]
  congr 1
  ext key
  rw [table'.mem_liveKeys_iff, table.mem_liveKeys_iff]
  exact entries key

end

end Map

section CopySpec

variable {c : GatewayCache} {key : CellKey} {i : Nat} {n n' : CacheNode} {clock clock' : UInt64}
    {rc : Rc}

theorem recopied_rows (n : CacheNode) (st : Staging) (seq : UInt64) :
    (n.recopied st seq).rows = sortArtifacts ((st.buffer.getD []).take st.copied) := by
  rw [CacheNode.recopied]
  split
  · rename_i none_copied
    simp only [none_copied, CacheNode.rows, take_zero, sortArtifacts, mergeSort_nil]
  · dsimp only [CacheNode.rows, Option.getD_some]
    have length : (sortArtifacts ((st.buffer.getD []).take st.copied)).length =
        min st.copied (st.buffer.getD []).length := by
      rw [sortArtifacts, length_mergeSort, length_take]
    rcases Nat.le_total st.copied (st.buffer.getD []).length with fits | beyond
    · exact take_left' (by omega)
    · rw [drop_eq_nil_of_le beyond, append_nil]
      exact take_of_length_le (by omega)

theorem sortArtifacts_sorted (rows : List Artifact) :
    (sortArtifacts rows).Pairwise fun a b => a.actorId ≤ b.actorId := by
  have trans : ∀ a b d : Artifact, decide (a.actorId ≤ b.actorId) → decide (b.actorId ≤ d.actorId) →
      decide (a.actorId ≤ d.actorId) := by
    intro a b d h₁ h₂
    simp only [decide_eq_true_eq] at *
    exact UInt64.le_trans h₁ h₂
  have total :
      ∀ a b : Artifact, (decide (a.actorId ≤ b.actorId) || decide (b.actorId ≤ a.actorId)) := by
    intro a b
    simp only [Bool.or_eq_true, decide_eq_true_eq]
    exact UInt64.le_total ..
  exact (pairwise_mergeSort trans total rows).imp fun le => by simpa using le

/-- What a copy does to a node: it keeps the rows and the sequence number, or it
replaces the rows and mints the next number of the clock. -/
inductive Copy (n : CacheNode) (clock : UInt64) : Rc → CacheNode → UInt64 → Prop
  | kept (code : KithError) (staging : Option (List Artifact)) :
    Copy n clock (.err code) { n with staging := staging } clock
  | minted (st : Staging) : Copy n clock .ok (n.recopied st clock) (clock + 1)

/-- The fields a copy leaves alone. -/
structure SameEntry (n n' : CacheNode) : Prop where
  key : n'.key = n.key
  refcount : n'.refcount = n.refcount
  used : n'.used = n.used
  deleted : n'.deleted = n.deleted

theorem Copy.entry (copy : Copy n clock rc n' clock') : SameEntry n n' := by
  cases copy with
  | kept code staging => exact ⟨rfl, rfl, rfl, rfl⟩
  | minted st =>
    rw [CacheNode.recopied]
    split
    · exact ⟨rfl, rfl, rfl, rfl⟩
    · exact ⟨rfl, rfl, rfl, rfl⟩

theorem Copy.sorted (copy : Copy n clock rc n' clock') (sorted : n.Sorted) : n'.Sorted := by
  cases copy with
  | kept code staging => exact sorted
  | minted st =>
    rw [CacheNode.Sorted, recopied_rows]
    exact sortArtifacts_sorted _

theorem gatewayCacheRefreshArtifacts_eq (c : GatewayCache) (heap : Heap CacheSite) (supply : Supply)
    (key : CellKey) (i : Nat) :
    ∃ rc n' clock' heap', gatewayCacheRefreshArtifacts c heap supply key i =
        (rc, { c.setNode key i n' with contentSeqClock := clock' }, heap') ∧
      Copy ((c.stripeOf key).nodes i) c.contentSeqClock rc n' clock' := by
  rw [gatewayCacheRefreshArtifacts]
  cases staged : gatewayCacheStageCell supply heap ((c.stripeOf key).nodes i) with
  | mk rc st =>
    cases rc with
    | ok => exact ⟨_, _, _, _, rfl, .minted st⟩
    | err code => exact ⟨_, _, _, _, rfl, .kept code st.buffer⟩

theorem gatewayCacheRefreshArtifacts_spec (valid : c.Valid)
    (holds : Holds cacheLayout (c.stripeOf key).buckets (c.stripeOf key).nodes key i)
    (heap : Heap CacheSite) (supply : Supply) :
    ∃ rc n' c' heap', gatewayCacheRefreshArtifacts c heap supply key i = (rc, c', heap') ∧
      Copy ((c.stripeOf key).nodes i) c.contentSeqClock rc n' c'.contentSeqClock ∧ c'.Valid ∧
      c'.node = update c.node key (some n') ∧ c'.lastRefreshMs = c.lastRefreshMs := by
  obtain ⟨rc, n', clock', heap', copied, copy⟩ :=
    gatewayCacheRefreshArtifacts_eq c heap supply key i
  obtain ⟨_, table⟩ := (valid.stripeOf key).table
  have held : c.node key = some ((c.stripeOf key).nodes i) := table.entry_of_holds holds
  have same := copy.entry
  have live : cacheLayout.live n' = true := by
    rw [live_iff]
    have parts := (live_iff _).mp holds.2.1
    exact ⟨same.used.trans parts.1, same.deleted.trans parts.2⟩
  obtain ⟨valid', node, _⟩ := valid.setNode holds live (same.key.trans holds.2.2)
    (copy.sorted (valid.sorted key _ held))
  exact ⟨rc, n', _, heap', copied, copy, { valid' with }, node, rfl⟩

end CopySpec

section CallSpec

variable {s : SharedCache} {key : CellKey} {i : Nat}

structure SharedCache.Valid (s : SharedCache) : Prop where
  cache : s.cache.Valid
  sub : s.sub.Valid

/-- What a subscription can do: count one more reference on the node of the cell, make
a node and add the cell to the interest set, or find no room and change no entry. -/
inductive Subscribes (c : GatewayCache) (sub : Subscription) (key : CellKey) :
    Rc → GatewayCache → Subscription → Prop
  | counted {c' : GatewayCache} {n n' : CacheNode} (held : c.node key = some n)
      (rows : n' = n.withRefcount (n.refcount + 1) ∧ c'.contentSeqClock = c.contentSeqClock ∨
        n.artifactCount = 0 ∧ ∃ rc, Copy (n.withRefcount (n.refcount + 1)) c.contentSeqClock rc n'
          c'.contentSeqClock)
      (node : c'.node = update c.node key (some n')) : Subscribes c sub key .ok c' sub
  | created {c' : GatewayCache} {sub' : Subscription} {n' : CacheNode} {rc : Rc}
      (absent : c.node key = none)
      (copy : Copy ((CacheNode.claimed key c.contentSeqClock).withRefcount 1)
        (c.contentSeqClock + 1) rc n' c'.contentSeqClock)
      (node : c'.node = update c.node key (some n'))
      (added : kithFabricSubscriptionAdd sub key = (.ok, sub')) : Subscribes c sub key .ok c' sub'
  | refused {c' : GatewayCache} (absent : c.node key = none) (node : c'.node = c.node)
      (clock : c'.contentSeqClock = c.contentSeqClock ∨
        c'.contentSeqClock = c.contentSeqClock + 1) :
    Subscribes c sub key (.err .enomem) c' sub

theorem GatewayCache.Valid.setRefcount {c : GatewayCache} (valid : c.Valid)
    (holds : Holds cacheLayout (c.stripeOf key).buckets (c.stripeOf key).nodes key i)
    (refcount : UInt32) :
    ∃ c', c.setNode key i (((c.stripeOf key).nodes i).withRefcount refcount) = c' ∧ c'.Valid ∧
      c'.node = update c.node key (some (((c.stripeOf key).nodes i).withRefcount refcount)) ∧
      Holds cacheLayout (c'.stripeOf key).buckets (c'.stripeOf key).nodes key i ∧
      (c'.stripeOf key).nodes i = ((c.stripeOf key).nodes i).withRefcount refcount ∧
      c'.contentSeqClock = c.contentSeqClock ∧ c'.lastRefreshMs = c.lastRefreshMs := by
  obtain ⟨_, table⟩ := (valid.stripeOf key).table
  have sorted := valid.sorted key _ (table.entry_of_holds holds)
  obtain ⟨valid', node, holds'⟩ :=
    valid.setNode (n := ((c.stripeOf key).nodes i).withRefcount refcount) holds holds.2.1 holds.2.2
      sorted
  refine ⟨_, rfl, valid', node, holds', ?_, rfl, rfl⟩
  simp only [GatewayCache.setNode, GatewayCache.setStripe, GatewayCache.stripeOf, update_self]

theorem subscribeFound_spec (valid : s.Valid) (supply : Supply)
    (found : gatewayCacheFind s.cache key = some i) :
    ∃ s', subscribeFound s supply key i = s' ∧ s'.Valid ∧
      Subscribes s.cache s.sub key .ok s'.cache s'.sub ∧
      s'.cache.lastRefreshMs = s.cache.lastRefreshMs := by
  obtain ⟨holds, held⟩ := valid.cache.find found
  obtain ⟨c₁, written, valid₁, node₁, holds₁, at_i₁, clock₁, refreshed₁⟩ :=
    valid.cache.setRefcount holds (((s.cache.stripeOf key).nodes i).refcount + 1)
  rw [subscribeFound, written]
  split
  · rename_i no_rows
    obtain ⟨rc, n', c', heap', copied, copy, valid', node', refreshed'⟩ :=
      gatewayCacheRefreshArtifacts_spec valid₁ holds₁ s.heap supply
    rw [copied]
    rw [at_i₁, clock₁] at copy
    refine ⟨_, rfl, ⟨valid', valid.sub⟩, .counted held (.inr ⟨no_rows, rc, copy⟩) ?_,
      refreshed'.trans refreshed₁⟩
    exact node'.trans (by rw [node₁, update_idem])
  · exact ⟨_, rfl, ⟨valid₁, valid.sub⟩, .counted held (.inl ⟨rfl, clock₁⟩) node₁, refreshed₁⟩

theorem kithGatewaySubscribe_spec (valid : s.Valid) (supply : Supply) (key : CellKey) :
    ∃ rc s', kithGatewaySubscribe s supply key = (rc, s') ∧ s'.Valid ∧
      Subscribes s.cache s.sub key rc s'.cache s'.sub ∧
      s'.cache.lastRefreshMs = s.cache.lastRefreshMs := by
  rw [kithGatewaySubscribe]
  cases found : gatewayCacheFind s.cache key with
  | some i =>
    obtain ⟨s', counted, valid', subscribes, refreshed⟩ := subscribeFound_spec valid supply found
    exact ⟨.ok, s', by rw [← counted], valid', subscribes, refreshed⟩
  | none =>
    have absent := node_of_find_none found
    rcases gatewayCacheCreate_spec valid.cache absent with full | ⟨i, c, made, created⟩
    · rw [full]
      exact ⟨_, _, rfl, valid, .refused absent rfl (.inl rfl), rfl⟩
    · obtain ⟨valid₁, holds₁, at_i₁, node₁, clock₁, refreshed₁⟩ := created
      obtain ⟨c₂, written, valid₂, node₂, holds₂, at_i₂, clock₂, refreshed₂⟩ :=
        valid₁.setRefcount holds₁ 1
      rw [at_i₁] at node₂ at_i₂
      obtain ⟨rc, sub', added, sub_valid, _, outcome⟩ :=
        kithFabricSubscriptionAdd_spec valid.sub key
      rw [made]
      show ∃ rc s', subscribeCreated s supply key i c = (rc, s') ∧ _
      rw [subscribeCreated, written, added]
      rcases outcome with ⟨rfl, _⟩ | ⟨rfl, rfl⟩
      · obtain ⟨rc, n', c', heap', copied, copy, valid₃, node₃, refreshed₃⟩ :=
          gatewayCacheRefreshArtifacts_spec valid₂ holds₂ s.heap supply
        rw [at_i₂, clock₂, clock₁] at copy
        refine ⟨.ok, ⟨c', sub', heap'⟩, by rw [copied], ⟨valid₃, sub_valid⟩,
          .created absent copy ?_ added, refreshed₃.trans (refreshed₂.trans refreshed₁)⟩
        exact node₃.trans (by rw [node₂, node₁, update_idem, update_idem])
      · obtain ⟨valid₃, node₃⟩ := gatewayCacheEvict_spec valid₂ holds₂
        refine ⟨_, _, rfl, ⟨valid₃, sub_valid⟩, .refused absent ?_ (.inr (clock₂.trans clock₁)),
          refreshed₂.trans refreshed₁⟩
        refine node₃.trans ?_
        rw [node₂, node₁, update_idem, update_idem, ← absent, update_eq_self]

/-- What a release can do: nothing for a cell that is not cached, one reference less, or
the eviction of the node and the removal of the cell from the interest set. -/
inductive Releases (c : GatewayCache) (sub : Subscription) (key : CellKey) :
    GatewayCache → Subscription → Prop
  | absent (absent : c.node key = none) : Releases c sub key c sub
  | dropped {c' : GatewayCache} {n : CacheNode} (held : c.node key = some n)
      (more : 1 < n.refcount.toNat)
      (node : c'.node = update c.node key (some (n.withRefcount (n.refcount - 1)))) :
    Releases c sub key c' sub
  | evicted {c' : GatewayCache} {sub' : Subscription} {n : CacheNode} (held : c.node key = some n)
      (last : n.refcount.toNat ≤ 1) (node : c'.node = update c.node key none)
      (removed : kithFabricSubscriptionRemove sub key = (.ok, sub')) : Releases c sub key c' sub'

theorem toNat_pred {r : UInt32} (positive : 0 < r) : (r - 1).toNat = r.toNat - 1 := by
  have one : (1 : UInt32) ≤ r := UInt32.le_iff_toNat_le.mpr (UInt32.lt_iff_toNat_lt.mp positive)
  rw [UInt32.toNat_sub_of_le _ _ one]
  rfl

theorem kithGatewayUnsubscribe_spec (valid : s.Valid) (key : CellKey) :
    ∃ s', kithGatewayUnsubscribe s key = s' ∧ s'.Valid ∧
      Releases s.cache s.sub key s'.cache s'.sub := by
  rw [kithGatewayUnsubscribe]
  cases found : gatewayCacheFind s.cache key with
  | none => exact ⟨_, rfl, valid, .absent (node_of_find_none found)⟩
  | some i =>
    obtain ⟨holds, held⟩ := valid.cache.find found
    dsimp only
    generalize at_i : (s.cache.stripeOf key).nodes i = n at *
    -- The count after the decrement; a count of zero stays.
    obtain ⟨left, counted, exact_left⟩ : ∃ left : UInt32,
        (if n.refcount > 0 then n.withRefcount (n.refcount - 1) else n) = n.withRefcount left ∧
        left.toNat = n.refcount.toNat - 1 := by
      by_cases positive : n.refcount > 0
      · exact ⟨n.refcount - 1, by rw [if_pos positive], toNat_pred positive⟩
      · refine ⟨n.refcount, by rw [if_neg positive]; rfl, ?_⟩
        have none_left : ¬ 0 < n.refcount.toNat := positive
        omega
    rw [counted]
    obtain ⟨c₁, written, valid₁, node₁, holds₁, _⟩ := valid.cache.setRefcount holds left
    rw [at_i] at written node₁
    rw [written]
    split
    · rename_i more
      have positive : 0 < left.toNat := more
      have same : left = n.refcount - 1 := by
        apply UInt32.toNat_inj.mp
        rw [exact_left, toNat_pred (UInt32.lt_iff_toNat_lt.mpr (by rw [UInt32.toNat_zero]; omega))]
      refine ⟨_, rfl, ⟨valid₁, valid.sub⟩, .dropped held (by omega) ?_⟩
      rw [← same]
      exact node₁
    · rename_i last
      have zero : ¬ 0 < left.toNat := last
      obtain ⟨sub', removed, sub_valid, _, _⟩ := kithFabricSubscriptionRemove_spec valid.sub key
      obtain ⟨valid₂, node₂⟩ := gatewayCacheEvict_spec valid₁ holds₁
      rw [removed]
      refine ⟨_, rfl, ⟨valid₂, sub_valid⟩, .evicted held (by omega) ?_ removed⟩
      exact node₂.trans (by rw [node₁, update_idem])

end CallSpec

end Kith.Gateway
