import Kith.Base
import Kith.Lib.BackShift
import Kith.Lib.Runs

/-!
# The session table of the gateway

An open-addressed table of session pointers keyed by connection. There is no
growth: the bucket count is fixed at creation and the session limit may equal
it, so a table can be completely full. A removal shifts entries back instead of
leaving a tombstone. The three calls run on the thread that owns the gateway.
-/

namespace Kith.Gateway

open BackShift Runs List
open LinearProbe (bucket)

/-- A `kith_gateway_session` as the table sees it: `handle` stands for its address.
`kith_gateway_session_create` refuses a null connection. -/
structure SessionRef where
  handle : Nat
  conn : UInt64
  bound : conn ≠ 0
  deriving DecidableEq

structure GatewaySessionTable where
  slots : Nat → Option SessionRef
  buckets : Nat
  count : Nat
  maxSessions : Nat

inductive SessionTableSite where
  | slots
  deriving DecidableEq

def gatewaySessionNextPow2 (v : UInt32) : Option UInt32 := nextPow2Loop v 33 1

/-- `none` is a doubling loop that does not end. -/
def gatewaySessionTableInit (maxSessions : UInt64) (heap : Heap SessionTableSite) :
    Option (Except KithError GatewaySessionTable × Heap SessionTableSite) :=
  match gatewaySessionNextPow2 maxSessions.toUInt32 with
  | none => none
  | some r =>
    let buckets := if r.toNat < 16 then 16 else r.toNat
    match heap.requestZeroed .slots buckets 8 with
    | (false, heap) => some (.error .enomem, heap)
    | (true, heap) => some (.ok ⟨fun _ => none, buckets, 0, maxSessions.toNat⟩, heap)

variable (conn : UInt64)

def gatewayConnMix : UInt64 :=
  let k := conn ^^^ (conn >>> 33)
  let k := k * 0xff51afd7ed558ccd
  k ^^^ (k >>> 33)

def connHash : Nat := (gatewayConnMix conn).toNat

/-- The `size_t` difference, masked. -/
def gatewaySessionDist (n i j : Nat) : Nat := (i + (2 ^ 64 - j)) % 2 ^ 64 &&& (n - 1)

variable (t : GatewaySessionTable) (conn : UInt64)

/-- The probe loop the three calls share. -/
def GatewaySessionTable.probe : Probe :=
  BackShift.probe SessionRef.conn t.buckets t.slots (connHash conn) conn

def gatewaySessionLookupByConn : Option SessionRef :=
  if conn = 0 then none
  else
    match t.probe conn with
    | .hit i => t.slots i
    | .vacant _ => none
    | .exhausted => none

def gatewaySessionInsert (s : SessionRef) : Rc × GatewaySessionTable :=
  if t.maxSessions ≤ t.count then (.err .ebusy, t)
  else
    match t.probe s.conn with
    | .vacant i =>
      (.ok, { t with slots := Function.update t.slots i (some s), count := t.count + 1 })
    | .hit _ => (.err .eexist, t)
    | .exhausted => (.err .ebusy, t)

def gatewaySessionRemove : GatewaySessionTable :=
  match t.probe conn with
  | .hit hole =>
    { t with
      slots :=
        vacate t.buckets (gatewaySessionDist t.buckets) (fun s => connHash s.conn) t.slots hole
      count := if 0 < t.count then t.count - 1 else t.count }
  | .vacant _ => t
  | .exhausted => t

section Refinement

/-- The table represents the sessions present, listed in the order they came. -/
structure Represents (t : GatewaySessionTable) (present : List SessionRef) : Prop where
  table : ∃ b ≤ 64, t.buckets = 2 ^ b ∧ Chained SessionRef.conn connHash b t.slots
  stored : (contents t.buckets t.slots).Perm present
  unique : (present.map SessionRef.conn).Nodup
  counted : t.count = present.length

variable {t : GatewaySessionTable} {present : List SessionRef} {s r : SessionRef} {conn : UInt64}

theorem gatewaySessionDist_back {b : Nat} (hb : b ≤ 64) :
    Back (2 ^ b) (gatewaySessionDist (2 ^ b)) := by
  intro i hi j hj
  obtain ⟨c, hc⟩ := Nat.pow_dvd_pow 2 hb
  rw [gatewaySessionDist, Nat.and_two_pow_sub_one_eq_mod,
    Nat.mod_mod_of_dvd _ (Nat.pow_dvd_pow 2 hb)]
  have hpos : 0 < c := by
    by_contra hzero
    have : c = 0 := by omega
    rw [this] at hc
    omega
  obtain ⟨d, rfl⟩ := Nat.exists_eq_add_of_lt hpos
  have hsplit : i + (2 ^ 64 - j) = i + (2 ^ b - j) + 2 ^ b * d := by
    rw [hc, Nat.zero_add, Nat.mul_add, Nat.mul_one]
    omega
  rw [hsplit, Nat.add_mul_mod_self_left]

theorem gatewaySessionTableInit_represents {maxSessions : UInt64}
    {heap heap' : Heap SessionTableSite}
    (created : gatewaySessionTableInit maxSessions heap = some (.ok t, heap')) :
    Represents t [] := by
  rw [gatewaySessionTableInit] at created
  split at created
  · cases created
  · rename_i r found
    obtain ⟨k, hlt, hk⟩ := nextPow2Loop_pow found
    have hsize : ∃ b ≤ 64, (if r.toNat < 16 then 16 else r.toNat) = 2 ^ b := by
      split
      · exact ⟨4, by omega, rfl⟩
      · exact ⟨k, by omega, hk⟩
    simp only at created
    split at created
    · cases created
    · cases created
      obtain ⟨b, hb64, hb⟩ := hsize
      refine ⟨⟨b, hb64, hb, chained_empty _ _⟩, ?_, nodup_nil, rfl⟩
      simp [contents]

section

variable (rep : Represents t present)
include rep

theorem Represents.stored_at {i : Nat} (hi : i < t.buckets) (hocc : t.slots i = some s) :
    s ∈ present :=
  rep.stored.mem_iff.mp (mem_contents.mpr ⟨i, hi, hocc⟩)

theorem Represents.finds (conn : UInt64) :
    Finds SessionRef.conn t.buckets t.slots (connHash conn) conn (t.probe conn) := by
  obtain ⟨b, _, hb, chained⟩ := rep.table
  rw [GatewaySessionTable.probe, hb]
  exact chained.finds conn

theorem Represents.absent (none_has : ∀ i < t.buckets, ∀ s, t.slots i = some s → s.conn ≠ conn) :
    ∀ s ∈ present, s.conn ≠ conn := by
  intro s hs
  obtain ⟨i, hi, hocc⟩ := mem_contents.mp (rep.stored.mem_iff.mpr hs)
  exact none_has i hi s hocc

theorem Represents.lookup_iff :
    gatewaySessionLookupByConn t conn = some s ↔ s ∈ present ∧ s.conn = conn := by
  rw [gatewaySessionLookupByConn]
  split
  · rename_i hnull
    constructor
    · intro h
      cases h
    · rintro ⟨_, hconn⟩
      exact absurd (hconn.trans hnull) s.bound
  · have finds := rep.finds conn
    generalize t.probe conn = ended at finds
    cases finds with
    | @hit i r hi hocc hconn =>
      have hr := rep.stored_at hi hocc
      dsimp only
      rw [hocc, Option.some.injEq]
      constructor
      · rintro rfl
        exact ⟨hr, hconn⟩
      · rintro ⟨hs, hsconn⟩
        exact inj_on_of_nodup_map rep.unique hr hs (hconn.trans hsconn.symm)
    | vacant _ _ _ none_has | exhausted _ none_has =>
      constructor
      · intro h
        cases h
      · rintro ⟨hs, hconn⟩
        exact absurd hconn (rep.absent none_has s hs)

end

/-- What the table is for: the list of the sessions present, limited to `limit`
sessions and to `room` slots. -/
structure Limits where
  limit : Nat
  room : Nat

def GatewaySessionTable.limits (t : GatewaySessionTable) : Limits := ⟨t.maxSessions, t.buckets⟩

def admitSession (l : Limits) (present : List SessionRef) (s : SessionRef) : Rc × List SessionRef :=
  if l.limit ≤ present.length then (.err .ebusy, present)
  else if s.conn ∈ present.map SessionRef.conn then (.err .eexist, present)
  else if l.room ≤ present.length then (.err .ebusy, present)
  else (.ok, present ++ [s])

def dismiss (present : List SessionRef) (conn : UInt64) : List SessionRef :=
  present.filter fun s => s.conn ≠ conn

theorem dismiss_perm {rest : List SessionRef} (perm : present.Perm (r :: rest))
    (unique : (present.map SessionRef.conn).Nodup) : rest.Perm (dismiss present r.conn) := by
  have others := (perm.map SessionRef.conn).nodup_iff.mp unique
  rw [map_cons, nodup_cons] at others
  have kept : dismiss rest r.conn = rest := by
    apply filter_eq_self.mpr
    intro s hs
    rw [decide_eq_true_iff]
    exact fun same => others.1 (same ▸ mem_map_of_mem hs)
  have left : (dismiss present r.conn).Perm (dismiss (r :: rest) r.conn) := perm.filter _
  rw [dismiss, dismiss, filter_cons_of_neg (by simp), ← dismiss, ← dismiss, kept] at left
  exact left.symm

theorem gatewaySessionInsert_represents (rep : Represents t present) (s : SessionRef) :
    (gatewaySessionInsert t s).1 = (admitSession t.limits present s).1 ∧
      Represents (gatewaySessionInsert t s).2 (admitSession t.limits present s).2 ∧
      (gatewaySessionInsert t s).2.limits = t.limits := by
  rw [gatewaySessionInsert, admitSession, GatewaySessionTable.limits, rep.counted]
  split
  · exact ⟨rfl, rep, rfl⟩
  · have finds := rep.finds s.conn
    have hload := rep.stored.length_eq
    have outside : (∀ r ∈ present, r.conn ≠ s.conn) → s.conn ∉ present.map SessionRef.conn := by
      simp
    generalize t.probe s.conn = ended at finds
    cases finds with
    | @hit i r hi hocc hconn =>
      have hr := rep.stored_at hi hocc
      have hmem : s.conn ∈ present.map SessionRef.conn := mem_map.mpr ⟨r, hr, hconn⟩
      rw [if_pos hmem]
      exact ⟨rfl, rep, rfl⟩
    | exhausted full none_has =>
      have hout := outside (rep.absent none_has)
      have hfull : t.buckets ≤ present.length := by
        rw [← hload, length_contents_full full]
      rw [if_neg hout, if_pos hfull]
      exact ⟨rfl, rep, rfl⟩
    | @vacant p hp empty before none_has =>
      have hout := outside (rep.absent none_has)
      obtain ⟨b, hb64, hb, chained⟩ := rep.table
      have hslot : bucket t.buckets (connHash s.conn) p < t.buckets := by
        rw [hb]
        exact LinearProbe.bucket_lt b _ p
      have hroom : ¬ t.buckets ≤ present.length := by
        rw [← hload]
        exact Nat.not_le.mpr (length_contents_lt hslot empty)
      rw [if_neg hout, if_neg hroom]
      refine ⟨rfl, ⟨⟨b, hb64, hb, ?_⟩, ?_, ?_, ?_⟩, rfl⟩
      · rw [hb] at hp empty before ⊢
        exact chained.fill hp empty before
      · have filled := contents_fill hslot empty s
        exact filled.trans ((rep.stored.cons s).trans (perm_append_singleton s present).symm)
      · rw [map_append, nodup_append]
        refine ⟨rep.unique, nodup_singleton _, ?_⟩
        intro c hc d hd same
        rw [map_singleton, mem_singleton] at hd
        exact hout (hd ▸ same ▸ hc)
      · rw [length_append, length_singleton]

theorem gatewaySessionRemove_represents (rep : Represents t present) (conn : UInt64) :
    Represents (gatewaySessionRemove t conn) (dismiss present conn) ∧
      (gatewaySessionRemove t conn).limits = t.limits := by
  have unchanged : (∀ s ∈ present, s.conn ≠ conn) → dismiss present conn = present := by
    intro hnone
    apply filter_eq_self.mpr
    intro s hs
    simpa using hnone s hs
  have finds := rep.finds conn
  rw [gatewaySessionRemove]
  generalize t.probe conn = ended at finds
  cases finds with
  | vacant _ _ _ none_has | exhausted _ none_has =>
    rw [unchanged (rep.absent none_has)]
    exact ⟨rep, rfl⟩
  | @hit i r hi hocc hconn =>
    obtain ⟨b, hb64, hb, chained⟩ := rep.table
    have hr := rep.stored_at hi hocc
    rw [hb] at hi
    obtain ⟨chained', taken⟩ := chained.vacate (gatewaySessionDist_back hb64) hi hocc
    rw [← hb] at chained' taken
    have perm := rep.stored.symm.trans taken
    have left := dismiss_perm perm rep.unique
    refine ⟨⟨⟨b, hb64, hb, chained'⟩, ?_, ?_, ?_⟩, rfl⟩
    · exact hconn ▸ left
    · exact rep.unique.sublist (filter_sublist.map _)
    · have hlen := left.length_eq
      have hone := perm.length_eq
      rw [length_cons] at hone
      dsimp only
      rw [rep.counted, if_pos (length_pos_of_mem hr), ← hconn]
      omega

end Refinement

inductive SessionOp where
  | insert (s : SessionRef)
  | remove (conn : UInt64)
  deriving DecidableEq

/-- A removal has no result. -/
def sessionStep : SessionOp → Option (Rc × GatewaySessionTable)
  | .insert s => some (gatewaySessionInsert t s)
  | .remove conn => some (.ok, gatewaySessionRemove t conn)

def presentStep (l : Limits) (present : List SessionRef) : SessionOp → Rc × List SessionRef
  | .insert s => admitSession l present s
  | .remove conn => (.ok, dismiss present conn)

theorem sessionStep_refines (l : Limits) (t : GatewaySessionTable) (present : List SessionRef)
    (op : SessionOp) (rep : Represents t present ∧ t.limits = l) (_ : True) :
    ∃ r t' present', sessionStep t op = some (r, t') ∧ presentStep l present op = (r, present') ∧
      Represents t' present' ∧ t'.limits = l := by
  obtain ⟨rep, rfl⟩ := rep
  cases op with
  | insert s =>
    obtain ⟨reply, rep', limits⟩ := gatewaySessionInsert_represents rep s
    exact ⟨_, _, _, rfl, Prod.ext reply.symm rfl, rep', limits⟩
  | remove conn =>
    obtain ⟨rep', limits⟩ := gatewaySessionRemove_represents rep conn
    exact ⟨_, _, _, rfl, rfl, rep', limits⟩

/-- After any sequence of insertions and removals on a new table, answered as the
list of the sessions present answers them, a lookup finds a session exactly when it
is present, and the count is the number of those present. -/
theorem session_table_refines_present {maxSessions : UInt64} {heap heap' : Heap SessionTableSite}
    {t : GatewaySessionTable}
    (created : gatewaySessionTableInit maxSessions heap = some (.ok t, heap'))
    (ops : List SessionOp) :
    ∃ replies t' present, run sessionStep t ops = some (replies, t') ∧
      Trace (fun p op r p' => presentStep t.limits p op = (r, p')) [] ops replies present ∧
      (∀ conn s, gatewaySessionLookupByConn t' conn = some s ↔ s ∈ present ∧ s.conn = conn) ∧
      t'.count = present.length ∧ (present.map SessionRef.conn).Nodup := by
  have start := gatewaySessionTableInit_represents created
  obtain ⟨replies, t', present, ran, trace, rep, _⟩ :=
    run_simulates (sessionStep_refines t.limits) (a := []) ⟨start, rfl⟩ ops
      (along_of_forall (fun _ _ => trivial) _ _)
  exact ⟨replies, t', present, ran, trace, fun conn s => rep.lookup_iff, rep.counted, rep.unique⟩

/-- Sessions of sixteen connections fill a table of sixteen slots, and one of them leaves. -/
def crowdedOps : List SessionOp :=
  (List.finRange 16).map (fun i => .insert ⟨i, .ofNat (i + 1), by decide +revert⟩) ++ [.remove 7]

theorem session_table_refines_present_crowded :
    ∃ replies t' present,
      run sessionStep ⟨fun _ => none, 16, 0, 16⟩ crowdedOps = some (replies, t') ∧
      Trace (fun p op r p' => presentStep ⟨16, 16⟩ p op = (r, p')) [] crowdedOps replies present ∧
      (∀ conn s, gatewaySessionLookupByConn t' conn = some s ↔ s ∈ present ∧ s.conn = conn) ∧
      t'.count = present.length ∧ (present.map SessionRef.conn).Nodup :=
  @session_table_refines_present 16 ⟨fun _ _ => true, 0⟩ _ _ rfl crowdedOps

end Kith.Gateway
