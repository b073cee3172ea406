import Mathlib.Algebra.BigOperators.Group.Finset.Piecewise
import Mathlib.Data.Finset.Card
import Mathlib.Data.Finset.Image
import Mathlib.Data.Nat.ModEq
import Mathlib.Logic.Function.Basic

/-!
# Linear probing with tombstones

A table is a bucket count and a bucket array. A bucket is never used, live, or
a tombstone: used and vacated. A probe starts at the home bucket of the key,
advances one bucket at a time and stops only at a never-used bucket, so the
search invariant is that every bucket between the home of a live key and the
bucket that holds it has been used. No write below moves a live bucket.
-/

namespace LinearProbe

open Function List

universe u v

/-- The observations of a bucket the probes make. -/
structure Layout (N : Type u) (K : Type v) where
  used : N → Bool
  deleted : N → Bool
  key : N → K

variable {N : Type u} {K : Type v} (L : Layout N K)

def Layout.live (c : N) : Bool := L.used c && !L.deleted c

/-- The bucket of probe `p`, with the mask of a power-of-two bucket count. -/
def bucket (n h p : Nat) : Nat := ((h &&& (n - 1)) + p) &&& (n - 1)

def lookupFrom [DecidableEq K] (n : Nat) (cells : Nat → N) (h : Nat) (k : K) : List Nat → Option Nat
  | [] => none
  | p :: ps =>
    let i := bucket n h p
    if L.used (cells i) = false then none
    else if L.deleted (cells i) = true then lookupFrom n cells h k ps
    else if L.key (cells i) = k then some i
    else lookupFrom n cells h k ps

/-- The bucket holding `k`, found by probing from the hash `h`. -/
def lookup [DecidableEq K] (n : Nat) (cells : Nat → N) (h : Nat) (k : K) : Option Nat :=
  lookupFrom L n cells h k (List.range n)

/-- Where an insert goes: the first tombstone passed if there is one, else the
never-used bucket that ended the probe; a probe that meets no never-used bucket
reports the first tombstone it passed. -/
inductive Placement where
  | fresh (index : Nat) (reused : Bool)
  | full (tomb : Option Nat)
  deriving DecidableEq

def placeFrom (n : Nat) (cells : Nat → N) (h : Nat) : Option Nat → List Nat → Placement
  | tomb, [] => .full tomb
  | tomb, p :: ps =>
    let i := bucket n h p
    if L.used (cells i) = false then .fresh (tomb.getD i) tomb.isSome
    else if L.deleted (cells i) = true then placeFrom n cells h (some (tomb.getD i)) ps
    else placeFrom n cells h tomb ps

def place (n : Nat) (cells : Nat → N) (h : Nat) : Placement :=
  placeFrom L n cells h none (List.range n)

section Buckets

theorem bucket_eq_mod (b h p : Nat) : bucket (2 ^ b) h p = (h + p) % 2 ^ b := by
  simp [bucket]

theorem bucket_lt (b h p : Nat) : bucket (2 ^ b) h p < 2 ^ b := by
  rw [bucket_eq_mod]
  exact Nat.mod_lt _ (Nat.two_pow_pos b)

theorem bucket_inj {b h p q : Nat} (hp : p < 2 ^ b) (hq : q < 2 ^ b)
    (same : bucket (2 ^ b) h p = bucket (2 ^ b) h q) : p = q := by
  rw [bucket_eq_mod, bucket_eq_mod] at same
  have hmod : p % 2 ^ b = q % 2 ^ b := Nat.ModEq.add_left_cancel' h same
  rwa [Nat.mod_eq_of_lt hp, Nat.mod_eq_of_lt hq] at hmod

theorem bucket_surj {b h i : Nat} (hi : i < 2 ^ b) : ∃ p < 2 ^ b, bucket (2 ^ b) h p = i := by
  have hh := Nat.mod_add_div h (2 ^ b)
  refine ⟨(i + (2 ^ b - h % 2 ^ b)) % 2 ^ b, Nat.mod_lt _ (Nat.two_pow_pos b), ?_⟩
  rw [bucket_eq_mod, Nat.add_mod_mod]
  have he : h + (i + (2 ^ b - h % 2 ^ b)) = i + 2 ^ b * (h / 2 ^ b + 1) := by
    rw [Nat.mul_add, Nat.mul_one]
    omega
  rw [he, Nat.add_mul_mod_self_left, Nat.mod_eq_of_lt hi]

end Buckets

/-- Bucket `i` of the table holds the live key `k`. -/
def Holds (n : Nat) (cells : Nat → N) (k : K) (i : Nat) : Prop :=
  i < n ∧ L.live (cells i) = true ∧ L.key (cells i) = k

/-- The search invariant. `reach` is the probe chain of each live bucket. -/
structure Chained (n : Nat) (cells : Nat → N) (home : K → Nat) : Prop where
  distinct : ∀ k i j, Holds L n cells k i → Holds L n cells k j → i = j
  reach : ∀ k i, Holds L n cells k i → ∃ p < n, bucket n (home k) p = i ∧
    ∀ q < p, L.used (cells (bucket n (home k) q)) = true

variable {L} {n : Nat} {cells : Nat → N} {home : K → Nat}

theorem live_iff (c : N) : L.live c = true ↔ L.used c = true ∧ L.deleted c = false := by
  simp [Layout.live]

section Searching

variable [DecidableEq K] {h b : Nat} {k : K}

theorem lookupFrom_sound {ps : List Nat} {i : Nat} (found : lookupFrom L n cells h k ps = some i) :
    (∃ p ∈ ps, bucket n h p = i) ∧ L.live (cells i) = true ∧ L.key (cells i) = k := by
  induction ps with
  | nil => cases found
  | cons p ps ih =>
    simp only [lookupFrom] at found
    split at found
    · cases found
    · rename_i hused
      split at found
      · obtain ⟨⟨q, hq, he⟩, hrest⟩ := ih found
        exact ⟨⟨q, mem_cons_of_mem p hq, he⟩, hrest⟩
      · rename_i hdel
        split at found
        · rename_i hkey
          obtain rfl := Option.some.inj found
          refine ⟨⟨p, mem_cons_self, rfl⟩, ?_, hkey⟩
          exact (live_iff _).mpr ⟨by simpa using hused, by simpa using hdel⟩
        · obtain ⟨⟨q, hq, he⟩, hrest⟩ := ih found
          exact ⟨⟨q, mem_cons_of_mem p hq, he⟩, hrest⟩

theorem lookupFrom_skip {pre rest : List Nat}
    (passed : ∀ q ∈ pre, L.used (cells (bucket n h q)) = true ∧
      ¬ (L.live (cells (bucket n h q)) = true ∧ L.key (cells (bucket n h q)) = k)) :
    lookupFrom L n cells h k (pre ++ rest) = lookupFrom L n cells h k rest := by
  induction pre with
  | nil => rfl
  | cons q pre ih =>
    obtain ⟨hused, hmiss⟩ := passed q mem_cons_self
    have tail := ih (fun r hr => passed r (mem_cons_of_mem q hr))
    simp only [cons_append, lookupFrom, hused, Bool.true_eq_false, if_false]
    split
    · exact tail
    · rename_i hdel
      split
      · rename_i hkey
        exact absurd ⟨(live_iff _).mpr ⟨hused, by simpa using hdel⟩, hkey⟩ hmiss
      · exact tail

/-- Under the search invariant the probe finds exactly the live bucket of the key. -/
theorem lookup_eq_some_iff (hn : n = 2 ^ b) (chained : Chained L n cells home) (k : K) (i : Nat) :
    lookup L n cells (home k) k = some i ↔ Holds L n cells k i := by
  constructor
  · intro found
    obtain ⟨⟨p, _, he⟩, hlive, hkey⟩ := lookupFrom_sound found
    refine ⟨?_, hlive, hkey⟩
    rw [← he, hn]
    exact bucket_lt b _ _
  · intro holds
    obtain ⟨p, hp, he, hused⟩ := chained.reach k i holds
    have hsplit : range n = range p ++ p :: (range (n - p - 1)).map (· + (p + 1)) := by
      have hlen : n = p + ((n - p - 1) + 1) := by omega
      conv_lhs => rw [hlen, range_add, range_succ_eq_map]
      simp only [map_cons, Nat.add_zero, map_map, append_cancel_left_eq, cons.injEq, true_and]
      apply map_congr_left
      intro a _
      simp only [comp]
      omega
    rw [lookup, hsplit, lookupFrom_skip]
    · have hlive := (live_iff _).mp holds.2.1
      simp [lookupFrom, he, hlive.1, hlive.2, holds.2.2]
    · intro q hq
      have hqp := mem_range.mp hq
      refine ⟨hused q hqp, ?_⟩
      rintro ⟨hlive, hkey⟩
      have hb : bucket n (home k) q < n := by rw [hn]; exact bucket_lt b _ _
      have same := chained.distinct k _ _ ⟨hb, hlive, hkey⟩ holds
      have : q = p := by
        subst hn
        exact bucket_inj (by omega) hp (same.trans he.symm)
      omega

theorem lookup_eq_none_iff (hn : n = 2 ^ b) (chained : Chained L n cells home) (k : K) :
    lookup L n cells (home k) k = none ↔ ∀ i, ¬ Holds L n cells k i := by
  rw [Option.eq_none_iff_forall_ne_some]
  exact forall_congr' fun i => not_congr (lookup_eq_some_iff hn chained k i)

end Searching

section Placing

variable (L n cells) {h s i b : Nat} {tomb : Option Nat}

/-- What the insert probe knows after `s` buckets: all of them are used, and
`tomb` is a tombstone among them, or there is none. -/
def Passed (h s : Nat) (tomb : Option Nat) : Prop :=
  (∀ q < s, L.used (cells (bucket n h q)) = true) ∧
  match tomb with
  | none => ∀ q < s, L.deleted (cells (bucket n h q)) = false
  | some i => ∃ p < s, bucket n h p = i ∧ L.deleted (cells i) = true

/-- The bucket an insert may take: dead, and on the used part of the chain. -/
def Open (h i : Nat) : Prop :=
  L.live (cells i) = false ∧
  ∃ p < n, bucket n h p = i ∧ ∀ q < p, L.used (cells (bucket n h q)) = true

variable {L n cells}

theorem passed_live (passed : Passed L n cells h s tomb)
    (hused : L.used (cells (bucket n h s)) = true)
    (hdel : L.deleted (cells (bucket n h s)) = false) :
    Passed L n cells h (s + 1) tomb := by
  refine ⟨Nat.forall_lt_succ_right.mpr ⟨passed.1, hused⟩, ?_⟩
  cases tomb with
  | none => exact Nat.forall_lt_succ_right.mpr ⟨passed.2, hdel⟩
  | some i =>
    obtain ⟨p, hp, he, hd⟩ := passed.2
    exact ⟨p, by omega, he, hd⟩

theorem passed_tomb (passed : Passed L n cells h s tomb)
    (hused : L.used (cells (bucket n h s)) = true)
    (hdel : L.deleted (cells (bucket n h s)) = true) :
    Passed L n cells h (s + 1) (some (tomb.getD (bucket n h s))) := by
  refine ⟨Nat.forall_lt_succ_right.mpr ⟨passed.1, hused⟩, ?_⟩
  cases tomb with
  | none => exact ⟨s, by omega, rfl, hdel⟩
  | some i =>
    obtain ⟨p, hp, he, hd⟩ := passed.2
    exact ⟨p, by omega, he, hd⟩

theorem placeFrom_spec (h m s : Nat) (tomb : Option Nat) (hs : s + m ≤ n)
    (passed : Passed L n cells h s tomb) :
    match placeFrom L n cells h tomb (range' s m) with
    | .fresh i reused => (Open L n cells h i ∧ reused = L.used (cells i)) ∧
      ∃ q, L.used (cells (bucket n h q)) = false
    | .full last => Passed L n cells h (s + m) last := by
  induction m generalizing s tomb with
  | zero => exact passed
  | succ m ih =>
    rw [range'_succ, placeFrom]
    cases hused : L.used (cells (bucket n h s)) with
    | false =>
      cases tomb with
      | none =>
        refine ⟨⟨⟨?_, s, by omega, rfl, passed.1⟩, hused.symm⟩, s, hused⟩
        simp [Layout.live, hused]
      | some i =>
        obtain ⟨p, hp, he, hd⟩ := passed.2
        refine ⟨⟨⟨?_, p, by omega, he, fun q hq => passed.1 q (by omega)⟩, ?_⟩, s, hused⟩
        · simp [Layout.live, hd]
        · simpa [he] using (passed.1 p hp).symm
    | true =>
      simp only [Bool.true_eq_false, if_false]
      cases hdel : L.deleted (cells (bucket n h s)) with
      | true =>
        have next := ih (s + 1) _ (by omega) (passed_tomb passed hused hdel)
        simpa only [if_true, Nat.add_right_comm s 1 m, Nat.add_assoc] using next
      | false =>
        have next := ih (s + 1) tomb (by omega) (passed_live passed hused hdel)
        simpa only [Bool.false_eq_true, if_false, Nat.add_right_comm s 1 m,
          Nat.add_assoc] using next

variable (L n cells) in
theorem place_spec (h : Nat) :
    match place L n cells h with
    | .fresh i reused => (Open L n cells h i ∧ reused = L.used (cells i)) ∧
      ∃ q, L.used (cells (bucket n h q)) = false
    | .full last => Passed L n cells h n last := by
  have start : Passed L n cells h 0 none := ⟨by omega, by intro q hq; omega⟩
  have spec := placeFrom_spec h n 0 none (by omega) start
  rw [Nat.zero_add] at spec
  rwa [place, List.range_eq_range']

theorem place_fresh {reused : Bool} (hp : place L n cells h = .fresh i reused) :
    Open L n cells h i ∧ reused = L.used (cells i) := by
  have spec := place_spec L n cells h
  rw [hp] at spec
  exact spec.1

theorem open_lt (hn : n = 2 ^ b) (ho : Open L n cells h i) : i < n := by
  obtain ⟨_, p, _, he, _⟩ := ho
  rw [← he, hn]
  exact bucket_lt b h p

/-- The insert probe fails to find a never-used bucket only when there is none. -/
theorem place_full_iff (hn : n = 2 ^ b) :
    (∃ tomb, place L n cells h = .full tomb) ↔ ∀ i < n, L.used (cells i) = true := by
  have spec := place_spec L n cells h
  constructor
  · rintro ⟨tomb, hp⟩ i hi
    rw [hp] at spec
    subst hn
    obtain ⟨p, hp', rfl⟩ := bucket_surj (h := h) hi
    exact spec.1 p hp'
  · intro all
    cases hp : place L n cells h with
    | full tomb => exact ⟨tomb, rfl⟩
    | fresh i reused =>
      rw [hp] at spec
      obtain ⟨_, q, unused⟩ := spec
      rw [all _ (by rw [hn]; exact bucket_lt b h q)] at unused
      cases unused

theorem place_full_tomb (hn : n = 2 ^ b) (hp : place L n cells h = .full tomb) :
    (tomb = none ↔ ∀ i < n, L.deleted (cells i) = false) ∧
    ∀ i, tomb = some i → i < n ∧ L.used (cells i) = true ∧ L.deleted (cells i) = true := by
  have spec := place_spec L n cells h
  rw [hp] at spec
  subst hn
  cases tomb with
  | none =>
    refine ⟨⟨fun _ i hi => ?_, fun _ => rfl⟩, by intro i hi; cases hi⟩
    obtain ⟨p, hp', rfl⟩ := bucket_surj (h := h) hi
    exact spec.2 p hp'
  | some j =>
    obtain ⟨p, hp', he, hd⟩ := spec.2
    have hj : j < 2 ^ b := by rw [← he]; exact bucket_lt b h p
    refine ⟨⟨(fun hx => nomatch hx), fun all => ?_⟩, ?_⟩
    · rw [all j hj] at hd; cases hd
    · rintro i ⟨⟩
      exact ⟨hj, he ▸ spec.1 p hp', hd⟩

theorem place_full_open (hp : place L n cells h = .full (some i)) : Open L n cells h i := by
  have spec := place_spec L n cells h
  rw [hp] at spec
  obtain ⟨used, p, inside, here, dead⟩ := spec
  refine ⟨?_, p, inside, here, fun q hq => used q (by omega)⟩
  simp [Layout.live, dead]

end Placing

section Updating

variable {i j : Nat} {c : N}

theorem holds_update {k : K} :
    Holds L n (update cells i c) k j ↔
      (j = i ∧ i < n ∧ L.live c = true ∧ L.key c = k) ∨ (j ≠ i ∧ Holds L n cells k j) := by
  by_cases h : j = i
  · subst h
    simp [Holds]
  · simp [Holds, h]

theorem used_update (hc : L.used c = true) (hj : L.used (cells j) = true) :
    L.used (update cells i c j) = true := by
  by_cases h : j = i
  · subst h; simpa using hc
  · simpa [h] using hj

section

variable (chained : Chained L n cells home) {k : K}
include chained

/-- Every write the operations make keeps the bucket used. A live bucket is
written only where its key already is, or where the insert probe puts it. -/
theorem Chained.update (i : Nat) (c : N) (hused : L.used c = true)
    (fits : L.live c = true → (∀ j, Holds L n cells (L.key c) j → j = i) ∧
      (i < n → ∃ p < n, bucket n (home (L.key c)) p = i ∧
        ∀ q < p, L.used (cells (bucket n (home (L.key c)) q)) = true)) :
    Chained L n (update cells i c) home := by
  constructor
  · intro k j₁ j₂ h₁ h₂
    rcases holds_update.mp h₁ with ⟨rfl, _, hl, hk⟩ | ⟨_, old₁⟩
    · rcases holds_update.mp h₂ with ⟨rfl, _⟩ | ⟨_, old₂⟩
      · rfl
      · exact ((fits hl).1 j₂ (hk ▸ old₂)).symm
    · rcases holds_update.mp h₂ with ⟨rfl, _, hl, hk⟩ | ⟨_, old₂⟩
      · exact (fits hl).1 j₁ (hk ▸ old₁)
      · exact chained.distinct k j₁ j₂ old₁ old₂
  · intro k j hj
    rcases holds_update.mp hj with ⟨rfl, hi, hl, hk⟩ | ⟨_, hj⟩
    · obtain ⟨p, hp, he, hq⟩ := (fits hl).2 hi
      subst hk
      exact ⟨p, hp, he, fun q hqp => used_update hused (hq q hqp)⟩
    · obtain ⟨p, hp, he, hq⟩ := chained.reach k j hj
      exact ⟨p, hp, he, fun q hqp => used_update hused (hq q hqp)⟩

theorem Chained.congr {cells' : Nat → N} (holds : ∀ k j, Holds L n cells' k j ↔ Holds L n cells k j)
    (used : ∀ j, L.used (cells j) = true → L.used (cells' j) = true) : Chained L n cells' home := by
  constructor
  · intro k j₁ j₂ h₁ h₂
    exact chained.distinct k j₁ j₂ ((holds k j₁).mp h₁) ((holds k j₂).mp h₂)
  · intro k j hj
    obtain ⟨p, hp, he, hq⟩ := chained.reach k j ((holds k j).mp hj)
    exact ⟨p, hp, he, fun q hqp => used _ (hq q hqp)⟩

theorem Chained.store (absent : ∀ j, ¬ Holds L n cells k j) (ho : Open L n cells (home k) i)
    (hlive : L.live c = true) (hkey : L.key c = k) :
    Chained L n (Function.update cells i c) home := by
  subst hkey
  exact chained.update i c ((live_iff c).mp hlive).1
    (fun _ => ⟨fun j hj => absurd hj (absent j), fun _ => ho.2⟩)

theorem Chained.modify (holds : Holds L n cells k i) (hlive : L.live c = true)
    (hkey : L.key c = k) : Chained L n (Function.update cells i c) home := by
  subst hkey
  exact chained.update i c ((live_iff c).mp hlive).1
    (fun _ => ⟨fun j hj => chained.distinct _ j i hj holds,
      fun _ => chained.reach _ i holds⟩)

theorem Chained.bury (i : Nat) (hused : L.used c = true) (hdel : L.deleted c = true) :
    Chained L n (Function.update cells i c) home :=
  chained.update i c hused (fun hlive => by simp [Layout.live, hdel] at hlive)

end

theorem chained_empty (blank : ∀ i < n, L.used (cells i) = false) : Chained L n cells home := by
  have none_live : ∀ k i, ¬ Holds L n cells k i := by
    rintro k i ⟨hi, hlive, _⟩
    rw [live_iff, blank i hi] at hlive
    cases hlive.1
  exact ⟨fun k i j hi => absurd hi (none_live k i), fun k i hi => absurd hi (none_live k i)⟩

end Updating

section Entries

variable [DecidableEq K] {b : Nat} {k : K} {i : Nat} {c : N}

variable (L n cells home) in
/-- The table as a map: the bucket contents the probe finds for a key. -/
def entry (k : K) : Option N := (lookup L n cells (home k) k).map cells

section

variable (hn : n = 2 ^ b) (chained : Chained L n cells home)
include hn chained

theorem entry_eq_some :
    entry L n cells home k = some c ↔ ∃ i, Holds L n cells k i ∧ cells i = c := by
  simp only [entry, Option.map_eq_some_iff, lookup_eq_some_iff hn chained]

theorem entry_eq_none : entry L n cells home k = none ↔ ∀ i, ¬ Holds L n cells k i := by
  rw [entry, Option.map_eq_none_iff, lookup_eq_none_iff hn chained]

theorem entry_congr {n' b' : Nat} {cells' : Nat → N} (hn' : n' = 2 ^ b')
    (chained' : Chained L n' cells' home)
    (same : ∀ k c, (∃ i, Holds L n' cells' k i ∧ cells' i = c) ↔ ∃ i, Holds L n cells k i ∧
      cells i = c) :
    entry L n' cells' home = entry L n cells home := by
  funext k
  ext c
  rw [entry_eq_some hn' chained', entry_eq_some hn chained, same]

theorem entry_other (after : Chained L n (update cells i c) home)
    (new : ¬ (L.live c = true ∧ L.key c = k)) (old : ¬ Holds L n cells k i) :
    entry L n (update cells i c) home k = entry L n cells home k := by
  ext d
  rw [entry_eq_some hn after, entry_eq_some hn chained]
  constructor
  · rintro ⟨j, hj, rfl⟩
    rcases holds_update.mp hj with ⟨_, _, here⟩ | ⟨hne, hj⟩
    · exact absurd here new
    · exact ⟨j, hj, (update_of_ne hne ..).symm⟩
  · rintro ⟨j, hj, rfl⟩
    have hne : j ≠ i := by
      rintro rfl
      exact old hj
    exact ⟨j, holds_update.mpr (.inr ⟨hne, hj⟩), update_of_ne hne ..⟩

theorem entry_write (after : Chained L n (update cells i c) home) (hi : i < n)
    (own : ∀ k', Holds L n cells k' i → k' = k) (hlive : L.live c = true) (hkey : L.key c = k) :
    entry L n (update cells i c) home =
      update (entry L n cells home) k (some c) := by
  funext k'
  by_cases hk : k' = k
  · subst hk
    rw [update_self, entry_eq_some hn after]
    exact ⟨i, holds_update.mpr (.inl ⟨rfl, hi, hlive, hkey⟩), update_self ..⟩
  · rw [update_of_ne hk]
    exact entry_other hn chained after (fun here => hk (here.2.symm.trans hkey))
      fun here => hk (own k' here)

theorem entry_bury (holds : Holds L n cells k i) (hused : L.used c = true)
    (hdel : L.deleted c = true) :
    Chained L n (update cells i c) home ∧
    entry L n (update cells i c) home = update (entry L n cells home) k none := by
  have dead : L.live c = false := by simp [Layout.live, hdel]
  have after := chained.bury i hused hdel
  refine ⟨after, ?_⟩
  funext k'
  by_cases hk : k' = k
  · subst hk
    rw [update_self, entry_eq_none hn after]
    intro j hj
    rcases holds_update.mp hj with ⟨_, _, hlive, _⟩ | ⟨hne, hj⟩
    · rw [dead] at hlive
      cases hlive
    · exact hne (chained.distinct k' j i hj holds)
  · rw [update_of_ne hk]
    exact entry_other hn chained after (by simp [dead]) fun h => hk (h.2.2.symm.trans holds.2.2)

theorem entry_store (absent : entry L n cells home k = none) (opened : Open L n cells (home k) i)
    (hlive : L.live c = true) (hkey : L.key c = k) :
    Chained L n (update cells i c) home ∧
    entry L n (update cells i c) home =
      update (entry L n cells home) k (some c) := by
  have after := chained.store ((entry_eq_none hn chained).mp absent) opened hlive hkey
  refine ⟨after, entry_write hn chained after (open_lt hn opened) ?_ hlive hkey⟩
  intro k' hk'
  have vacant := opened.1
  rw [hk'.2.1] at vacant
  cases vacant

theorem entry_modify (holds : Holds L n cells k i) (hlive : L.live c = true) (hkey : L.key c = k) :
    Chained L n (update cells i c) home ∧
    entry L n (update cells i c) home =
      update (entry L n cells home) k (some c) := by
  have after := chained.modify holds hlive hkey
  exact ⟨after, entry_write hn chained after holds.1
    (fun k' hk' => hk'.2.2.symm.trans holds.2.2) hlive hkey⟩

end

theorem entry_empty (blank : ∀ i < n, L.used (cells i) = false) (hn : n = 2 ^ b) :
    entry L n cells home = fun _ => none := by
  funext k
  rw [entry_eq_none hn (chained_empty blank)]
  rintro i ⟨hi, hlive, _⟩
  rw [live_iff, blank i hi] at hlive
  cases hlive.1

end Entries

section Counting

variable (L n cells) {i : Nat}

def liveCount : Nat := ((Finset.range n).filter (fun i => L.live (cells i) = true)).card

def liveKeys [DecidableEq K] : Finset K :=
  ((Finset.range n).filter (fun i => L.live (cells i) = true)).image (fun i => L.key (cells i))

variable {L n cells}

theorem mem_liveKeys [DecidableEq K] {k : K} :
    k ∈ liveKeys L n cells ↔ ∃ i, Holds L n cells k i := by
  simp only [liveKeys, Finset.mem_image, Finset.mem_filter, Finset.mem_range, Holds]
  exact exists_congr fun i => and_assoc

theorem card_liveKeys [DecidableEq K] (chained : Chained L n cells home) :
    (liveKeys L n cells).card = liveCount L n cells := by
  apply Finset.card_image_of_injOn
  intro i hi j hj same
  simp only [Finset.coe_filter, Finset.mem_range, Set.mem_ofPred_eq] at hi hj
  exact chained.distinct _ i j ⟨hi.1, hi.2, rfl⟩ ⟨hj.1, hj.2, same.symm⟩

def bucketCount (p : N → Bool) (n : Nat) (cells : Nat → N) : Nat :=
  ((Finset.range n).filter (fun i => p (cells i) = true)).card

theorem bucketCount_update (p : N → Bool) (cells : Nat → N) (hi : i < n) (c : N) :
    bucketCount p n (update cells i c) + (p (cells i)).toNat =
      bucketCount p n cells + (p c).toNat := by
  have others : ((Finset.range n).filter
      (fun j => p (update cells i c j) = true)).erase i =
      ((Finset.range n).filter (fun j => p (cells j) = true)).erase i := by
    ext j
    by_cases h : j = i
    · simp [h]
    · simp [h]
  have split : ∀ f : Nat → N, ((Finset.range n).filter (fun j => p (f j) = true)).card =
      (((Finset.range n).filter (fun j => p (f j) = true)).erase i).card + (p (f i)).toNat := by
    intro f
    cases hl : p (f i) with
    | true =>
      have hmem : i ∈ (Finset.range n).filter (fun j => p (f j) = true) := by
        simp [hi, hl]
      simpa using (Finset.card_erase_add_one hmem).symm
    | false =>
      have hmem : i ∉ (Finset.range n).filter (fun j => p (f j) = true) := by
        simp [hl]
      simp [Finset.erase_eq_of_notMem hmem]
  have hnew := split (update cells i c)
  rw [others, update_self] at hnew
  have hold := split cells
  simp only [bucketCount]
  omega

variable (L cells) in
theorem liveCount_update (hi : i < n) (c : N) :
    liveCount L n (Function.update cells i c) + (L.live (cells i)).toNat =
      liveCount L n cells + (L.live c).toNat :=
  bucketCount_update L.live cells hi c

theorem liveCount_empty (blank : ∀ i < n, L.used (cells i) = false) : liveCount L n cells = 0 := by
  rw [liveCount, Finset.card_eq_zero, Finset.filter_eq_empty_iff]
  intro i hi
  simp [Layout.live, blank i (Finset.mem_range.mp hi)]

theorem liveCount_le : liveCount L n cells ≤ n := by
  have h := Finset.card_filter_le (Finset.range n) (fun i => L.live (cells i) = true)
  rwa [Finset.card_range] at h

end Counting

section Routing

variable {ι σ V : Type*} [DecidableEq ι] {tables : ι → σ} {table : σ}

theorem routed_each {p : σ → Prop} (each : ∀ i, p (tables i)) (here : p table) (i j : ι) :
    p (update tables i table j) :=
  (forall_update_iff tables fun _ => p).mpr ⟨here, fun j _ => each j⟩ j

theorem routed_sum [Fintype ι] (count : σ → Nat) (tables : ι → σ) (i : ι) (table : σ) :
    ∑ j, count (update tables i table j) + count (tables i) =
      ∑ j, count (tables j) + count table := by
  have counts : (fun j => count (update tables i table j)) =
      update (fun j => count (tables j)) i (count table) := comp_update count ..
  rw [counts, Finset.sum_update_of_mem (Finset.mem_univ i),
    Finset.sum_eq_add_sum_sdiff_singleton_of_mem (Finset.mem_univ i)]
  omega

variable [DecidableEq K] (route : K → ι) (view : σ → K → Option V) {key : K} {v : Option V}

/-- A map spread over several tables by a routing of the keys: a write of the key
in its own table is a write of the key in the map. -/
theorem routed_update (tables : ι → σ)
    (written : view table = update (view (tables (route key))) key v) :
    (fun k => view (update tables (route key) table (route k)) k) =
      update (fun k => view (tables (route k)) k) key v := by
  funext k
  by_cases same : route k = route key
  · rw [same, update_self, written, update_apply, update_apply, same]
  · have hk : k ≠ key := fun h => same (by rw [h])
    rw [update_of_ne same, update_of_ne hk]

theorem routed_homed (homed : ∀ i k, (view (tables i) k).isSome → route k = i)
    (written : view table = update (view (tables (route key))) key v) (i : ι) (k : K)
    (held : (view (update tables (route key) table i) k).isSome) : route k = i := by
  rw [update_apply] at held
  split at held
  · rename_i here
    rw [here]
    by_cases same : k = key
    · rw [same]
    · rw [written, update_of_ne same] at held
      exact homed _ k held
  · exact homed i k held

end Routing

end LinearProbe
