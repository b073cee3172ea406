import Kith.Lib.LinearProbe

/-!
# Moving a probed table into a larger one

The live buckets of a table are copied, in bucket order, into a blank array:
each goes to the first bucket of its probe that is not used yet. Dead buckets
are left behind, so the new table has no tombstone, and as long as the live
buckets fit, every copy finds its place and the new table is the same map.
-/

namespace LinearProbe

open Function List

universe u v

variable {N : Type u} {K : Type v} (L : Layout N K) {b i : Nat} {c : N} {cs : List N}

/-- The first bucket from `slot` on that is not used; `none` is a search that
goes round forever, which `n` rounds show. -/
def nextUnused (n : Nat) (cells : Nat → N) : Nat → Nat → Option Nat
  | 0, _ => none
  | fuel + 1, slot =>
    if L.used (cells slot) = true then nextUnused n cells fuel ((slot + 1) &&& (n - 1))
      else some slot

def rehash (n : Nat) (home : K → Nat) : List N → (Nat → N) → Option (Nat → N)
  | [], cells => some cells
  | c :: cs, cells =>
    if L.live c = true then
      match nextUnused L n cells n (home (L.key c) &&& (n - 1)) with
      | none => none
      | some i => rehash n home cs (update cells i c)
    else rehash n home cs cells

variable {L} {n : Nat} {cells : Nat → N} {home : K → Nat}

theorem bucket_next (b h p : Nat) :
    (bucket (2 ^ b) h p + 1) &&& (2 ^ b - 1) = bucket (2 ^ b) h (p + 1) := by
  rw [Nat.and_two_pow_sub_one_eq_mod, bucket_eq_mod, bucket_eq_mod, Nat.mod_add_mod, Nat.add_assoc]

theorem nextUnused_spec {h fuel p : Nat} (hn : n = 2 ^ b) (all : p + fuel = n)
    (passed : ∀ q < p, L.used (cells (bucket n h q)) = true)
    (room : ∃ i < n, L.used (cells i) = false) :
    ∃ i, nextUnused L n cells fuel (bucket n h p) = some i ∧ L.used (cells i) = false ∧
      Open L n cells h i := by
  induction fuel generalizing p with
  | zero =>
    obtain ⟨i, hi, unused⟩ := room
    subst hn
    obtain ⟨q, hq, rfl⟩ := bucket_surj (h := h) hi
    rw [passed q (by omega)] at unused
    cases unused
  | succ fuel ih =>
    rw [nextUnused]
    cases hused : L.used (cells (bucket n h p)) with
    | false =>
      have dead : L.live (cells (bucket n h p)) = false := by simp [Layout.live, hused]
      exact ⟨_, by simp, hused, dead, p, by omega, rfl, passed⟩
    | true =>
      have step : (bucket n h p + 1) &&& (n - 1) = bucket n h (p + 1) := by
        rw [hn]
        exact bucket_next b h p
      rw [if_pos rfl, step]
      refine ih (by omega) ?_
      intro q hq
      rcases Nat.lt_succ_iff_lt_or_eq.mp hq with hq | rfl
      · exact passed q hq
      · exact hused

/-- A table without tombstones: what is used is live. -/
def Clean (L : Layout N K) (n : Nat) (cells : Nat → N) : Prop :=
  ∀ i < n, L.used (cells i) = true → L.live (cells i) = true

theorem Clean.room (clean : Clean L n cells) (short : liveCount L n cells < n) :
    ∃ i < n, L.used (cells i) = false := by
  by_contra full
  push Not at full
  have all : ∀ i ∈ Finset.range n, L.live (cells i) = true := fun i hi =>
    clean i (Finset.mem_range.mp hi) (by simpa using full i (Finset.mem_range.mp hi))
  rw [liveCount, Finset.filter_true_of_mem all, Finset.card_range] at short
  exact lt_irrefl n short

def Contains (L : Layout N K) (n : Nat) (cells : Nat → N) (c : N) : Prop :=
  ∃ i < n, L.live (cells i) = true ∧ cells i = c

theorem contains_update {d : N} (hi : i < n) (unused : L.used (cells i) = false)
    (hlive : L.live c = true) :
    Contains L n (update cells i c) d ↔ d = c ∨ Contains L n cells d := by
  constructor
  · rintro ⟨j, hj, live, rfl⟩
    by_cases h : j = i
    · subst h
      exact .inl (update_self ..)
    · rw [update_of_ne h] at live ⊢
      exact .inr ⟨j, hj, live, rfl⟩
  · rintro (rfl | ⟨j, hj, live, rfl⟩)
    · exact ⟨i, hi, by rwa [update_self], update_self ..⟩
    · have hne : j ≠ i := by
        rintro rfl
        rw [live_iff, unused] at live
        cases live.1
      exact ⟨j, hj, by rwa [update_of_ne hne], update_of_ne hne ..⟩

/-- What is left to copy has distinct keys, none of them copied yet, and fits. -/
structure Pending (L : Layout N K) (n : Nat) (cells : Nat → N) (cs : List N) : Prop where
  clean : Clean L n cells
  absent : ∀ c ∈ cs, L.live c = true → ∀ i, ¬ Holds L n cells (L.key c) i
  distinct : cs.Pairwise fun c d => L.live c = true → L.live d = true → L.key c ≠ L.key d
  fits : liveCount L n cells + cs.countP L.live ≤ n

theorem Pending.skip (pending : Pending L n cells (c :: cs)) (dead : ¬ L.live c = true) :
    Pending L n cells cs := by
  have fits := pending.fits
  rw [countP_cons_of_neg dead] at fits
  exact ⟨pending.clean, fun d hd => pending.absent d (mem_cons_of_mem c hd),
    pending.distinct.of_cons, fits⟩

theorem Pending.copy (hn : n = 2 ^ b) (pending : Pending L n cells (c :: cs))
    (hlive : L.live c = true) (hi : i < n) (unused : L.used (cells i) = false) :
    Pending L n (update cells i c) cs := by
  refine ⟨?_, ?_, pending.distinct.of_cons, ?_⟩
  · intro j hj hused
    by_cases h : j = i
    · subst h
      rwa [update_self]
    · rw [update_of_ne h] at hused ⊢
      exact pending.clean j hj hused
  · intro d hd live j hj
    rcases holds_update.mp hj with ⟨_, _, _, same⟩ | ⟨_, hj⟩
    · exact rel_of_pairwise_cons pending.distinct hd hlive live same
    · exact pending.absent d (mem_cons_of_mem c hd) live j hj
  · have count := liveCount_update L cells hi c
    have dead : L.live (cells i) = false := by simp [Layout.live, unused]
    have fits := pending.fits
    rw [countP_cons_of_pos hlive] at fits
    rw [dead, hlive, Bool.toNat_false, Bool.toNat_true] at count
    omega

theorem rehash_spec (hn : n = 2 ^ b) (chained : Chained L n cells home)
    (pending : Pending L n cells cs) :
    ∃ cells', rehash L n home cs cells = some cells' ∧ Chained L n cells' home ∧
      Clean L n cells' ∧
      ∀ c, Contains L n cells' c ↔ Contains L n cells c ∨ c ∈ cs ∧ L.live c = true := by
  induction cs generalizing cells with
  | nil => exact ⟨cells, rfl, chained, pending.clean, by simp⟩
  | cons c cs ih =>
    rw [rehash]
    by_cases hlive : L.live c = true
    · rw [if_pos hlive]
      have fits := pending.fits
      rw [countP_cons_of_pos hlive] at fits
      obtain ⟨i, found, unused, opened⟩ := nextUnused_spec (h := home (L.key c))
        (p := 0) hn (Nat.zero_add n) (by omega) (pending.clean.room (by omega))
      rw [bucket, Nat.add_zero, Nat.and_assoc, Nat.and_self] at found
      rw [found]
      have hi := open_lt hn opened
      have after := chained.store (pending.absent c mem_cons_self hlive) opened hlive rfl
      obtain ⟨cells', copied, chained', clean, same⟩ := ih after (pending.copy hn hlive hi unused)
      refine ⟨cells', copied, chained', clean, fun d => ?_⟩
      rw [same, contains_update hi unused hlive, mem_cons]
      constructor
      · rintro ((rfl | old) | ⟨hd, live⟩)
        · exact .inr ⟨.inl rfl, hlive⟩
        · exact .inl old
        · exact .inr ⟨.inr hd, live⟩
      · rintro (old | ⟨rfl | hd, live⟩)
        · exact .inl (.inr old)
        · exact .inl (.inl rfl)
        · exact .inr ⟨hd, live⟩
    · rw [if_neg hlive]
      obtain ⟨cells', copied, chained', clean, same⟩ := ih chained (pending.skip hlive)
      refine ⟨cells', copied, chained', clean, fun d => ?_⟩
      rw [same, mem_cons]
      constructor
      · exact Or.imp_right fun h => ⟨.inr h.1, h.2⟩
      · rintro (old | ⟨rfl | hd, live⟩)
        · exact .inl old
        · exact absurd live hlive
        · exact .inr ⟨hd, live⟩

theorem holds_iff_contains {k : K} :
    (∃ i, Holds L n cells k i ∧ cells i = c) ↔ Contains L n cells c ∧ L.key c = k := by
  constructor
  · rintro ⟨i, ⟨hi, live, hk⟩, rfl⟩
    exact ⟨⟨i, hi, live, rfl⟩, hk⟩
  · rintro ⟨⟨i, hi, live, rfl⟩, hk⟩
    exact ⟨i, ⟨hi, live, hk⟩, rfl⟩

theorem countP_live_range (n : Nat) (cells : Nat → N) :
    ((range n).map cells).countP L.live = liveCount L n cells := by
  rw [countP_map, liveCount, Finset.card_def, Finset.filter_val, Finset.range_val,
    Multiset.range, Multiset.filter_coe, Multiset.coe_card, countP_eq_length_filter]
  congr 1
  apply filter_congr
  simp

/-- Copying a whole table into a blank one with at least as many buckets as it
has live ones keeps the map. -/
theorem rehash_entry [DecidableEq K] {b' n' : Nat} (blank : Nat → N) (hn : n = 2 ^ b)
    (hn' : n' = 2 ^ b') (fits : n ≤ n') (chained : Chained L n cells home)
    (unused : ∀ i < n', L.used (blank i) = false) :
    ∃ cells', rehash L n' home ((range n).map cells) blank = some cells' ∧
      Chained L n' cells' home ∧ Clean L n' cells' ∧
      entry L n' cells' home = entry L n cells home := by
  have none_live : ∀ i < n', L.live (blank i) = false := fun i hi => by
    simp [Layout.live, unused i hi]
  have pending : Pending L n' blank ((range n).map cells) := by
    refine ⟨fun i hi hused => ?_, fun c _ _ i holds => ?_, ?_, ?_⟩
    · rw [unused i hi] at hused
      cases hused
    · have live := holds.2.1
      rw [none_live i holds.1] at live
      cases live
    · rw [pairwise_map]
      refine List.Pairwise.imp_of_mem ?_ pairwise_lt_range
      intro i j hi hj less live live' same
      have equal := chained.distinct _ i j ⟨mem_range.mp hi, live, rfl⟩
        ⟨mem_range.mp hj, live', same.symm⟩
      omega
    · rw [countP_live_range, liveCount_empty unused]
      have := @liveCount_le N K L n cells
      omega
  obtain ⟨cells', copied, chained', clean, same⟩ := rehash_spec hn' (chained_empty unused) pending
  refine ⟨cells', copied, chained', clean, entry_congr hn chained hn' chained' fun k c => ?_⟩
  have blank_none : ¬ Contains L n' blank c := by
    rintro ⟨i, hi, live, _⟩
    rw [none_live i hi] at live
    cases live
  rw [holds_iff_contains, holds_iff_contains, same]
  simp only [blank_none, false_or, mem_map, mem_range]
  constructor
  · rintro ⟨⟨⟨i, hi, rfl⟩, live⟩, hk⟩
    exact ⟨⟨i, hi, live, rfl⟩, hk⟩
  · rintro ⟨⟨i, hi, live, rfl⟩, hk⟩
    exact ⟨⟨⟨i, hi, rfl⟩, live⟩, hk⟩

end LinearProbe
