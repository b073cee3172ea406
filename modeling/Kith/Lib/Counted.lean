import Kith.Lib.Rehash

/-!
# Probed tables that count their buckets

A counted table knows how many of its buckets are live and how many are
tombstones. Each write keeps both numbers exact and changes the map by one key;
a table whose live buckets and tombstones leave a bucket over has a never-used
one, so an insert finds its place.
-/

namespace LinearProbe

open Function

universe u v

variable {N : Type u} {K : Type v}

def Layout.tomb (L : Layout N K) (c : N) : Bool := L.used c && L.deleted c

def tombCount (L : Layout N K) (n : Nat) (cells : Nat → N) : Nat := bucketCount L.tomb n cells

section Counts

variable {L : Layout N K} {n : Nat} {cells : Nat → N} {home : K → Nat}

theorem live_add_tomb (L : Layout N K) (n : Nat) (cells : Nat → N) :
    liveCount L n cells + tombCount L n cells = bucketCount L.used n cells := by
  rw [liveCount, tombCount, bucketCount, bucketCount, ← Finset.card_union_of_disjoint]
  · congr 1
    ext i
    cases hu : L.used (cells i) <;> cases hd : L.deleted (cells i) <;>
      simp [Layout.live, Layout.tomb, hu, hd]
  · rw [Finset.disjoint_filter]
    intro i _ live tomb
    simp only [Layout.live, Layout.tomb, Bool.and_eq_true, Bool.not_eq_true'] at live tomb
    rw [live.2] at tomb
    cases tomb.2

theorem exists_unused (room : liveCount L n cells + tombCount L n cells < n) :
    ∃ i < n, L.used (cells i) = false := by
  by_contra full
  push Not at full
  have all : ∀ i ∈ Finset.range n, L.used (cells i) = true := fun i hi => by
    simpa using full i (Finset.mem_range.mp hi)
  rw [live_add_tomb, bucketCount, Finset.filter_true_of_mem all, Finset.card_range] at room
  exact lt_irrefl n room

theorem Clean.tombCount (clean : Clean L n cells) : tombCount L n cells = 0 := by
  rw [LinearProbe.tombCount, bucketCount, Finset.card_eq_zero, Finset.filter_eq_empty_iff]
  intro i hi tomb
  simp only [Layout.tomb, Bool.and_eq_true] at tomb
  have live := clean i (Finset.mem_range.mp hi) tomb.1
  rw [live_iff, tomb.2] at live
  cases live.2

end Counts

/-- A table with exact counts of its live buckets and its tombstones. -/
structure Counted (L : Layout N K) (home : K → Nat) (n : Nat) (cells : Nat → N)
    (live tombs : Nat) : Prop where
  pow2 : ∃ b, n = 2 ^ b
  chained : Chained L n cells home
  live : live = liveCount L n cells
  tombs : tombs = tombCount L n cells

namespace Counted

variable [DecidableEq K] {L : Layout N K} {home : K → Nat} {n : Nat} {cells : Nat → N}
  {live tombs : Nat} {k : K} {i : Nat} {c : N}

omit [DecidableEq K] in
theorem empty (b : Nat) (blank : ∀ i < 2 ^ b, L.used (cells i) = false) :
    Counted L home (2 ^ b) cells 0 0 where
  pow2 := ⟨b, rfl⟩
  chained := chained_empty blank
  live := (liveCount_empty blank).symm
  tombs := by
    have clean : Clean L (2 ^ b) cells := by
      intro i hi used
      rw [blank i hi] at used
      cases used
    exact clean.tombCount.symm

omit [DecidableEq K] in
theorem total_le (table : Counted L home n cells live tombs) : live + tombs ≤ n := by
  rw [table.live, table.tombs, live_add_tomb, bucketCount]
  have bound := Finset.card_filter_le (Finset.range n) fun i => L.used (cells i) = true
  rwa [Finset.card_range] at bound

section

variable (table : Counted L home n cells live tombs)
include table

theorem lookup_iff : lookup L n cells (home k) k = some i ↔ Holds L n cells k i := by
  obtain ⟨b, hb⟩ := table.pow2
  exact lookup_eq_some_iff hb table.chained k i

theorem entry_of_holds (holds : Holds L n cells k i) : entry L n cells home k = some (cells i) := by
  obtain ⟨b, hb⟩ := table.pow2
  exact (entry_eq_some hb table.chained).mpr ⟨i, holds, rfl⟩

theorem card_liveKeys : (liveKeys L n cells).card = live := by
  rw [LinearProbe.card_liveKeys table.chained, table.live]

theorem mem_liveKeys_iff : k ∈ liveKeys L n cells ↔ (entry L n cells home k).isSome := by
  obtain ⟨b, hb⟩ := table.pow2
  rw [mem_liveKeys, Option.isSome_iff_ne_none, ne_eq, entry_eq_none hb table.chained, not_forall]
  simp

end

omit [DecidableEq K] in
theorem place_fresh (table : Counted L home n cells live tombs) (room : live + tombs < n)
    (h : Nat) : ∃ i reused, place L n cells h = .fresh i reused := by
  obtain ⟨b, hb⟩ := table.pow2
  rw [table.live, table.tombs] at room
  obtain ⟨j, hj, unused⟩ := exists_unused room
  cases placed : place L n cells h with
  | fresh i reused => exact ⟨i, reused, rfl⟩
  | full tomb =>
    have filled : ∀ i < n, L.used (cells i) = true := (place_full_iff hb).mp ⟨tomb, placed⟩
    rw [filled j hj] at unused
    cases unused

omit [DecidableEq K] in
theorem tombs_pos (table : Counted L home n cells live tombs) {h : Nat}
    (placed : place L n cells h = .fresh i true) : 0 < tombs := by
  obtain ⟨b, hb⟩ := table.pow2
  obtain ⟨opened, reused⟩ := LinearProbe.place_fresh placed
  rw [table.tombs, tombCount, bucketCount, Finset.card_pos]
  refine ⟨i, Finset.mem_filter.mpr ⟨Finset.mem_range.mpr (open_lt hb opened), ?_⟩⟩
  have dead := opened.1
  rw [Layout.live, ← reused, Bool.true_and, Bool.not_eq_false'] at dead
  rw [Layout.tomb, ← reused, dead, Bool.true_and]

section

variable (table : Counted L home n cells live tombs)
include table

theorem fill (absent : entry L n cells home k = none) (opened : Open L n cells (home k) i)
    (hlive : L.live c = true) (hkey : L.key c = k) :
    Counted L home n (update cells i c) (live + 1)
        (if L.used (cells i) then tombs - 1 else tombs) ∧
      Holds L n (update cells i c) k i ∧
      entry L n (update cells i c) home =
        update (entry L n cells home) k (some c) := by
  obtain ⟨b, hb⟩ := table.pow2
  obtain ⟨after, written⟩ := entry_store hb table.chained absent opened hlive hkey
  have hi := open_lt hb opened
  have lives := liveCount_update L cells hi c
  have tombed := bucketCount_update L.tomb cells hi c
  have dead := opened.1
  have fresh : L.tomb c = false := by
    have parts := (live_iff c).mp hlive
    simp [Layout.tomb, parts]
  have buried : L.tomb (cells i) = L.used (cells i) := by
    cases hu : L.used (cells i) <;> cases hd : L.deleted (cells i) <;>
      simp_all [Layout.live, Layout.tomb]
  rw [dead, hlive, Bool.toNat_false, Bool.toNat_true] at lives
  rw [fresh, buried, Bool.toNat_false] at tombed
  refine ⟨⟨table.pow2, after, ?_, ?_⟩, holds_update.mpr (.inl ⟨rfl, hi, hlive, hkey⟩), written⟩
  · rw [table.live]
    omega
  · rw [table.tombs, tombCount, tombCount]
    cases hu : L.used (cells i) with
    | false =>
      rw [hu, Bool.toNat_false] at tombed
      simpa using tombed.symm
    | true =>
      rw [hu, Bool.toNat_true] at tombed
      rw [if_pos rfl]
      omega

theorem store (absent : entry L n cells home k = none) {reused : Bool}
    (placed : place L n cells (home k) = .fresh i reused) (hlive : L.live c = true)
    (hkey : L.key c = k) :
    Counted L home n (update cells i c) (live + 1)
        (if reused then tombs - 1 else tombs) ∧
      Holds L n (update cells i c) k i ∧
      entry L n (update cells i c) home =
        update (entry L n cells home) k (some c) := by
  obtain ⟨opened, rfl⟩ := LinearProbe.place_fresh placed
  exact table.fill absent opened hlive hkey

theorem modify (holds : Holds L n cells k i) (hlive : L.live c = true) (hkey : L.key c = k) :
    Counted L home n (update cells i c) live tombs ∧
      Holds L n (update cells i c) k i ∧
      entry L n (update cells i c) home =
        update (entry L n cells home) k (some c) := by
  obtain ⟨b, hb⟩ := table.pow2
  obtain ⟨after, written⟩ := entry_modify hb table.chained holds hlive hkey
  have lives := liveCount_update L cells holds.1 c
  have tombed := bucketCount_update L.tomb cells holds.1 c
  have same : L.tomb c = L.tomb (cells i) := by
    have new := (live_iff c).mp hlive
    have old := (live_iff _).mp holds.2.1
    simp [Layout.tomb, new, old]
  rw [hlive, holds.2.1] at lives
  rw [same] at tombed
  refine ⟨⟨table.pow2, after, ?_, ?_⟩, holds_update.mpr (.inl ⟨rfl, holds.1, hlive, hkey⟩), written⟩
  · rw [table.live]
    omega
  · rw [table.tombs, tombCount, tombCount]
    omega

theorem bury (holds : Holds L n cells k i) (hused : L.used c = true) (hdel : L.deleted c = true) :
    Counted L home n (update cells i c) (live - 1) (tombs + 1) ∧ 0 < live ∧
      entry L n (update cells i c) home =
        update (entry L n cells home) k none := by
  obtain ⟨b, hb⟩ := table.pow2
  obtain ⟨after, written⟩ := entry_bury hb table.chained holds hused hdel
  have lives := liveCount_update L cells holds.1 c
  have tombed := bucketCount_update L.tomb cells holds.1 c
  have dead : L.live c = false := by simp [Layout.live, hdel]
  have tomb : L.tomb c = true := by simp [Layout.tomb, hused, hdel]
  have before : L.tomb (cells i) = false := by
    have old := (live_iff _).mp holds.2.1
    simp [Layout.tomb, old]
  rw [dead, holds.2.1, Bool.toNat_false, Bool.toNat_true] at lives
  rw [tomb, before, Bool.toNat_false, Bool.toNat_true] at tombed
  refine ⟨⟨table.pow2, after, ?_, ?_⟩, ?_, written⟩
  · rw [table.live]
    omega
  · rw [table.tombs, tombCount, tombCount]
    omega
  · rw [table.live]
    omega

end

omit [DecidableEq K] in
theorem rewrite (table : Counted L home n cells live tombs) (cells' : Nat → N)
    (used : ∀ i, L.used (cells' i) = L.used (cells i))
    (deleted : ∀ i, L.deleted (cells' i) = L.deleted (cells i))
    (key : ∀ i, L.key (cells' i) = L.key (cells i)) :
    Counted L home n cells' live tombs ∧ ∀ k i, Holds L n cells' k i ↔ Holds L n cells k i := by
  have lives : ∀ i, L.live (cells' i) = L.live (cells i) := by
    intro i
    rw [Layout.live, Layout.live, used, deleted]
  have buried : ∀ i, L.tomb (cells' i) = L.tomb (cells i) := by
    intro i
    rw [Layout.tomb, Layout.tomb, used, deleted]
  have holds : ∀ k i, Holds L n cells' k i ↔ Holds L n cells k i := by
    intro k i
    rw [Holds, Holds, lives, key]
  refine ⟨⟨table.pow2, ?_, ?_, ?_⟩, holds⟩
  · exact table.chained.congr holds fun i marked => (used i).trans marked
  · rw [table.live, liveCount, liveCount]
    simp only [lives]
  · rw [table.tombs, tombCount, tombCount, bucketCount, bucketCount]
    simp only [buried]

theorem rehash (table : Counted L home n cells live tombs) (blank : Nat → N) {b' n' : Nat}
    (hn' : n' = 2 ^ b') (fits : n ≤ n') (unused : ∀ i < n', L.used (blank i) = false) :
    ∃ cells', LinearProbe.rehash L n' home ((List.range n).map cells) blank = some cells' ∧
      Counted L home n' cells' live 0 ∧ entry L n' cells' home = entry L n cells home := by
  obtain ⟨b, hb⟩ := table.pow2
  obtain ⟨cells', copied, chained, clean, same⟩ :=
    rehash_entry blank hb hn' fits table.chained unused
  have keys : liveKeys L n' cells' = liveKeys L n cells := by
    ext k
    rw [mem_liveKeys, mem_liveKeys, ← not_iff_not, not_exists, not_exists,
      ← entry_eq_none hn' chained, ← entry_eq_none hb table.chained, same]
  refine ⟨cells', copied, ⟨⟨b', hn'⟩, chained, ?_, clean.tombCount.symm⟩, same⟩
  rw [← LinearProbe.card_liveKeys chained, keys, table.card_liveKeys]

end Counted

end LinearProbe
