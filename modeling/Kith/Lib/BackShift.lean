import Mathlib.Data.List.Perm.Basic
import Mathlib.Data.List.Nodup
import Kith.Lib.LinearProbe

/-!
# Linear probing with backward-shift deletion

A slot is empty or holds one entry; there are no tombstones. A removal walks
forward from the slot it vacates and pulls back every entry whose home lies at
or before the hole, so that the slots between the home of an entry and the
entry stay occupied.

On a table without an empty slot that condition says nothing, and the walk
passes every slot. What such a table still has is a *cut*: the slot filled
last. No other entry was probed across it, so the table read from the slot
after the cut is one line in which every entry lies at or after its home, and
a removal only ever moves entries towards the start of that line.
-/

namespace BackShift

open Function List

open LinearProbe (bucket bucket_eq_mod bucket_lt bucket_inj bucket_surj)

universe u v

variable {α : Type u} {K : Type v}

inductive Probe where
  | vacant (index : Nat)
  | hit (index : Nat)
  | exhausted
  deriving DecidableEq

def probeFrom [DecidableEq K] (key : α → K) (n : Nat) (slots : Nat → Option α) (h : Nat) (k : K) :
    Nat → Nat → Probe
  | 0, _ => .exhausted
  | fuel + 1, p =>
    match slots (bucket n h p) with
    | none => .vacant (bucket n h p)
    | some a => if key a = k then .hit (bucket n h p) else probeFrom key n slots h k fuel (p + 1)

/-- The probe for `k` from the hash `h`, over at most every slot. -/
def probe [DecidableEq K] (key : α → K) (n : Nat) (slots : Nat → Option α) (h : Nat) (k : K) :
    Probe :=
  probeFrom key n slots h k n 0

/-- The walk of a removal from slot `j`, with the slot to vacate at `hole`.
`dist` is the cyclic distance back from one slot to another. -/
def shift (n : Nat) (dist : Nat → Nat → Nat) (hash : α → Nat) :
    Nat → (Nat → Option α) → Nat → Nat → (Nat → Option α) × Nat
  | 0, slots, hole, _ => (slots, hole)
  | fuel + 1, slots, hole, j =>
    let next := (j + 1) &&& (n - 1)
    match slots next with
    | none => (slots, hole)
    | some a =>
      if dist next hole ≤ dist next (hash a &&& (n - 1)) then
        shift n dist hash fuel (update slots hole (some a)) next next
      else
        shift n dist hash fuel slots hole next

/-- The table with the entry of slot `hole` removed. -/
def vacate (n : Nat) (dist : Nat → Nat → Nat) (hash : α → Nat) (slots : Nat → Option α)
    (hole : Nat) : Nat → Option α :=
  let (slots, hole) := shift n dist hash n slots hole hole
  update slots hole none

def contents (n : Nat) (slots : Nat → Option α) : List α := (List.range n).filterMap slots

variable {slots : Nat → Option α}

theorem mem_contents {n : Nat} {a : α} : a ∈ contents n slots ↔ ∃ i < n, slots i = some a := by
  simp [contents]

/-- Probe `q` met an entry with another key. -/
def Passed (key : α → K) (n : Nat) (slots : Nat → Option α) (h : Nat) (k : K) (q : Nat) : Prop :=
  ∃ a, slots (bucket n h q) = some a ∧ key a ≠ k

theorem Passed.occupied {key : α → K} {n h q : Nat} {k : K}
    (passed : Passed key n slots h k q) : slots (bucket n h q) ≠ none := by
  obtain ⟨a, ha, _⟩ := passed
  rw [ha]
  exact Option.some_ne_none a

section Probing

variable [DecidableEq K]

theorem probeFrom_cases (key : α → K) (n : Nat) (slots : Nat → Option α) (h : Nat) (k : K)
    (fuel p : Nat) :
    (∃ q, p ≤ q ∧ q < p + fuel ∧ (∀ r, p ≤ r → r < q → Passed key n slots h k r) ∧
      ((slots (bucket n h q) = none ∧
          probeFrom key n slots h k fuel p = .vacant (bucket n h q)) ∨
        (∃ a, slots (bucket n h q) = some a ∧ key a = k ∧
          probeFrom key n slots h k fuel p = .hit (bucket n h q)))) ∨
    ((∀ r, p ≤ r → r < p + fuel → Passed key n slots h k r) ∧
      probeFrom key n slots h k fuel p = .exhausted) := by
  induction fuel generalizing p with
  | zero => exact .inr ⟨by omega, rfl⟩
  | succ fuel ih =>
    cases hs : slots (bucket n h p) with
    | none =>
      refine .inl ⟨p, le_refl p, by omega, by omega, .inl ⟨hs, ?_⟩⟩
      simp only [probeFrom, hs]
    | some a =>
      by_cases hk : key a = k
      · refine .inl ⟨p, le_refl p, by omega, by omega, .inr ⟨a, hs, hk, ?_⟩⟩
        simp only [probeFrom, hs, if_pos hk]
      · have hstep :
            probeFrom key n slots h k (fuel + 1) p = probeFrom key n slots h k fuel (p + 1) := by
          simp only [probeFrom, hs, if_neg hk]
        rw [hstep]
        have hfirst : Passed key n slots h k p := ⟨a, hs, hk⟩
        rcases ih (p + 1) with ⟨q, hpq, hq, passed, ended⟩ | ⟨passed, ended⟩
        · refine .inl ⟨q, by omega, by omega, ?_, ended⟩
          intro r hpr hrq
          by_cases hr : r = p
          · exact hr ▸ hfirst
          · exact passed r (by omega) hrq
        · refine .inr ⟨?_, ended⟩
          intro r hpr hrq
          by_cases hr : r = p
          · exact hr ▸ hfirst
          · exact passed r (by omega) (by omega)

end Probing

/-- In the line read from `x` the home of the hash `h` has a rank up to `t`, and the
ranks from there to `t` are busy. -/
def Rooted (b x h : Nat) (busy : Nat → Prop) (t : Nat) : Prop :=
  ∃ s ≤ t, bucket (2 ^ b) x s = h % 2 ^ b ∧ ∀ r, s ≤ r → r < t → busy r

theorem Rooted.imp {b x h t : Nat} {busy busy' : Nat → Prop} (rooted : Rooted b x h busy t)
    (still : ∀ r < t, busy r → busy' r) : Rooted b x h busy' t := by
  obtain ⟨s, hs, hhome, between⟩ := rooted
  exact ⟨s, hs, hhome, fun r hr hrt => still r hrt (between r hr hrt)⟩

/-- Read from the slot after `x`, every entry lies at or after its home and the
slots from its home to it are occupied. -/
def Cut (b : Nat) (hash : α → Nat) (slots : Nat → Option α) (x : Nat) : Prop :=
  ∀ t < 2 ^ b, ∀ a, slots (bucket (2 ^ b) (x + 1) t) = some a →
    Rooted b (x + 1) (hash a) (fun r => slots (bucket (2 ^ b) (x + 1) r) ≠ none) t

/-- The search invariant. -/
def Chained (key : α → K) (home : K → Nat) (b : Nat) (slots : Nat → Option α) : Prop :=
  ∃ x < 2 ^ b, Cut b (fun a => home (key a)) slots x

section Lines

variable {b x e s t d h : Nat}

theorem bucket_sub (same : bucket (2 ^ b) x s = bucket (2 ^ b) e t) (hs : d ≤ s) (ht : d ≤ t) :
    bucket (2 ^ b) x (s - d) = bucket (2 ^ b) e (t - d) := by
  rw [bucket_eq_mod, bucket_eq_mod] at same ⊢
  have hsum : (x + (s - d)) + d ≡ (e + (t - d)) + d [MOD 2 ^ b] := by
    have hx : x + (s - d) + d = x + s := by omega
    have he : e + (t - d) + d = e + t := by omega
    rw [hx, he]
    exact same
  exact Nat.ModEq.add_right_cancel' d hsum

theorem bucket_add (same : bucket (2 ^ b) x s = bucket (2 ^ b) e t) (d : Nat) :
    bucket (2 ^ b) x (s + d) = bucket (2 ^ b) e (t + d) := by
  rw [bucket_eq_mod, bucket_eq_mod] at same ⊢
  have hsum : (x + s) + d ≡ (e + t) + d [MOD 2 ^ b] := Nat.ModEq.add_right d same
  simpa only [Nat.ModEq, Nat.add_assoc] using hsum

theorem bucket_last (he : e < 2 ^ b) : bucket (2 ^ b) (e + 1) (2 ^ b - 1) = e := by
  rw [bucket_eq_mod]
  have hsum : e + 1 + (2 ^ b - 1) = e + 2 ^ b := by omega
  rw [hsum, Nat.add_mod_right, Nat.mod_eq_of_lt he]

theorem bucket_next (t : Nat) :
    (bucket (2 ^ b) x t + 1) &&& (2 ^ b - 1) = bucket (2 ^ b) x (t + 1) := by
  rw [Nat.and_two_pow_sub_one_eq_mod, bucket_eq_mod, bucket_eq_mod, Nat.mod_add_mod, Nat.add_assoc]

theorem bucket_wrap (t : Nat) : bucket (2 ^ b) x (2 ^ b + t) = bucket (2 ^ b) x t := by
  rw [bucket_eq_mod, bucket_eq_mod]
  have hsum : x + (2 ^ b + t) = x + t + 2 ^ b := by omega
  rw [hsum, Nat.add_mod_right]

theorem bucket_from_home (home : bucket (2 ^ b) (x + 1) s = h % 2 ^ b) (d : Nat) :
    bucket (2 ^ b) h d = bucket (2 ^ b) (x + 1) (s + d) := by
  have hzero : bucket (2 ^ b) h 0 = bucket (2 ^ b) (x + 1) s := by
    rw [bucket_eq_mod, Nat.add_zero, home]
  simpa using bucket_add hzero d

end Lines

section Searching

variable {b : Nat} {hash : α → Nat} {slots : Nat → Option α} {x e : Nat}

theorem Cut.rebase (cut : Cut b hash slots x) (he : e < 2 ^ b) (empty : slots e = none) :
    Cut b hash slots e := by
  intro t ht a hocc
  obtain ⟨t', ht', hpos⟩ := bucket_surj (h := x + 1) (bucket_lt b (e + 1) t)
  obtain ⟨s', hs', hhome, between⟩ := cut t' ht' a (hpos ▸ hocc)
  -- The empty slot lies `t + 1` slots before the entry, hence before its home.
  have hdist : t' - s' ≤ t := by
    by_contra far
    have hgap : bucket (2 ^ b) (x + 1) (t' - (t + 1)) = e := by
      have hnext := bucket_add hpos (2 ^ b - (t + 1))
      have hlast : t + (2 ^ b - (t + 1)) = 2 ^ b - 1 := by omega
      rw [hlast, bucket_last he] at hnext
      rw [← hnext, bucket_eq_mod, bucket_eq_mod]
      have hsum : x + 1 + (t' + (2 ^ b - (t + 1))) = x + 1 + (t' - (t + 1)) + 2 ^ b := by omega
      rw [hsum, Nat.add_mod_right]
    exact between (t' - (t + 1)) (by omega) (by omega) (hgap ▸ empty)
  have hback : ∀ d, d ≤ t' - s' →
      bucket (2 ^ b) (e + 1) (t - d) = bucket (2 ^ b) (x + 1) (t' - d) := by
    intro d hd
    exact (bucket_sub hpos (by omega) (by omega)).symm
  refine ⟨t - (t' - s'), by omega, ?_, ?_⟩
  · rw [hback (t' - s') le_rfl, ← hhome]
    congr 1
    omega
  · intro r hr hrt
    have hrank := hback (t - r) (by omega)
    have hr' : t - (t - r) = r := by omega
    rw [hr'] at hrank
    rw [hrank]
    exact between (t' - (t - r)) (by omega) (by omega)

variable {key : α → K} {home : K → Nat} {i : Nat}

/-- A stored entry is met by the probe for its key, with occupied slots before it. -/
theorem Chained.reach (chained : Chained key home b slots) {a : α} (hi : i < 2 ^ b)
    (hocc : slots i = some a) :
    ∃ p < 2 ^ b, bucket (2 ^ b) (home (key a)) p = i ∧
      ∀ q < p, slots (bucket (2 ^ b) (home (key a)) q) ≠ none := by
  obtain ⟨x, _, cut⟩ := chained
  obtain ⟨t, ht, hpos⟩ := bucket_surj (h := x + 1) hi
  obtain ⟨s, hs, hhome, between⟩ := cut t ht a (hpos ▸ hocc)
  refine ⟨t - s, by omega, ?_, ?_⟩
  · have hend : s + (t - s) = t := by omega
    rw [bucket_from_home hhome, hend, hpos]
  · intro q hq
    rw [bucket_from_home hhome]
    exact between (s + q) (by omega) (by omega)

inductive Finds (key : α → K) (n : Nat) (slots : Nat → Option α) (h : Nat) (k : K) : Probe → Prop
  | hit {i : Nat} {a : α} (hi : i < n) (hocc : slots i = some a) (hk : key a = k) :
      Finds key n slots h k (.hit i)
  | vacant {p : Nat} (hp : p < n) (empty : slots (bucket n h p) = none)
      (before : ∀ q < p, slots (bucket n h q) ≠ none)
      (absent : ∀ i < n, ∀ a, slots i = some a → key a ≠ k) :
      Finds key n slots h k (.vacant (bucket n h p))
  | exhausted (full : ∀ i < n, slots i ≠ none)
      (absent : ∀ i < n, ∀ a, slots i = some a → key a ≠ k) :
      Finds key n slots h k .exhausted

theorem Chained.finds [DecidableEq K] (chained : Chained key home b slots) (k : K) :
    Finds key (2 ^ b) slots (home k) k (probe key (2 ^ b) slots (home k) k) := by
  -- An entry with the key sits behind occupied slots only, and none of the passed ones is it.
  have absent : ∀ m, (∀ r < m, Passed key (2 ^ b) slots (home k) k r) →
      (m = 2 ^ b ∨ slots (bucket (2 ^ b) (home k) m) = none) →
      ∀ i < 2 ^ b, ∀ a, slots i = some a → key a ≠ k := by
    rintro m passed stopped i hi a hocc rfl
    obtain ⟨p, hp, hpos, before⟩ := chained.reach hi hocc
    have hpm : m ≤ p := by
      by_contra hlt
      obtain ⟨c, hc, hne⟩ := passed p (by omega)
      rw [hpos, hocc, Option.some.injEq] at hc
      exact hne (hc ▸ rfl)
    rcases stopped with rfl | empty
    · omega
    · rcases Nat.lt_or_eq_of_le hpm with hlt | rfl
      · exact before m hlt empty
      · rw [hpos, hocc] at empty
        cases empty
  rcases probeFrom_cases key (2 ^ b) slots (home k) k (2 ^ b) 0 with
    ⟨q, _, hq, passed, ended⟩ | ⟨passed, ended⟩
  · have passed' : ∀ r < q, Passed key (2 ^ b) slots (home k) k r := fun r hr =>
      passed r (Nat.zero_le r) hr
    rcases ended with ⟨empty, found⟩ | ⟨a, hocc, hk, found⟩
    · rw [probe, found]
      exact .vacant (by omega) empty (fun r hr => (passed' r hr).occupied)
        (absent q passed' (.inr empty))
    · rw [probe, found]
      exact .hit (bucket_lt b _ q) hocc hk
  · rw [probe, ended]
    have passed' : ∀ r < 2 ^ b, Passed key (2 ^ b) slots (home k) k r := fun r hr =>
      passed r (Nat.zero_le r) (by omega)
    refine .exhausted ?_ (absent (2 ^ b) passed' (.inl rfl))
    intro i hi
    obtain ⟨p, hp, rfl⟩ := bucket_surj (h := home k) hi
    exact (passed' p hp).occupied

end Searching

section Contents

variable {n : Nat} {slots : Nat → Option α} {i : Nat}

theorem contents_succ : contents (n + 1) slots = contents n slots ++ (slots n).toList := by
  rw [contents, contents, range_succ, filterMap_append]
  cases h : slots n <;> simp [h]

theorem length_contents_lt (hi : i < n) (empty : slots i = none) :
    (contents n slots).length < n := by
  rw [contents, length_filterMap_eq_countP]
  have hlt : ((range n).countP fun j => (slots j).isSome) < (range n).length := by
    rw [countP_lt_length_iff]
    exact ⟨i, mem_range.mpr hi, by rw [empty]; rfl⟩
  simpa using hlt

theorem length_contents_full (full : ∀ i < n, slots i ≠ none) : (contents n slots).length = n := by
  rw [contents, length_filterMap_eq_countP]
  have hall : ((range n).countP fun j => (slots j).isSome) = (range n).length := by
    rw [countP_eq_length]
    intro i hi
    exact Option.isSome_iff_ne_none.mpr (full i (mem_range.mp hi))
  simpa using hall

theorem contents_congr {slots' : Nat → Option α} (same : ∀ i < n, slots' i = slots i) :
    contents n slots' = contents n slots :=
  filterMap_congr fun i hi => same i (mem_range.mp hi)

theorem contents_fill (hi : i < n) (empty : slots i = none) (a : α) :
    (contents n (update slots i (some a))).Perm (a :: contents n slots) := by
  induction n with
  | zero => omega
  | succ n ih =>
    rw [contents_succ, contents_succ]
    by_cases hin : i = n
    · subst hin
      have same : ∀ j < i, update slots i (some a) j = slots j :=
        fun j hj => update_of_ne (Nat.ne_of_lt hj) ..
      rw [update_self, empty, contents_congr same]
      simp
    · rw [update_of_ne (by omega)]
      exact (ih (by omega)).append_right _

theorem contents_take (hi : i < n) {a : α} (held : slots i = some a) :
    (contents n slots).Perm (a :: contents n (update slots i none)) := by
  have refilled := contents_fill hi (update_self i none slots) a
  rwa [update_idem, ← held, update_eq_self] at refilled

theorem contents_line (b x : Nat) (slots : Nat → Option α) :
    (contents (2 ^ b) fun t => slots (bucket (2 ^ b) x t)).Perm (contents (2 ^ b) slots) := by
  have ranks : ((range (2 ^ b)).map (bucket (2 ^ b) x)).Perm (range (2 ^ b)) := by
    have nodup : ((range (2 ^ b)).map (bucket (2 ^ b) x)).Nodup :=
      nodup_range.map_on fun t ht u hu same =>
        bucket_inj (mem_range.mp ht) (mem_range.mp hu) same
    refine (subperm_of_subset nodup ?_).perm_of_length_le (by simp)
    intro i hi
    obtain ⟨t, _, rfl⟩ := mem_map.mp hi
    exact mem_range.mpr (bucket_lt b x t)
  have line := ranks.filterMap slots
  rwa [filterMap_map] at line

end Contents

section Writing

variable {b : Nat} {slots : Nat → Option α} {key : α → K} {home : K → Nat}

theorem chained_empty (key : α → K) (home : K → Nat) : Chained key home b (fun _ => none) :=
  ⟨0, Nat.two_pow_pos b, by intro t _ a ha; cases ha⟩

/-- Filling the empty slot that ended the probe for a new key: the slot filled is
the cut of the new table. -/
theorem Chained.fill (chained : Chained key home b slots) {a : α} {p : Nat} (hp : p < 2 ^ b)
    (empty : slots (bucket (2 ^ b) (home (key a)) p) = none)
    (before : ∀ q < p, slots (bucket (2 ^ b) (home (key a)) q) ≠ none) :
    Chained key home b (update slots (bucket (2 ^ b) (home (key a)) p) (some a)) := by
  generalize hi : bucket (2 ^ b) (home (key a)) p = i at empty ⊢
  have hlt : i < 2 ^ b := hi ▸ bucket_lt b _ p
  obtain ⟨x, _, cut⟩ := chained
  refine ⟨i, hlt, ?_⟩
  intro t ht c hc
  have busy : ∀ r, slots (bucket (2 ^ b) (i + 1) r) ≠ none →
      update slots i (some a) (bucket (2 ^ b) (i + 1) r) ≠ none := by
    intro r hr
    rwa [update_of_ne]
    intro same
    rw [same] at hr
    exact hr empty
  by_cases hti : bucket (2 ^ b) (i + 1) t = i
  · -- The new entry has the last rank, so its home cannot have a later one.
    have htop : t = 2 ^ b - 1 := bucket_inj ht (by omega) (hti.trans (bucket_last hlt).symm)
    rw [hti, update_self, Option.some.injEq] at hc
    subst hc
    obtain ⟨s, hs, hhome⟩ := bucket_surj (b := b) (h := i + 1)
      (Nat.mod_lt (home (key a)) (Nat.two_pow_pos b))
    have hp' : s + p = t := by
      have hrest := bucket_from_home hhome (t - s)
      have hend : s + (t - s) = t := by omega
      rw [hend, hti] at hrest
      have := bucket_inj (h := home (key a)) hp (by omega) (hi.trans hrest.symm)
      omega
    refine ⟨s, by omega, hhome, ?_⟩
    intro r hr hrt
    have hrank := bucket_from_home hhome (r - s)
    have hend : s + (r - s) = r := by omega
    rw [hend] at hrank
    exact busy r (hrank ▸ before (r - s) (by omega))
  · rw [update_of_ne hti] at hc
    exact (cut.rebase hlt empty t ht c hc).imp fun r _ => busy r

end Writing

section Removing

variable {b x : Nat} {dist : Nat → Nat → Nat} {s t : Nat} {a : α}

/-- `dist i j` counts the slots from `j` on to `i`. -/
def Back (n : Nat) (dist : Nat → Nat → Nat) : Prop :=
  ∀ i < n, ∀ j < n, dist i j = (i + (n - j)) % n

theorem Back.ranks (back : Back (2 ^ b) dist) (hs : s < 2 ^ b) :
    dist (bucket (2 ^ b) x t) (bucket (2 ^ b) x s) = (t + (2 ^ b - s)) % 2 ^ b := by
  have hlt := bucket_lt b x s
  rw [back _ (bucket_lt b x t) _ hlt]
  generalize hv : bucket (2 ^ b) x s = v at hlt
  have hv' : v ≡ x + s [MOD 2 ^ b] := by
    rw [← hv, bucket_eq_mod]
    exact Nat.mod_modEq _ _
  have ht' : bucket (2 ^ b) x t ≡ x + t [MOD 2 ^ b] := by
    rw [bucket_eq_mod]
    exact Nat.mod_modEq _ _
  apply Nat.ModEq.add_right_cancel' v
  calc bucket (2 ^ b) x t + (2 ^ b - v) + v
      = bucket (2 ^ b) x t + 2 ^ b := by omega
    _ ≡ x + t + 2 ^ b [MOD 2 ^ b] := ht'.add_right _
    _ = t + (2 ^ b - s) + (x + s) := by omega
    _ ≡ t + (2 ^ b - s) + v [MOD 2 ^ b] := hv'.symm.add_left _

theorem Back.ranks_le (back : Back (2 ^ b) dist) (hst : s ≤ t) (ht : t < 2 ^ b) :
    dist (bucket (2 ^ b) x t) (bucket (2 ^ b) x s) = t - s := by
  rw [back.ranks (by omega)]
  have hsum : t + (2 ^ b - s) = t - s + 2 ^ b := by omega
  rw [hsum, Nat.add_mod_right, Nat.mod_eq_of_lt (by omega)]

variable {hash : α → Nat} {slots line : Nat → Option α} {t₀ th tj : Nat} {rest : List α}

/-- The walk of the removal of rank `t₀` has reached rank `tj` with the hole at rank
`th`; `line` is the table by rank with the hole empty, and holds `rest`. Up to `tj` no
entry needs the hole any more; beyond it the hole still counts as occupied. -/
structure Shifting (hash : α → Nat) (b x t₀ : Nat) (rest : List α) (slots line : Nat → Option α)
    (th tj : Nat) : Prop where
  start_le : t₀ ≤ th
  hole_le : th ≤ tj
  inside : tj < 2 ^ b
  read : ∀ t < 2 ^ b, t ≠ th → slots (bucket (2 ^ b) x t) = line t
  hole : line th = none
  low : ∀ t ≤ tj, ∀ a, line t = some a → Rooted b x (hash a) (line · ≠ none) t
  high : ∀ t, tj < t → t < 2 ^ b → ∀ a, line t = some a →
    Rooted b x (hash a) (fun r => r = th ∨ line r ≠ none) t
  kept : (contents (2 ^ b) line).Perm rest

section

variable (shifting : Shifting hash b x t₀ rest slots line th tj) (hnext : tj + 1 < 2 ^ b)
include shifting hnext

theorem Shifting.pull (hocc : line (tj + 1) = some a) (hs : s ≤ th)
    (hhome : bucket (2 ^ b) x s = hash a % 2 ^ b)
    (between : ∀ r, s ≤ r → r < tj + 1 → r = th ∨ line r ≠ none) :
    Shifting hash b x t₀ rest (update slots (bucket (2 ^ b) x th) (some a))
      (update (update line th (some a)) (tj + 1) none) (tj + 1) (tj + 1) := by
  obtain ⟨hstart, hle, hin, read, hole, low, high, kept⟩ := shifting
  have busy : ∀ r, r ≠ tj + 1 → r = th ∨ line r ≠ none →
      update (update line th (some a)) (tj + 1) none r ≠ none := by
    intro r hr was
    rw [update_of_ne hr]
    by_cases h : r = th
    · rw [h, update_self]
      exact Option.some_ne_none a
    · rw [update_of_ne h]
      exact was.resolve_left h
  refine ⟨by omega, le_rfl, hnext, ?_, update_self .., ?_, ?_, ?_⟩
  · intro t ht hne
    rw [update_of_ne hne]
    by_cases h : t = th
    · rw [h, update_self, update_self]
    · rw [update_of_ne h, update_of_ne, read t ht h]
      exact fun same => h (bucket_inj ht (by omega) same)
  · intro t ht c hc
    have hne : t ≠ tj + 1 := by
      rintro rfl
      rw [update_self] at hc
      cases hc
    rw [update_of_ne hne] at hc
    by_cases h : t = th
    · rw [h, update_self, Option.some.injEq] at hc
      subst hc h
      exact ⟨s, hs, hhome, fun r hr hrt => busy r (by omega) (between r hr (by omega))⟩
    · rw [update_of_ne h] at hc
      exact (low t (by omega) c hc).imp fun r hr was => busy r (by omega) (.inr was)
  · intro t htj ht c hc
    rw [update_of_ne (by omega), update_of_ne (by omega)] at hc
    refine (high t (by omega) ht c hc).imp fun r _ was => ?_
    by_cases h : r = tj + 1
    · exact .inl h
    · exact .inr (busy r h was)
  · have held : update line th (some a) (tj + 1) = some a := by
      rw [update_of_ne (by omega), hocc]
    have filled := contents_fill (by omega : th < 2 ^ b) hole a
    exact ((contents_take hnext held).symm.trans filled).cons_inv.trans kept

theorem Shifting.stay (hocc : line (tj + 1) = some a) (hs : th < s) (hle : s ≤ tj + 1)
    (hhome : bucket (2 ^ b) x s = hash a % 2 ^ b)
    (between : ∀ r, s ≤ r → r < tj + 1 → r = th ∨ line r ≠ none) :
    Shifting hash b x t₀ rest slots line th (tj + 1) := { shifting with
  hole_le := by have := shifting.hole_le; omega
  inside := hnext
  low := by
    intro t ht c hc
    by_cases htj : t = tj + 1
    · subst htj
      rw [hocc, Option.some.injEq] at hc
      subst hc
      exact ⟨s, hle, hhome, fun r hr hrt => (between r hr hrt).resolve_left (by omega)⟩
    · exact shifting.low t (by omega) c hc
  high := fun t htj ht => shifting.high t (by omega) ht }

theorem Shifting.gap (empty : line (tj + 1) = none) :
    Shifting hash b x t₀ rest slots line th (2 ^ b - 1) := { shifting with
  hole_le := by have := shifting.hole_le; omega
  inside := by omega
  low := by
    intro t ht c hc
    by_cases htj : t ≤ tj
    · exact shifting.low t htj c hc
    · obtain ⟨s, hs, hhome, between⟩ := shifting.high t (by omega) (by omega) c hc
      have hhole := shifting.hole_le
      have hne : t ≠ tj + 1 := by
        rintro rfl
        rw [empty] at hc
        cases hc
      have hlater : tj + 1 < s := by
        by_contra hle
        rcases between (tj + 1) (by omega) (by omega) with same | busy
        · omega
        · exact busy empty
      exact ⟨s, hs, hhome, fun r hr hrt => (between r hr hrt).resolve_left (by omega)⟩
  high := by
    intro t htj ht
    omega }

end

/-- Once the walk has passed the cut it meets only entries at or after their homes,
ahead of the hole, and moves none of them. -/
theorem shift_wrapped (back : Back (2 ^ b) dist)
    (shifting : Shifting hash b x t₀ rest slots line th (2 ^ b - 1)) (fuel : Nat) {m : Nat}
    (hfuel : fuel + m ≤ t₀ + 1) :
    shift (2 ^ b) dist hash fuel slots (bucket (2 ^ b) x th) (bucket (2 ^ b) x (2 ^ b - 1 + m)) =
      (slots, bucket (2 ^ b) x th) := by
  have hpos := Nat.two_pow_pos b
  have hstart := shifting.start_le
  have hhole := shifting.hole_le
  induction fuel generalizing m with
  | zero => rfl
  | succ fuel ih =>
    have hm : 2 ^ b - 1 + m + 1 = 2 ^ b + m := by omega
    have hnext := bucket_next (b := b) (x := x) (2 ^ b - 1 + m)
    rw [hm, bucket_wrap] at hnext
    have hstep : 2 ^ b + m = 2 ^ b - 1 + (m + 1) := by omega
    have hrest := ih (m := m + 1) (by omega)
    rw [← hstep, bucket_wrap] at hrest
    simp only [shift, hnext, Nat.and_two_pow_sub_one_eq_mod]
    cases hocc : slots (bucket (2 ^ b) x m) with
    | none => rfl
    | some a =>
      by_cases hmt : m = th
      · -- The walk is back at the slot it started from, which is still the hole.
        have hself : dist (bucket (2 ^ b) x m) (bucket (2 ^ b) x th) = 0 := by
          rw [hmt, back.ranks_le le_rfl (by omega), Nat.sub_self]
        have hsame : update slots (bucket (2 ^ b) x th) (some a) = slots := by
          rw [← hocc, hmt, update_eq_self]
        have hnone : fuel = 0 := by omega
        simp only [hself, Nat.zero_le, if_true, hsame, hnone, shift]
        rw [hmt]
      · rw [shifting.read m (by omega) hmt] at hocc
        obtain ⟨s, hs, hhome, _⟩ := shifting.low m (by omega) a hocc
        simp only [← hhome]
        rw [back.ranks_le hs (by omega), back.ranks (by omega), Nat.mod_eq_of_lt (by omega),
          if_neg (by omega), hrest]

theorem shift_spec (back : Back (2 ^ b) dist)
    (shifting : Shifting hash b x t₀ rest slots line th tj) :
    ∃ slots' line' th', shift (2 ^ b) dist hash (2 ^ b - 1 - tj + (t₀ + 1)) slots
        (bucket (2 ^ b) x th) (bucket (2 ^ b) x tj) = (slots', bucket (2 ^ b) x th') ∧
      Shifting hash b x t₀ rest slots' line' th' (2 ^ b - 1) := by
  -- The walk up to the cut, by the number of ranks still ahead.
  induction hleft : 2 ^ b - 1 - tj generalizing slots line th tj with
  | zero =>
    have htj : tj = 2 ^ b - 1 := by have := shifting.inside; omega
    subst htj
    refine ⟨slots, line, th, ?_, shifting⟩
    have hwrap := shift_wrapped back shifting (t₀ + 1) (m := 0) (by omega)
    simpa only [Nat.add_zero, Nat.zero_add] using hwrap
  | succ left ih =>
    have hhole := shifting.hole_le
    have hnext : tj + 1 < 2 ^ b := by omega
    have hfuel : left + 1 + (t₀ + 1) = left + (t₀ + 1) + 1 := by omega
    rw [hfuel, shift]
    simp only [bucket_next, Nat.and_two_pow_sub_one_eq_mod, shifting.read (tj + 1) hnext (by omega)]
    cases hocc : line (tj + 1) with
    | none => exact ⟨slots, line, th, rfl, shifting.gap hnext hocc⟩
    | some a =>
      obtain ⟨s, hs, hhome, between⟩ := shifting.high (tj + 1) (by omega) hnext a hocc
      simp only [← hhome]
      rw [back.ranks_le hs hnext, back.ranks_le (by omega) hnext]
      by_cases hpull : s ≤ th
      · rw [if_pos (by omega)]
        exact ih (shifting.pull hnext hocc hpull hhome between) (by omega)
      · rw [if_neg (by omega)]
        exact ih (shifting.stay hnext hocc (by omega) hs hhome between) (by omega)

theorem Cut.shifting (cut : Cut b hash slots x) (ht₀ : t₀ < 2 ^ b) :
    ∃ line, line = update (fun t => slots (bucket (2 ^ b) (x + 1) t)) t₀ none ∧
      Shifting hash b (x + 1) t₀ (contents (2 ^ b) line) slots line t₀ t₀ := by
  refine ⟨_, rfl, le_rfl, le_rfl, ht₀, ?_, update_self .., ?_, ?_, .refl _⟩
  · intro t _ hne
    rw [update_of_ne hne]
  · intro t ht a hocc
    have hne : t ≠ t₀ := by
      rintro rfl
      rw [update_self] at hocc
      cases hocc
    rw [update_of_ne hne] at hocc
    refine (cut t (by omega) a hocc).imp fun r hr busy => ?_
    rwa [update_of_ne (by omega)]
  · intro t htj ht a hocc
    rw [update_of_ne (by omega)] at hocc
    refine (cut t ht a hocc).imp fun r _ busy => ?_
    by_cases h : r = t₀
    · exact .inl h
    · rw [update_of_ne h]
      exact .inr busy

theorem Shifting.vacated (shifting : Shifting hash b (x + 1) t₀ rest slots line th (2 ^ b - 1)) :
    Cut b hash (update slots (bucket (2 ^ b) (x + 1) th) none) x ∧
      (contents (2 ^ b) (update slots (bucket (2 ^ b) (x + 1) th) none)).Perm rest := by
  have hth : th < 2 ^ b := by
    have := shifting.hole_le
    have := shifting.inside
    omega
  have read : ∀ t < 2 ^ b, update slots (bucket (2 ^ b) (x + 1) th) none
      (bucket (2 ^ b) (x + 1) t) = line t := by
    intro t ht
    by_cases h : t = th
    · rw [h, update_self, shifting.hole]
    · rw [update_of_ne, shifting.read t ht h]
      exact fun same => h (bucket_inj ht hth same)
  constructor
  · intro t ht a ha
    rw [read t ht] at ha
    refine (shifting.low t (by omega) a ha).imp fun r hr busy => ?_
    rwa [read r (by omega)]
  · have same := contents_line b (x + 1) (update slots (bucket (2 ^ b) (x + 1) th) none)
    rw [contents_congr read] at same
    exact same.symm.trans shifting.kept

/-- The removal of the entry of slot `hole`: the table stays searchable and loses
that entry only. -/
theorem Chained.vacate {key : α → K} {home : K → Nat} (chained : Chained key home b slots)
    (back : Back (2 ^ b) dist) {hole : Nat} (hhole : hole < 2 ^ b) (hocc : slots hole = some a) :
    Chained key home b (BackShift.vacate (2 ^ b) dist (fun a => home (key a)) slots hole) ∧
      (contents (2 ^ b) slots).Perm (a ::
        contents (2 ^ b) (BackShift.vacate (2 ^ b) dist (fun a => home (key a)) slots hole)) := by
  obtain ⟨x, hx, cut⟩ := chained
  obtain ⟨t₀, ht₀, hrank⟩ := bucket_surj (h := x + 1) hhole
  obtain ⟨line, hline, walking⟩ := cut.shifting ht₀
  obtain ⟨slots', line', th, hshift, walked⟩ := shift_spec back walking
  have hfuel : 2 ^ b - 1 - t₀ + (t₀ + 1) = 2 ^ b := by omega
  rw [hfuel, hrank] at hshift
  have hvacate : BackShift.vacate (2 ^ b) dist (fun a => home (key a)) slots hole =
      update slots' (bucket (2 ^ b) (x + 1) th) none := by
    simp only [BackShift.vacate, hshift]
  obtain ⟨cut', perm⟩ := walked.vacated
  rw [hvacate]
  refine ⟨⟨x, hx, cut'⟩, ?_⟩
  have held : slots (bucket (2 ^ b) (x + 1) t₀) = some a := by rw [hrank, hocc]
  have taken := @contents_take _ _ (fun t => slots (bucket (2 ^ b) (x + 1) t)) _ ht₀ _ held
  rw [← hline] at taken
  exact (contents_line b (x + 1) slots).symm.trans (taken.trans (perm.symm.cons a))

end Removing

end BackShift
