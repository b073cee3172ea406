import Mathlib.Data.Multiset.Basic
import Mathlib.Data.Multiset.MapFold
import Mathlib.Logic.Relation

/-!
# One-shot tokens under generations

A key is armed again and again, each time with a token of a new generation, and a token is
used up when it comes back. Some generation of a key may be its current one. Tokens of other
generations may still be under way, so what comes back is compared with the current
generation: if it is the same the token is held, and then put back, and otherwise it is
dropped.
-/

namespace OneShot

open Function Multiset

structure Token (K R : Type) where
  key : K
  gen : Nat
  tag : R

/-- What is armed: the last generation of each key, the current one with its tag, the tokens
under way and the one that is held. -/
structure Arms (K R : Type) where
  last : K → Nat
  current : K → Option (Nat × R)
  tokens : Multiset (Token K R)
  held : Option (Token K R)

variable {K R : Type} (a : Arms K R)

def Arms.all : Multiset (Token K R) := ↑a.held.toList + a.tokens

def Arms.Stale (t : Token K R) : Prop := ∀ r, a.current t.key ≠ some (t.gen, r)

section Operations

variable [DecidableEq K]

def Arms.arm (a : Arms K R) (k : K) (r : R) : Arms K R :=
  { a with
    last := update a.last k (a.last k + 1)
    tokens := ⟨k, a.last k + 1, r⟩ ::ₘ a.tokens }

def Arms.publish (a : Arms K R) (k : K) (r : R) : Arms K R :=
  { a with current := update a.current k (some (a.last k, r)) }

def Arms.retire (a : Arms K R) (k : K) : Arms K R :=
  { a with current := update a.current k none }

/-- What can happen to the tokens; a lossy step may drop the held token of a current
generation. -/
inductive Arms.Step (lossy : Prop) : Arms K R → Arms K R → Prop
  | arm (a : Arms K R) (k : K) (r : R) : Step lossy a (a.arm k r)
  | renew (a : Arms K R) (k : K) (r : R) : Step lossy a ((a.arm k r).publish k r)
  | retire (a : Arms K R) (k : K) : Step lossy a (a.retire k)
  | discard (a : Arms K R) (t : Token K R) (rest : Multiset (Token K R))
      (taken : a.tokens = t ::ₘ rest) (stale : a.Stale t) : Step lossy a { a with tokens := rest }
  | hold (a : Arms K R) (t : Token K R) (rest : Multiset (Token K R)) (idle : a.held = none)
      (taken : a.tokens = t ::ₘ rest) : Step lossy a { a with tokens := rest, held := some t }
  | restore (a : Arms K R) (t : Token K R) (r : R) (held : a.held = some t)
      (fits : a.current t.key = some (t.gen, r)) :
      Step lossy a { a with tokens := ⟨t.key, t.gen, r⟩ ::ₘ a.tokens, held := none }
  | release (a : Arms K R) (t : Token K R) (held : a.held = some t) (stale : a.Stale t) :
      Step lossy a { a with held := none }
  | lose (a : Arms K R) (t : Token K R) (held : a.held = some t) (drops : lossy) :
      Step lossy a { a with held := none }

end Operations

/-- No generation is used twice: the current generations and those of the tokens are not
after the last one, no two tokens have the same, and a token of the current generation has
its tag. -/
structure Arms.Fresh (a : Arms K R) : Prop where
  current_le : ∀ k g r, a.current k = some (g, r) → g ≤ a.last k
  token_le : ∀ t ∈ a.all, t.gen ≤ a.last t.key
  distinct : (a.all.map fun t => (t.key, t.gen)).Nodup
  same : ∀ t ∈ a.all, ∀ r, a.current t.key = some (t.gen, r) → t.tag = r

def Arms.Alive : Prop :=
  ∀ k g r, a.current k = some (g, r) → ∃ t ∈ a.all, t.key = k ∧ t.gen = g

variable {a : Arms K R}

section Tokens

variable {t : Token K R} {rest : Multiset (Token K R)}

theorem Arms.last_arm [DecidableEq K] (a : Arms K R) (k : K) (r : R) :
    (a.arm k r).last k = a.last k + 1 := by
  simp only [arm, update_self]

theorem Arms.all_arm [DecidableEq K] (a : Arms K R) (k : K) (r : R) :
    (a.arm k r).all = ⟨k, a.last k + 1, r⟩ ::ₘ a.all := by
  rw [all, arm, add_cons, all]

theorem Arms.all_hold (idle : a.held = none) (taken : a.tokens = t ::ₘ rest) :
    ({ a with tokens := rest, held := some t } : Arms K R).all = a.all := by
  simp [all, idle, taken]

theorem Arms.all_put (held : a.held = some t) :
    ({ a with tokens := t ::ₘ a.tokens, held := none } : Arms K R).all = a.all := by
  simp [all, held]

theorem Arms.all_discard (taken : a.tokens = t ::ₘ rest) :
    a.all = t ::ₘ ({ a with tokens := rest } : Arms K R).all := by
  simp [all, taken]

theorem Arms.all_release (held : a.held = some t) :
    a.all = t ::ₘ ({ a with held := none } : Arms K R).all := by
  simp [all, held]

end Tokens

section Fresh

variable {b : Arms K R} {r : R} {k j : K}

theorem Arms.Fresh.fewer (fresh : a.Fresh) (last : b.last = a.last)
    (current : b.current = a.current) (fewer : b.all ≤ a.all) : b.Fresh := by
  constructor
  · rw [last, current]
    exact fresh.current_le
  · intro t mem
    rw [last]
    exact fresh.token_le t (mem_of_le fewer mem)
  · exact nodup_of_le (map_le_map fewer) fresh.distinct
  · rw [current]
    exact fun t mem => fresh.same t (mem_of_le fewer mem)

theorem Arms.Fresh.restored {t : Token K R} (fresh : a.Fresh) (held : a.held = some t)
    (fits : a.current t.key = some (t.gen, r)) : (⟨t.key, t.gen, r⟩ : Token K R) = t := by
  have mem : t ∈ a.all := by simp [Arms.all, held]
  rw [← fresh.same t mem r fits]

variable [DecidableEq K] {x : Nat × R} {lossy : Prop}

theorem Arms.current_publish (now : (a.publish k r).current j = some x) :
    j = k ∧ x = (a.last k, r) ∨ a.current j = some x := by
  by_cases own : j = k
  · subst own
    simp only [publish, update_self, Option.some.injEq] at now
    exact .inl ⟨rfl, now.symm⟩
  · simp only [publish, update_of_ne own] at now
    exact .inr now

theorem Arms.current_retire (now : (a.retire k).current j = some x) : a.current j = some x := by
  by_cases own : j = k
  · subst own
    simp [retire] at now
  · simpa only [retire, update_of_ne own] using now

variable (fresh : a.Fresh)
include fresh

theorem Arms.Fresh.arm (k : K) (r : R) : (a.arm k r).Fresh := by
  have later : ∀ j, a.last j ≤ (a.arm k r).last j := by
    intro j
    by_cases own : j = k
    · subst own
      simp [Arms.arm]
    · simp [Arms.arm, own]
  constructor
  · intro j g r' now
    exact (fresh.current_le j g r' now).trans (later j)
  · intro t mem
    rw [Arms.all_arm, mem_cons] at mem
    rcases mem with rfl | mem
    · exact (a.last_arm k r).ge
    · exact (fresh.token_le t mem).trans (later _)
  · rw [Arms.all_arm, map_cons, nodup_cons]
    refine ⟨?_, fresh.distinct⟩
    intro mem
    obtain ⟨t, there, equal⟩ := mem_map.mp mem
    have known := fresh.token_le t there
    simp only [Prod.mk.injEq] at equal
    rw [equal.1, equal.2] at known
    omega
  · intro t mem r' now
    rw [Arms.all_arm, mem_cons] at mem
    rcases mem with rfl | mem
    · have bound : a.last k + 1 ≤ a.last k := fresh.current_le _ _ _ now
      omega
    · exact fresh.same t mem r' now

theorem Arms.Fresh.renew (k : K) (r : R) : ((a.arm k r).publish k r).Fresh := by
  have armed := fresh.arm k r
  refine ⟨?_, armed.token_le, armed.distinct, ?_⟩
  · intro j g r' now
    rcases Arms.current_publish now with ⟨rfl, new⟩ | old
    · exact (congrArg Prod.fst new).le
    · exact armed.current_le j g r' old
  · intro t mem r' now
    rcases Arms.current_publish now with ⟨own, new⟩ | old
    · simp only [Prod.mk.injEq] at new
      rw [new.2]
      -- an older token of the key has a smaller generation
      rcases mem_cons.mp (Arms.all_arm a k r ▸ mem : t ∈ _ ::ₘ a.all) with rfl | older
      · rfl
      · have bound := fresh.token_le t older
        rw [own, new.1, Arms.last_arm] at bound
        omega
    · exact armed.same t mem r' old

theorem Arms.Fresh.retire (k : K) : (a.retire k).Fresh :=
  ⟨fun j g r now => fresh.current_le j g r (Arms.current_retire now), fresh.token_le,
    fresh.distinct, fun t mem r now => fresh.same t mem r (Arms.current_retire now)⟩

theorem Arms.Fresh.step (step : Arms.Step lossy a b) : b.Fresh := by
  cases step with
  | arm k r => exact fresh.arm k r
  | renew k r => exact fresh.renew k r
  | retire k => exact fresh.retire k
  | discard t rest taken _ =>
    exact fresh.fewer rfl rfl (Arms.all_discard taken ▸ le_cons_self _ _)
  | hold t rest idle taken => exact fresh.fewer rfl rfl (Arms.all_hold idle taken).le
  | restore t r held fits =>
    refine fresh.fewer rfl rfl ?_
    rw [fresh.restored held fits, Arms.all_put held]
  | release t held _ | lose t held _ =>
    exact fresh.fewer rfl rfl (Arms.all_release held ▸ le_cons_self _ _)

theorem Arms.Fresh.steps (steps : Relation.ReflTransGen (Arms.Step lossy) a b) : b.Fresh := by
  induction steps with
  | refl => exact fresh
  | tail _ step ih => exact ih.step step

end Fresh

section Alive

variable {b : Arms K R}

theorem Arms.Alive.more (alive : a.Alive)
    (current : ∀ k x, b.current k = some x → a.current k = some x) (more : ∀ t ∈ a.all, t ∈ b.all) :
    b.Alive := by
  intro k g r now
  obtain ⟨t, mem, key, gen⟩ := alive k g r (current k _ now)
  exact ⟨t, more t mem, key, gen⟩

theorem Arms.Alive.without {t : Token K R} (alive : a.Alive) (stale : a.Stale t)
    (current : b.current = a.current) (all : a.all = t ::ₘ b.all) : b.Alive := by
  intro k g r now
  rw [current] at now
  obtain ⟨u, mem, key, gen⟩ := alive k g r now
  rw [all, mem_cons] at mem
  rcases mem with rfl | mem
  · subst key gen
    exact absurd now (stale r)
  · exact ⟨u, mem, key, gen⟩

variable [DecidableEq K] {lossy : Prop}

theorem Arms.Alive.renew (alive : a.Alive) (k : K) (r : R) : ((a.arm k r).publish k r).Alive := by
  have all : ((a.arm k r).publish k r).all = ⟨k, a.last k + 1, r⟩ ::ₘ a.all := Arms.all_arm a k r
  intro j g r' now
  rw [all]
  rcases Arms.current_publish now with ⟨rfl, new⟩ | old
  · simp only [Arms.last_arm, Prod.mk.injEq] at new
    exact ⟨_, mem_cons_self _ _, rfl, new.1.symm⟩
  · obtain ⟨t, there, key, gen⟩ := alive j g r' old
    exact ⟨t, mem_cons_of_mem there, key, gen⟩

theorem Arms.Alive.step (alive : a.Alive) (fresh : a.Fresh) (step : Arms.Step lossy a b)
    (sure : ¬lossy) : b.Alive := by
  cases step with
  | arm k r =>
    refine alive.more (fun _ _ now => now) fun t mem => ?_
    rw [Arms.all_arm]
    exact mem_cons_of_mem mem
  | renew k r => exact alive.renew k r
  | retire k => exact alive.more (fun _ _ now => Arms.current_retire now) fun t mem => mem
  | discard t rest taken stale => exact alive.without stale rfl (Arms.all_discard taken)
  | hold t rest idle taken =>
    refine alive.more (fun _ _ now => now) fun t mem => ?_
    rwa [Arms.all_hold idle taken]
  | restore t r held fits =>
    refine alive.more (fun _ _ now => now) fun u mem => ?_
    rwa [fresh.restored held fits, Arms.all_put held]
  | release t held stale => exact alive.without stale rfl (Arms.all_release held)
  | lose t held drops => exact absurd drops sure

theorem Arms.Alive.steps (alive : a.Alive) (fresh : a.Fresh)
    (steps : Relation.ReflTransGen (Arms.Step lossy) a b) (sure : ¬lossy) : b.Alive := by
  induction steps with
  | refl => exact alive
  | tail before step ih => exact ih.step (fresh.steps before) step sure

end Alive

end OneShot
