import Kith.Base
import Kith.Lib.Runs
import Mathlib.Data.Int.CardIntervalMod

/-!
# The random generator

Handles are created from a seed or derived from a parent by a key, drawn from, and
restored from states of the caller. A handle and a captured state have the same
fields. The rejection loop of a bounded draw runs on fuel: without enough of it the
call has not returned.
-/

namespace Kith.Util

open Runs Function

section Generator

structure Words where
  w0 : UInt64
  w1 : UInt64
  w2 : UInt64
  w3 : UInt64
  deriving DecidableEq

/-- `struct kith_rng`, and `kith_rng_state_t`. -/
structure Rng where
  derivationSeed : UInt64
  words : Words
  deriving DecidableEq

def mix64 (z : UInt64) : UInt64 :=
  let z := (z ^^^ (z >>> 30)) * 0xBF58476D1CE4E5B9
  let z := (z ^^^ (z >>> 27)) * 0x94D049BB133111EB
  z ^^^ (z >>> 31)

def rotl45 (x : UInt64) : UInt64 := (x <<< 45) ||| (x >>> 19)

def rngExpand (seed : UInt64) : Rng :=
  let z0 := seed + 0x9E3779B97F4A7C15
  let z1 := z0 + 0x9E3779B97F4A7C15
  let z2 := z1 + 0x9E3779B97F4A7C15
  let z3 := z2 + 0x9E3779B97F4A7C15
  ⟨seed, mix64 z0, mix64 z1, mix64 z2, mix64 z3⟩

def Words.advance (w : Words) : Words :=
  let t := w.w1 <<< 17
  let w2 := w.w2 ^^^ w.w0
  let w3 := w.w3 ^^^ w.w1
  let w1 := w.w1 ^^^ w2
  let w0 := w.w0 ^^^ w3
  ⟨w0, w1, w2 ^^^ t, rotl45 w3⟩

/-- The word is computed from the state behind the update. -/
def rngDraw (r : Rng) : UInt64 × Rng :=
  (rotl45 (r.words.advance.w1 * 5) * 9, { r with words := r.words.advance })

/-- `kith_rng_params_t`, without its reserved fields. -/
structure RngParams where
  size : UInt32
  abiVersion : UInt32
  seed : UInt64

/-- `memory` is the error of the allocator, in its check or in the request. -/
def kithRngCreate (params : Option RngParams) (memory : Option KithError) : Except KithError Rng :=
  match params with
  | none => .error .einval
  | some params =>
    if params.abiVersion ≠ 1 then .error .eabiver
    else if params.size < 80 then .error .esize
    else
      match memory with
      | some code => .error code
      | none => .ok (rngExpand params.seed)

def kithRngCreateStream (parent : Rng) (streamKey : UInt64) (memory : Option KithError) :
    Except KithError Rng :=
  match memory with
  | some code => .error code
  | none => .ok (rngExpand (mix64 (parent.derivationSeed ^^^ mix64 streamKey)))

def kithRngNext (r : Rng) : UInt64 × Rng := rngDraw r

def belowThreshold (bound : UInt64) : UInt64 := (0xFFFFFFFFFFFFFFFF - bound + 1) % bound

/-- Draws until a word is not below the threshold; no word when the fuel runs out. -/
def drawAccepted (threshold : UInt64) : Nat → Rng → Option UInt64 × Rng
  | 0, r => (none, r)
  | fuel + 1, r =>
    if (rngDraw r).1 < threshold then drawAccepted threshold fuel (rngDraw r).2
    else (some (rngDraw r).1, (rngDraw r).2)

def kithRngNextBelow (fuel : Nat) (r : Rng) (bound : UInt64) : Option UInt64 × Rng :=
  if bound < 2 then (some 0, r)
  else if bound &&& (bound - 1) = 0 then (some ((rngDraw r).1 &&& (bound - 1)), (rngDraw r).2)
  else
    let (word, r) := drawAccepted (belowThreshold bound) fuel r
    (word.map (· % bound), r)

def kithRngStateSave (r : Rng) : Rng := r

def kithRngStateRestore (r state : Rng) : Rc × Rng :=
  if state = ⟨0, 0, 0, 0, 0⟩ then (.err .einval, r) else (.ok, state)

/-- The handle behind `n` draws. -/
def drawn (n : Nat) (r : Rng) : Rng := (fun r => (kithRngNext r).2)^[n] r

/-- The `n`-th word drawn from a handle, counted from zero. -/
def nthDraw (n : Nat) (r : Rng) : UInt64 := (kithRngNext (drawn n r)).1

inductive RngOp
  | create (params : Option RngParams) (memory : Option KithError)
  | createStream (parent : Nat) (streamKey : UInt64) (memory : Option KithError)
  | next (rng : Nat)
  | nextBelow (rng : Nat) (bound : UInt64) (fuel : Nat)
  | save (rng : Nat)
  | restore (rng : Nat) (state : Rng)

def opened (handles : List Rng) : Except KithError Rng → List Rng
  | .ok r => handles ++ [r]
  | .error _ => handles

/-- The handles behind one call. A handle is named by the order of creation, and a
number that is none's is the null handle, which no call changes. -/
def rngStep (handles : List Rng) : RngOp → List Rng
  | .create params memory => opened handles (kithRngCreate params memory)
  | .createStream parent key memory =>
    match handles[parent]? with
    | none => handles
    | some p => opened handles (kithRngCreateStream p key memory)
  | .next h => handles.modify h fun r => (kithRngNext r).2
  | .nextBelow h bound fuel => handles.modify h fun r => (kithRngNextBelow fuel r bound).2
  | .save _ => handles
  | .restore h state => handles.modify h fun r => (kithRngStateRestore r state).2

end Generator

section Mixing

theorem eq_of_xor_shiftRight {x y s : UInt64} (shifts : 0 < s.toNat % 64)
    (same : x ^^^ (x >>> s) = y ^^^ (y >>> s)) : x = y := by
  -- the difference of the two is its own shift
  have fixed : (x ^^^ y) >>> s = x ^^^ y := by
    rw [UInt64.shiftRight_xor, ← UInt64.xor_eq_zero_iff]
    calc x >>> s ^^^ y >>> s ^^^ (x ^^^ y) = x ^^^ (x >>> s) ^^^ (y ^^^ (y >>> s)) := by ac_rfl
      _ = 0 := by rw [same, UInt64.xor_self]
  have least := congrArg UInt64.toNat fixed
  rw [UInt64.toNat_shiftRight, Nat.shiftRight_eq_div_pow] at least
  rw [← UInt64.xor_eq_zero_iff, ← UInt64.toNat_inj]
  by_contra positive
  have smaller := Nat.div_lt_self (Nat.pos_of_ne_zero positive) (Nat.one_lt_two_pow shifts.ne')
  omega

theorem mix64_injective : Injective mix64 := by
  intro x y same
  have last := eq_of_xor_shiftRight (by decide) same
  generalize first : (x ^^^ (x >>> 30)) * 0xBF58476D1CE4E5B9 = x' at last
  generalize second : (y ^^^ (y >>> 30)) * 0xBF58476D1CE4E5B9 = y' at last
  -- both multipliers are odd
  have middle : x' = y' := eq_of_xor_shiftRight (s := 27) (by decide) (by grind)
  exact eq_of_xor_shiftRight (s := 30) (by decide) (by grind)

theorem mix64_eq_zero {z : UInt64} (zero : mix64 z = 0) : z = 0 := mix64_injective zero

theorem rotl45_eq_zero {x : UInt64} (zero : rotl45 x = 0) : x = 0 := by
  obtain ⟨high, low⟩ := UInt64.or_eq_zero_iff.mp zero
  have high := congrArg UInt64.toNat high
  have low := congrArg UInt64.toNat low
  rw [UInt64.toNat_shiftLeft, Nat.shiftLeft_eq] at high
  rw [UInt64.toNat_shiftRight, Nat.shiftRight_eq_div_pow] at low
  change x.toNat * 2 ^ 45 % 2 ^ 64 = 0 at high
  change x.toNat / 2 ^ 19 = 0 at low
  apply UInt64.toNat_inj.mp
  change x.toNat = 0
  omega

theorem eq_zero_of_shiftLeft {x : UInt64} (fixed : x <<< 17 = x) : x = 0 := by
  have moved := congrArg UInt64.toNat fixed
  rw [UInt64.toNat_shiftLeft, Nat.shiftLeft_eq] at moved
  change x.toNat * 2 ^ 17 % 2 ^ 64 = x.toNat at moved
  apply UInt64.toNat_inj.mp
  change x.toNat = 0
  omega

end Mixing

section Alive

variable {r : Rng} {w : Words}

theorem advance_eq_zero (zero : w.advance = ⟨0, 0, 0, 0⟩) : w = ⟨0, 0, 0, 0⟩ := by
  obtain ⟨w0, w1, w2, w3⟩ := w
  obtain ⟨first, second, third, fourth⟩ := Words.mk.inj zero
  dsimp only at first second third fourth
  have last := rotl45_eq_zero fourth
  rw [last, UInt64.xor_zero] at first
  subst first
  rw [UInt64.xor_zero] at second third
  have same := UInt64.xor_eq_zero_iff.mp second
  have shifted := UInt64.xor_eq_zero_iff.mp third
  have none := eq_zero_of_shiftLeft (shifted.symm.trans same.symm)
  subst none
  rw [UInt64.xor_zero] at last
  rw [← same, last]

theorem advance_of_w1 (zero : w.w1 = 0) :
    w.advance = ⟨w.w0 ^^^ w.w3, w.w2 ^^^ w.w0, w.w2 ^^^ w.w0, rotl45 w.w3⟩ := by
  simp [Words.advance, zero]

/-- A second word that stays zero over three updates is that of the dead state. -/
theorem eq_zero_of_w1 (zero : w.w1 = 0) (one : w.advance.w1 = 0) (two : w.advance.advance.w1 = 0)
    (three : w.advance.advance.advance.w1 = 0) : w = ⟨0, 0, 0, 0⟩ := by
  obtain ⟨w0, w1, w2, w3⟩ := w
  subst zero
  have first : (Words.mk w0 0 w2 w3).advance = _ := advance_of_w1 rfl
  rw [first] at one two three
  dsimp only at one two three
  have second : (Words.mk (w0 ^^^ w3) 0 0 (rotl45 w3)).advance = _ := advance_of_w1 rfl
  rw [one, second] at two three
  dsimp only at two three
  rw [UInt64.zero_xor] at two three
  have third : (Words.mk (rotl45 w3) 0 0 (rotl45 (rotl45 w3))).advance = _ := advance_of_w1 rfl
  rw [two, UInt64.zero_xor, third] at three
  have last := rotl45_eq_zero (UInt64.zero_xor.symm.trans three)
  subst last
  rw [UInt64.xor_zero] at two
  rw [two, UInt64.xor_zero] at one
  rw [one, two]

theorem advance_w1_eq_zero (zero : (rngDraw r).1 = 0) : r.words.advance.w1 = 0 := by
  have turned : rotl45 (r.words.advance.w1 * 5) = 0 := by
    change rotl45 _ * 9 = 0 at zero
    grind
  have times := rotl45_eq_zero turned
  grind

theorem drawn_seed (n : Nat) : (drawn n r).derivationSeed = r.derivationSeed := by
  induction n with
  | zero => rfl
  | succ n ih =>
    rw [drawn, iterate_succ_apply']
    exact ih

theorem drawn_alive (alive : r.words ≠ ⟨0, 0, 0, 0⟩) (n : Nat) :
    (drawn n r).words ≠ ⟨0, 0, 0, 0⟩ := by
  induction n with
  | zero => exact alive
  | succ n ih =>
    rw [drawn, iterate_succ_apply']
    exact mt advance_eq_zero ih

/-- Four zero words in a row come from the dead state alone. -/
theorem exists_nthDraw_ne_zero (alive : r.words ≠ ⟨0, 0, 0, 0⟩) : ∃ k < 4, nthDraw k r ≠ 0 := by
  by_contra silent
  push Not at silent
  apply alive
  apply advance_eq_zero
  exact eq_zero_of_w1 (advance_w1_eq_zero (silent 0 (by decide)))
    (advance_w1_eq_zero (silent 1 (by decide))) (advance_w1_eq_zero (silent 2 (by decide)))
    (advance_w1_eq_zero (silent 3 (by decide)))

theorem rngExpand_alive (seed : UInt64) : (rngExpand seed).words ≠ ⟨0, 0, 0, 0⟩ := by
  intro dead
  obtain ⟨first, second, _⟩ := Words.mk.inj dead
  have start := mix64_eq_zero first
  have later := mix64_eq_zero second
  rw [start] at later
  exact absurd later (by decide)

theorem drawAccepted_state (threshold : UInt64) (fuel : Nat) (r : Rng) :
    ∃ n, (drawAccepted threshold fuel r).2 = drawn n r := by
  induction fuel generalizing r with
  | zero => exact ⟨0, rfl⟩
  | succ fuel ih =>
    rw [drawAccepted]
    split
    · obtain ⟨n, later⟩ := ih (rngDraw r).2
      exact ⟨n + 1, later⟩
    · exact ⟨1, rfl⟩

theorem kithRngNextBelow_state (fuel : Nat) (r : Rng) (bound : UInt64) :
    ∃ n, (kithRngNextBelow fuel r bound).2 = drawn n r := by
  rw [kithRngNextBelow]
  split
  · exact ⟨0, rfl⟩
  · split
    · exact ⟨1, rfl⟩
    · exact drawAccepted_state ..

end Alive

section Calls

variable {handles : List Rng} {i : Nat} {r r' : Rng} {memory : Option KithError}

theorem kithRngCreate_ok {params : Option RngParams}
    (made : kithRngCreate params memory = .ok r') : ∃ seed, r' = rngExpand seed := by
  unfold kithRngCreate at made
  split at made
  · cases made
  · repeat' split at made
    all_goals cases made
    exact ⟨_, rfl⟩

theorem kithRngCreateStream_ok {key : UInt64} (made : kithRngCreateStream r key memory = .ok r') :
    r' = rngExpand (mix64 (r.derivationSeed ^^^ mix64 key)) := by
  cases memory with
  | none => exact (Except.ok.inj made).symm
  | some code => cases made

variable {made : Except KithError Rng}

theorem opened_old (old : handles[i]? = some r) : (opened handles made)[i]? = some r := by
  cases made with
  | error code => exact old
  | ok new => rw [opened, List.getElem?_append_left (List.getElem?_eq_some_iff.mp old).1, old]

theorem rngStep_old (op : RngOp) (old : handles[i]? = some r) :
    ∃ r', (rngStep handles op)[i]? = some r' ∧
      ((∃ n, r' = drawn n r) ∨ op = .restore i r' ∧ r' ≠ ⟨0, 0, 0, 0, 0⟩) := by
  have stays : ∃ r', handles[i]? = some r' ∧
      ((∃ n, r' = drawn n r) ∨ op = .restore i r' ∧ r' ≠ ⟨0, 0, 0, 0, 0⟩) :=
    ⟨r, old, .inl ⟨0, rfl⟩⟩
  have modified (h : Nat) (f : Rng → Rng) :
      (handles.modify h f)[i]? = some (if h = i then f r else r) := by
    rw [List.getElem?_modify, old]
    rfl
  cases op with
  | create params memory => exact ⟨r, opened_old old, .inl ⟨0, rfl⟩⟩
  | createStream parent key memory =>
    rw [rngStep]
    split
    · exact stays
    · exact ⟨r, opened_old old, .inl ⟨0, rfl⟩⟩
  | next h =>
    refine ⟨_, modified h _, .inl ?_⟩
    split
    · exact ⟨1, rfl⟩
    · exact ⟨0, rfl⟩
  | nextBelow h bound fuel =>
    refine ⟨_, modified h _, .inl ?_⟩
    split
    · exact kithRngNextBelow_state fuel r bound
    · exact ⟨0, rfl⟩
  | save h => exact stays
  | restore h state =>
    refine ⟨_, modified h _, ?_⟩
    by_cases here : h = i
    · rw [if_pos here, here, kithRngStateRestore]
      split
      · exact .inl ⟨0, rfl⟩
      · exact .inr ⟨rfl, ‹_›⟩
    · rw [if_neg here]
      exact .inl ⟨0, rfl⟩

theorem opened_new (fresh : handles[i]? = none)
    (got : (opened handles made)[i]? = some r') : made = .ok r' := by
  cases made with
  | error code => cases fresh.symm.trans got
  | ok r =>
    rw [opened, List.getElem?_append_right (List.getElem?_eq_none_iff.mp fresh)] at got
    rw [List.mem_singleton.mp (List.mem_of_getElem? got)]

theorem rngStep_new {op : RngOp} (fresh : handles[i]? = none)
    (got : (rngStep handles op)[i]? = some r') :
    ∃ seed, r' = rngExpand seed := by
  have modified (h : Nat) (f : Rng → Rng) : (handles.modify h f)[i]? ≠ some r' := by
    rw [List.getElem?_modify, fresh]
    exact nofun
  cases op with
  | create params memory => exact kithRngCreate_ok (opened_new fresh got)
  | createStream parent key memory =>
    rw [rngStep] at got
    split at got
    · cases fresh.symm.trans got
    · exact ⟨_, kithRngCreateStream_ok (opened_new fresh got)⟩
  | next h | nextBelow h bound fuel | restore h state => exact absurd got (modified h _)
  | save h => cases fresh.symm.trans got

/-- What draws keep, and expanded seeds and restored states have, every handle has. -/
theorem path_forall {P : Rng → Prop} {guard : List Rng → RngOp → Prop}
    (draws : ∀ r n, P r → P (drawn n r)) (expands : ∀ seed, P (rngExpand seed))
    (restores : ∀ handles i state, guard handles (.restore i state) →
      state ≠ ⟨0, 0, 0, 0, 0⟩ → P state)
    (path : Path rngStep guard [] handles) : ∀ r ∈ handles, P r := by
  refine path.invariant (fun handles => ∀ r ∈ handles, P r) ?_ (by simp)
  intro handles op before allowed r' member
  obtain ⟨i, got⟩ := List.mem_iff_getElem?.mp member
  cases old : handles[i]? with
  | none =>
    obtain ⟨seed, rfl⟩ := rngStep_new old got
    exact expands seed
  | some r =>
    obtain ⟨_, got', ⟨n, rfl⟩ | ⟨rfl, accepted⟩⟩ := rngStep_old op old
    · cases got'.symm.trans got
      exact draws r n (before r (List.mem_of_getElem? old))
    · cases got'.symm.trans got
      exact restores handles i _ allowed accepted

end Calls

variable {r : Rng}

section Dead

/-- Four zero words are restored with the seed zero only, which the call refuses. -/
def RngOp.LeavesAlive : RngOp → Prop
  | .restore _ state => state.words = ⟨0, 0, 0, 0⟩ → state.derivationSeed = 0
  | _ => True

/-- As long as no dead state is restored, no handle is dead, and of any four words in
a row one is not zero. -/
theorem handles_alive {handles : List Rng}
    (path : Path rngStep (fun _ op => op.LeavesAlive) [] handles) (member : r ∈ handles) :
    r.words ≠ ⟨0, 0, 0, 0⟩ ∧ ∀ n, ∃ k < 4, nthDraw (k + n) r ≠ 0 := by
  have alive : r.words ≠ ⟨0, 0, 0, 0⟩ :=
    path_forall (P := fun r => r.words ≠ ⟨0, 0, 0, 0⟩) (fun r n alive => drawn_alive alive n)
      rngExpand_alive
        (fun _ _ _ allowed accepted dead => accepted (congrArg₂ Rng.mk (allowed dead) dead))
      path r member
  refine ⟨alive, fun n => ?_⟩
  obtain ⟨k, bound, word⟩ := exists_nthDraw_ne_zero (drawn_alive alive n)
  refine ⟨k, bound, ?_⟩
  rwa [nthDraw, drawn, drawn, ← iterate_add_apply] at word

theorem handles_alive_restored :
    let ops :=
      [.create (some ⟨80, 1, 7⟩) none, .restore 0 ⟨0, 0, 0, 0, 0⟩, .restore 0 ⟨0, 0, 1, 0, 0⟩]
    ops.foldl rngStep [] = [⟨0, 0, 1, 0, 0⟩] ∧
      ∀ n, ∃ k < 4, nthDraw (k + n) ⟨0, 0, 1, 0, 0⟩ ≠ 0 := by
  intro ops
  have allowed : Allowed rngStep (fun _ op => op.LeavesAlive) [] ops :=
    ⟨trivial, fun _ => rfl, nofun, trivial⟩
  exact ⟨rfl, (handles_alive allowed.path (List.mem_singleton_self _)).2⟩

/-- A restored handle that emits zeros only. -/
theorem dead_state_restored :
    let ops := [.create (some ⟨80, 1, 7⟩) none, .restore 0 ⟨1, 0, 0, 0, 0⟩]
    ops.foldl rngStep [] = [⟨1, 0, 0, 0, 0⟩] ∧ ∀ n, nthDraw n ⟨1, 0, 0, 0, 0⟩ = 0 := by
  refine ⟨rfl, fun n => ?_⟩
  have dead : drawn n ⟨1, 0, 0, 0, 0⟩ = ⟨1, 0, 0, 0, 0⟩ := iterate_fixed rfl n
  rw [nthDraw, dead]
  rfl

end Dead

section Streams

variable {handles : List Rng}

theorem drawn_eq_zero {n : Nat} (zero : drawn n r = ⟨0, 0, 0, 0, 0⟩) : r = ⟨0, 0, 0, 0, 0⟩ := by
  have seed := drawn_seed (r := r) n
  have words := mt (drawn_alive (r := r) · n) (not_not.mpr (congrArg Rng.words zero))
  rw [zero] at seed
  exact congrArg₂ Rng.mk seed.symm (not_not.mp words)

/-- Calls other than a restore leave the derivation seed of a handle alone. -/
theorem path_seed {later : List Rng} {i : Nat} (old : handles[i]? = some r)
    (path : Path rngStep (fun _ op => ∀ state, op ≠ .restore i state) handles later) :
    ∃ r', later[i]? = some r' ∧ r'.derivationSeed = r.derivationSeed := by
  refine path.invariant (fun later => ∃ r', later[i]? = some r' ∧
    r'.derivationSeed = r.derivationSeed) ?_ ⟨r, old, rfl⟩
  intro later op ⟨r₁, got, seed⟩ allowed
  obtain ⟨r', got', ⟨n, rfl⟩ | ⟨restored, _⟩⟩ := rngStep_old op got
  · exact ⟨_, got', (drawn_seed n).trans seed⟩
  · exact absurd restored (allowed r')

theorem stream_seed_injective (seed : UInt64) {key₁ key₂ : UInt64} (distinct : key₁ ≠ key₂) :
    mix64 (seed ^^^ mix64 key₁) ≠ mix64 (seed ^^^ mix64 key₂) := by
  intro same
  exact distinct (mix64_injective ((UInt64.xor_right_inj _).mp (mix64_injective same)))

theorem rngExpand_words_injective {seed₁ seed₂ : UInt64} (distinct : seed₁ ≠ seed₂) :
    (rngExpand seed₁).words ≠ (rngExpand seed₂).words := by
  intro same
  have first := mix64_injective (congrArg Words.w0 same)
  exact distinct ((UInt64.add_left_inj _).mp first)

/-- Streams of one parent under different keys are made and differ in seed and words; draws and
other streams do not change the stream of a key; and a captured state can be restored
into any handle, which then draws and derives as the captured one does. -/
theorem streams_derived (path : Path rngStep (fun _ _ => True) [] handles) {p : Nat} {r : Rng}
    (parent : handles[p]? = some r) :
    (∀ key₁ key₂, key₁ ≠ key₂ → ∃ c₁ c₂, kithRngCreateStream r key₁ none = .ok c₁ ∧
      kithRngCreateStream r key₂ none = .ok c₂ ∧
      c₁.derivationSeed ≠ c₂.derivationSeed ∧ c₁.words ≠ c₂.words) ∧
    (∀ later, Path rngStep (fun _ op => ∀ state, op ≠ .restore p state) handles later →
      ∃ r', later[p]? = some r' ∧
        ∀ key memory, kithRngCreateStream r' key memory = kithRngCreateStream r key memory) ∧
    ∀ other, ∃ twin, kithRngStateRestore other (kithRngStateSave r) = (.ok, twin) ∧
      (∀ n, nthDraw n twin = nthDraw n r) ∧
      (∀ fuel bound, kithRngNextBelow fuel twin bound = kithRngNextBelow fuel r bound) ∧
      ∀ n key memory, kithRngCreateStream (drawn n twin) key memory =
        kithRngCreateStream (drawn n r) key memory := by
  refine ⟨fun key₁ key₂ distinct => ?_, fun later calls => ?_, fun other => ?_⟩
  · have seeds := stream_seed_injective r.derivationSeed distinct
    exact ⟨_, _, rfl, rfl, seeds, rngExpand_words_injective seeds⟩
  · obtain ⟨r', got, seed⟩ := path_seed parent calls
    refine ⟨r', got, fun key memory => ?_⟩
    unfold kithRngCreateStream
    rw [seed]
  · have restorable : r ≠ ⟨0, 0, 0, 0, 0⟩ :=
      path_forall (P := (· ≠ ⟨0, 0, 0, 0, 0⟩)) (fun _ _ => mt drawn_eq_zero)
        (fun seed zero => rngExpand_alive seed (congrArg Rng.words zero))
        (fun _ _ _ _ accepted => accepted) path r (List.mem_of_getElem? parent)
    exact ⟨r, if_neg restorable, fun _ => rfl, fun _ _ => rfl, fun _ _ _ => rfl⟩

theorem streams_derived_root :
    kithRngCreate (some ⟨80, 1, 7⟩) none = .ok (rngExpand 7) ∧
    (∃ c₁ c₂, kithRngCreateStream (rngExpand 7) 1 none = .ok c₁ ∧
      kithRngCreateStream (rngExpand 7) 2 none = .ok c₂ ∧
      c₁.derivationSeed ≠ c₂.derivationSeed ∧ c₁.words ≠ c₂.words) ∧
    ∀ later, Path rngStep (fun _ op => ∀ state, op ≠ .restore 0 state) [rngExpand 7] later →
      ∃ r', later[0]? = some r' ∧ ∀ key memory,
        kithRngCreateStream r' key memory = kithRngCreateStream (rngExpand 7) key memory := by
  have path : Path rngStep (fun _ _ => True) [] [rngExpand 7] :=
    Path.step (RngOp.create (some ⟨80, 1, 7⟩) none) .start trivial
  obtain ⟨differ, stays, _⟩ := streams_derived path (p := 0) rfl
  exact ⟨rfl, differ 1 2 (by decide), stays⟩

end Streams

section Published

def rotl (x k : UInt64) : UInt64 := (x <<< k) ||| (x >>> (64 - k))

/-- The published generator: the word comes from the state before the update. -/
def xoshiroNext (w : Words) : UInt64 × Words :=
  let result := rotl (w.w1 * 5) 7 * 9
  let t := w.w1 <<< 17
  let w2 := w.w2 ^^^ w.w0
  let w3 := w.w3 ^^^ w.w1
  let w1 := w.w1 ^^^ w2
  let w0 := w.w0 ^^^ w3
  (result, ⟨w0, w1, w2 ^^^ t, rotl w3 45⟩)

def xoshiroWords : Nat → Words → List UInt64
  | 0, _ => []
  | n + 1, w => (xoshiroNext w).1 :: xoshiroWords n (xoshiroNext w).2

def drawnWords : Nat → Rng → List UInt64
  | 0, _ => []
  | n + 1, r => (kithRngNext r).1 :: drawnWords n (kithRngNext r).2

/-- The state of the published generator behind `n` words. -/
def xoshiroState : Nat → Words → Words
  | 0, w => w
  | n + 1, w => xoshiroState n (xoshiroNext w).2

/-- The one first word that goes with the second and the third; the factor is the inverse
of 5. -/
def Words.Agrees (w : Words) : Prop :=
  w.w0 = w.w1 ^^^ w.w2 ^^^ 0xCCCCCCCCCCCCCCCD * rotl (w.w1 * 5) 26

theorem rotl45_eq_iff (x y : UInt64) : rotl45 x = rotl y 7 ↔ x = rotl y 26 := by
  rw [← UInt64.toBitVec_inj, ← UInt64.toBitVec_inj]
  change x.toBitVec.rotateLeft 45 = y.toBitVec.rotateLeft 7 ↔ _ = y.toBitVec.rotateLeft 26
  constructor
  · intro same
    ext i small
    have there := congrArg (BitVec.getLsbD · ((i + 45) % 64)) same
    simp only [BitVec.getLsbD_rotateLeft, BitVec.getElem_rotateLeft] at there ⊢
    grind
  · intro same
    rw [same]
    ext i small
    simp only [BitVec.getElem_rotateLeft]
    grind

theorem next_eq_iff (r : Rng) : (kithRngNext r).1 = (xoshiroNext r.words).1 ↔ r.words.Agrees := by
  obtain ⟨_, w0, w1, w2, w3⟩ := r
  change rotl45 ((w1 ^^^ (w2 ^^^ w0)) * 5) * 9 = rotl (w1 * 5) 7 * 9 ↔ w0 = _
  calc rotl45 ((w1 ^^^ (w2 ^^^ w0)) * 5) * 9 = rotl (w1 * 5) 7 * 9
    _ ↔ rotl45 ((w1 ^^^ (w2 ^^^ w0)) * 5) = rotl (w1 * 5) 7 := by grind
    _ ↔ w1 ^^^ (w2 ^^^ w0) = 0xCCCCCCCCCCCCCCCD * rotl (w1 * 5) 26 := by
      rw [rotl45_eq_iff]
      grind
    _ ↔ w0 = w1 ^^^ w2 ^^^ 0xCCCCCCCCCCCCCCCD * rotl (w1 * 5) 26 := by
      rw [← UInt64.xor_eq_zero_iff, ← UInt64.xor_eq_zero_iff (a := w0)]
      ac_nf

/-- The first words of a handle are the published ones exactly when every state that the
published generator draws them from agrees. -/
theorem drawnWords_eq_iff (n : Nat) (r : Rng) :
    drawnWords n r = xoshiroWords n r.words ↔ ∀ k < n, (xoshiroState k r.words).Agrees := by
  induction n generalizing r with
  | zero => exact iff_of_true rfl nofun
  | succ n ih =>
    change _ :: _ = _ :: _ ↔ _
    rw [List.cons.injEq, next_eq_iff, Nat.forall_lt_succ_left]
    exact and_congr .rfl (ih (kithRngNext r).2)

theorem drawnWords_agree :
    drawnWords 1 ⟨0, 0, 1, 67108865, 0⟩ = xoshiroWords 1 ⟨0, 1, 67108865, 0⟩ := by
  refine (drawnWords_eq_iff 1 ⟨0, 0, 1, 67108865, 0⟩).mpr fun k first => ?_
  rw [Nat.lt_one_iff.mp first]
  rfl

theorem first_word_differs :
    drawnWords 1 ⟨0, 0, 1, 0, 0⟩ ≠ xoshiroWords 1 ⟨0, 1, 0, 0⟩ := by decide

end Published

section Below

/-- The words whose result a bounded draw returns. -/
def Accepts (bound word : UInt64) : Prop :=
  bound &&& (bound - 1) = 0 ∨ ¬ word < belowThreshold bound

instance (bound word : UInt64) : Decidable (Accepts bound word) := instDecidableOr

def belowResult (bound word : UInt64) : UInt64 :=
  if bound &&& (bound - 1) = 0 then word &&& (bound - 1) else word % bound

variable {bound : UInt64}

theorem drawAccepted_eq {threshold : UInt64} {fuel n : Nat}
    (rejected : ∀ k < n, nthDraw k r < threshold) (accepted : ¬ nthDraw n r < threshold)
    (enough : n < fuel) :
    drawAccepted threshold fuel r = (some (nthDraw n r), drawn (n + 1) r) := by
  induction fuel generalizing r n with
  | zero => exact absurd enough (Nat.not_lt_zero n)
  | succ fuel ih =>
    rw [drawAccepted]
    cases n with
    | zero => exact if_neg accepted
    | succ n =>
      have first : (rngDraw r).1 < threshold := rejected 0 (Nat.succ_pos n)
      rw [if_pos first]
      exact ih (fun k less => rejected (k + 1) (Nat.succ_lt_succ less)) accepted
        (Nat.lt_of_succ_lt_succ enough)

theorem drawAccepted_none {threshold : UInt64} {fuel : Nat}
    (rejected : ∀ k < fuel, nthDraw k r < threshold) :
    (drawAccepted threshold fuel r).1 = none := by
  induction fuel generalizing r with
  | zero => rfl
  | succ fuel ih =>
    have first : (rngDraw r).1 < threshold := rejected 0 (Nat.succ_pos fuel)
    rw [drawAccepted, if_pos first]
    exact ih fun k less => rejected (k + 1) (Nat.succ_lt_succ less)

section

variable (large : 2 ≤ bound)
include large

theorem kithRngNextBelow_eq {fuel n : Nat} (rejected : ∀ k < n, ¬ Accepts bound (nthDraw k r))
    (accepted : Accepts bound (nthDraw n r)) (enough : n < fuel) :
    kithRngNextBelow fuel r bound = (some (belowResult bound (nthDraw n r)), drawn (n + 1) r) := by
  rw [kithRngNextBelow, if_neg (UInt64.not_lt.mpr large), belowResult]
  by_cases power : bound &&& (bound - 1) = 0
  · cases n with
    | zero =>
      rw [if_pos power, if_pos power]
      rfl
    | succ n => exact absurd (.inl power) (rejected 0 (Nat.succ_pos n))
  · have drew := drawAccepted_eq (fun k less => not_not.mp fun kept => rejected k less (.inr kept))
      (accepted.resolve_left power) enough
    rw [if_neg power, if_neg power, drew]
    rfl

theorem kithRngNextBelow_none {fuel : Nat} (rejected : ∀ k < fuel, ¬ Accepts bound (nthDraw k r))
    (some : 0 < fuel) : (kithRngNextBelow fuel r bound).1 = none := by
  have power : ¬ bound &&& (bound - 1) = 0 := fun power => rejected 0 some (.inl power)
  rw [kithRngNextBelow, if_neg (UInt64.not_lt.mpr large), if_neg power]
  have silent : (drawAccepted (belowThreshold bound) fuel r).1 = none :=
    drawAccepted_none fun k less => not_not.mp fun kept => rejected k less (.inr kept)
  exact congrArg (Option.map (· % bound)) silent

theorem belowThreshold_toNat : (belowThreshold bound).toNat = 2 ^ 64 % bound.toNat := by
  have size := bound.toNat_lt
  have two : 2 ≤ bound.toNat := large
  have rest : (0xFFFFFFFFFFFFFFFF - bound + 1).toNat = 2 ^ 64 - bound.toNat := by
    rw [UInt64.toNat_add, UInt64.toNat_sub_of_le _ _ (by grind)]
    change (2 ^ 64 - 1 - bound.toNat + 1) % 2 ^ 64 = _
    omega
  rw [belowThreshold, UInt64.toNat_mod, rest, ← Nat.mod_eq_sub_mod size.le]

theorem bound_power (power : bound &&& (bound - 1) = 0) :
    ∃ k ≤ 64, bound.toNat = 2 ^ k ∧ (bound - 1).toNat = 2 ^ k - 1 := by
  have two : 2 ≤ bound.toNat := large
  have less : (bound - 1).toNat = bound.toNat - 1 :=
    UInt64.toNat_sub_of_le _ _ (UInt64.le_trans (by decide) large)
  have masked := congrArg UInt64.toNat power
  rw [UInt64.toNat_and, less] at masked
  obtain ⟨k, is⟩ := (Nat.and_sub_one_eq_zero_iff_isPowerOfTwo (by omega)).mp masked
  refine ⟨k, ?_, is, by rw [less, is]⟩
  exact (Nat.pow_le_pow_iff_right (by decide)).mp (is ▸ bound.toNat_lt.le)

theorem accepts_iff (word : UInt64) : Accepts bound word ↔ 2 ^ 64 % bound.toNat ≤ word.toNat := by
  by_cases power : bound &&& (bound - 1) = 0
  · obtain ⟨k, le, is, _⟩ := bound_power large power
    rw [is, Nat.mod_eq_zero_of_dvd (pow_dvd_pow 2 le)]
    exact iff_of_true (.inl power) (Nat.zero_le _)
  · rw [← belowThreshold_toNat large, Accepts, or_iff_right power, UInt64.not_lt]
    rfl

theorem belowResult_toNat (word : UInt64) :
    (belowResult bound word).toNat = word.toNat % bound.toNat := by
  rw [belowResult]
  split
  · obtain ⟨k, _, is, less⟩ := bound_power large ‹_›
    rw [UInt64.toNat_and, less, is, Nat.and_two_pow_sub_one_eq_mod]
  · exact UInt64.toNat_mod ..

theorem count_accepts (p : Nat → Prop) [DecidablePred p] :
    Nat.count (fun w => Accepts bound w.toUInt64 ∧ p w) (2 ^ 64) +
      Nat.count p (2 ^ 64 % bound.toNat) = Nat.count p (2 ^ 64) := by
  generalize bounded : 2 ^ 64 % bound.toNat = t
  have le : t ≤ 2 ^ 64 := bounded ▸ Nat.mod_le ..
  have same : ∀ w < 2 ^ 64, Accepts bound w.toUInt64 ∧ p w ↔ t ≤ w ∧ p w := by
    intro w size
    rw [accepts_iff large, bounded, Nat.toUInt64_eq, UInt64.toNat_ofNat_of_lt' size]
  rw [le_antisymm (Nat.count_mono_left fun w size => (same w size).mp)
    (Nat.count_mono_left fun w size => (same w size).mpr)]
  obtain ⟨m, all⟩ := Nat.exists_eq_add_of_le le
  have none : Nat.count (fun w => t ≤ w ∧ p w) t = 0 :=
    Nat.count_iff_forall_not.mpr fun w less ⟨more, _⟩ => Nat.not_lt.mpr more less
  rw [all, Nat.count_add, Nat.count_add, none, Nat.zero_add, Nat.add_comm]
  simp

end

/-- Each result of a bounded draw comes from as many words as any other, and more than
half of all words are accepted. A draw goes on over rejected words and returns the result of
the first accepted one, which is below the bound. -/
theorem nextBelow_unbiased (bound : UInt64) (large : 2 ≤ bound) :
    (∀ v < bound, Nat.count (fun w => Accepts bound w.toUInt64 ∧ belowResult bound w.toUInt64 = v)
      (2 ^ 64) = 2 ^ 64 / bound.toNat) ∧
    2 ^ 63 < Nat.count (fun w => Accepts bound w.toUInt64) (2 ^ 64) ∧
    ∀ r n, (∀ k < n, ¬ Accepts bound (nthDraw k r)) →
      (∀ fuel, 0 < fuel → fuel ≤ n → (kithRngNextBelow fuel r bound).1 = none) ∧
      (Accepts bound (nthDraw n r) → belowResult bound (nthDraw n r) < bound ∧ ∀ fuel, n < fuel →
        kithRngNextBelow fuel r bound =
          (some (belowResult bound (nthDraw n r)), drawn (n + 1) r)) := by
  have positive : 0 < bound.toNat := Nat.lt_of_lt_of_le Nat.two_pos large
  refine ⟨fun v small => ?_, ?_,
    fun r n rejected => ⟨fun fuel some within => ?_, fun accepted => ?_⟩⟩
  · have counted := count_accepts large (· ≡ v.toNat [MOD bound.toNat])
    have same : ∀ w < 2 ^ 64, w ≡ v.toNat [MOD bound.toNat] ↔ belowResult bound w.toUInt64 = v := by
      intro w size
      rw [← UInt64.toNat_inj, belowResult_toNat large, Nat.toUInt64_eq,
        UInt64.toNat_ofNat_of_lt' size,
        Nat.ModEq, Nat.mod_eq_of_lt (UInt64.lt_iff_toNat_lt.mp small)]
    rw [Nat.count_modEq_card _ positive, Nat.count_modEq_card _ positive, Nat.mod_mod,
      Nat.div_eq_of_lt (Nat.mod_lt _ positive), Nat.zero_add] at counted
    rw [← Nat.add_right_cancel counted]
    apply le_antisymm <;> refine Nat.count_mono_left fun w size h => ⟨h.1, ?_⟩
    · exact (same w size).mpr h.2
    · exact (same w size).mp h.2
  · have counted := count_accepts large fun _ => True
    simp only [and_true, Nat.count_true] at counted
    have whole := Nat.div_add_mod (2 ^ 64) bound.toNat
    have once := Nat.mul_le_mul_left bound.toNat (Nat.div_pos bound.toNat_lt.le positive)
    have rest := Nat.mod_lt (2 ^ 64) positive
    omega
  · exact kithRngNextBelow_none large (fun k less => rejected k (less.trans_le within)) some
  · refine ⟨?_, fun fuel => kithRngNextBelow_eq large rejected accepted⟩
    rw [UInt64.lt_iff_toNat_lt, belowResult_toNat large]
    exact Nat.mod_lt _ positive

/-- The first word is 0, which is rejected. -/
theorem nextBelow_unbiased_three :
    Nat.count (fun w => Accepts 3 w.toUInt64 ∧ belowResult 3 w.toUInt64 = 1) (2 ^ 64) = 2 ^ 64 / 3 ∧
    nthDraw 0 ⟨0, 1, 0, 1, 0⟩ = 0 ∧ ∀ fuel, 1 < fuel → kithRngNextBelow fuel ⟨0, 1, 0, 1, 0⟩ 3 =
      (some (belowResult 3 1583296743997440), drawn 2 ⟨0, 1, 0, 1, 0⟩) := by
  obtain ⟨even, _, draws⟩ := nextBelow_unbiased 3 (by decide)
  exact ⟨even 1 (by decide), rfl, ((draws _ 1 (by decide)).2 (by decide)).2⟩

end Below

end Kith.Util
