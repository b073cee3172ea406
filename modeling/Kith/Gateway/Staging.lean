import Kith.Gateway.Cache

/-!
# The staging of a cell

A copy that meets more rows than the staging buffer takes grows it and tries again, three
times in all, and the cell can grow between two tries.
-/

namespace Kith.Gateway

open List

/-- Every attempt meets more rows than the buffer takes, and the buffer grows each time. -/
def Outgrown (populations : Nat → List Artifact) : Nat → Nat → Heap CacheSite → Prop
  | 0, _, _ => True
  | left + 1, room, heap => room < (populations left).length ∧ (heap.request .staging).1 = true ∧
      Outgrown populations left (populations left).length (heap.request .staging).2

variable {junk : Nat → Artifact} {rows : List Artifact} {populations : Nat → List Artifact}
  {st : Staging} {left : Nat}

theorem stageRound_fits (blank : st.buffer = none → st.copied = 0)
    (fits : rows.length ≤ (st.buffer.getD []).length) :
    ∃ st', stageRound junk (.ok rows) st = (true, .ok, st') ∧
      (st'.buffer.getD []).take st'.copied = rows ∧ st'.copied = rows.length := by
  obtain ⟨_ | held, copied, heap⟩ := st
  · obtain rfl : rows = [] := by simpa using fits
    exact ⟨_, rfl, by simp, blank rfl⟩
  · have fits : rows.length ≤ held.length := fits
    have whole : rows.take held.length = rows := take_of_length_le fits
    simp [stageRound, kithFabricSnapshotCell, Nat.not_lt.mpr fits, whole]

/-- The result of an attempt on a buffer that does not take all `size` rows. -/
def Grows (heap : Heap CacheSite) (size : Nat) (result : Bool × Rc × Staging) : Prop :=
  (heap.request .staging).1 = false ∧ (∃ st, result = (true, .err .enomem, st)) ∨
    (heap.request .staging).1 = true ∧ ∃ buffer copied, buffer.length = size ∧
      result = (false, .ok, ⟨some buffer, copied, (heap.request .staging).2⟩)

theorem stageGrow_over (st : Staging) {size : Nat} (beyond : (st.buffer.getD []).length < size) :
    Grows st.heap size (stageGrow junk size st) := by
  rw [stageGrow, gatewayCacheEnsureStaging, if_neg (Nat.not_le.mpr beyond), Grows]
  rcases st.heap.request .staging with ⟨_ | _, heap⟩
  · exact .inl ⟨rfl, _, rfl⟩
  · exact .inr ⟨rfl, _, _, by simp [beyond.le], rfl⟩

theorem stageRound_over (junk : Nat → Artifact)
    (beyond : (st.buffer.getD []).length < rows.length) :
    Grows st.heap rows.length (stageRound junk (.ok rows) st) := by
  obtain ⟨_ | held, copied, heap⟩ := st
  · have some_row : rows.length ≠ 0 := Nat.ne_zero_of_lt beyond
    simp only [stageRound, kithFabricSnapshotCell, Option.getD_some, if_neg some_row]
    exact stageGrow_over ⟨none, copied, heap⟩ beyond
  · have beyond : held.length < rows.length := beyond
    simp only [stageRound, kithFabricSnapshotCell, if_pos beyond, if_true, Option.getD_some]
    refine stageGrow_over ⟨_, _, heap⟩ ?_
    simpa [beyond.le] using beyond

/-- Unless every attempt is outgrown, success means that the last one filled the buffer. -/
theorem stageRounds_filled (rc : Rc) (blank : st.buffer = none → st.copied = 0)
    (ok : (stageRounds ⟨fun r => .ok (populations r), junk⟩ left rc st).1 = .ok)
    (kept : ¬ Outgrown populations left (st.buffer.getD []).length st.heap) :
    let staged := (stageRounds ⟨fun r => .ok (populations r), junk⟩ left rc st).2
    ∃ r < left, (staged.buffer.getD []).take staged.copied = populations r ∧
      staged.copied = (populations r).length := by
  induction left generalizing st rc with
  | zero => exact absurd trivial kept
  | succ left ih =>
    rw [stageRounds] at ok ⊢
    by_cases beyond : (st.buffer.getD []).length < (populations left).length
    · rcases stageRound_over junk beyond with ⟨_, _, round⟩ | ⟨granted, _, _, room, round⟩
      · rw [round] at ok
        cases ok
      · rw [round] at ok ⊢
        obtain ⟨r, earlier, filled⟩ := ih .ok (by simp) ok fun later =>
          kept ⟨beyond, granted, room ▸ later⟩
        exact ⟨r, Nat.lt_succ_of_lt earlier, filled⟩
    · obtain ⟨st', round, filled⟩ := stageRound_fits blank (Nat.not_lt.mp beyond)
      rw [round] at ok ⊢
      exact ⟨left, Nat.lt_succ_self left, filled⟩

/-- When every attempt is outgrown, the loop ends with the code of the last growth. -/
theorem stageRounds_outgrown
    (outgrown : Outgrown populations left (st.buffer.getD []).length st.heap) :
    (stageRounds ⟨fun r => .ok (populations r), junk⟩ left .ok st).1 = .ok := by
  induction left generalizing st with
  | zero => rfl
  | succ left ih =>
    obtain ⟨beyond, granted, later⟩ := outgrown
    rw [stageRounds]
    rcases stageRound_over junk beyond with ⟨refused, _⟩ | ⟨_, _, _, room, round⟩
    · cases granted.symm.trans refused
    · rw [round]
      exact ih (room ▸ later)

/-- A copy that returns 0 staged the rows of one snapshot, one whose retries are exhausted fails,
and a failure keeps the cell's rows: exactly when the cell does not outgrow the staging buffer
at every attempt. -/
theorem staged_iff (c : GatewayCache) (key : CellKey) (i : Nat) (heap : Heap CacheSite)
    (populations : Nat → List Artifact) (junk : Nat → Artifact) :
    let n := (c.stripeOf key).nodes i
    let supply : Supply := ⟨fun r => .ok (populations r), junk⟩
    let staged := gatewayCacheStageCell supply heap n
    let after := ((gatewayCacheRefreshArtifacts c heap supply key i).2.1.stripeOf key).nodes i
    let exhausted := Outgrown populations 3 (n.staging.getD []).length heap
    (staged.1 = .ok → ∃ attempt < 3, (staged.2.buffer.getD []).take staged.2.copied =
        populations attempt ∧ staged.2.copied = (populations attempt).length) ∧
      (exhausted → staged.1 ≠ .ok) ∧
      (staged.1 ≠ .ok → after.artifacts = n.artifacts ∧ after.artifactCount = n.artifactCount) ↔
    ¬ exhausted := by
  intro n supply staged after exhausted
  constructor
  · rintro ⟨_, failed, _⟩ outgrown
    exact failed outgrown (stageRounds_outgrown outgrown)
  · intro kept
    refine ⟨?_, fun outgrown => absurd outgrown kept, ?_⟩
    · intro ok
      exact stageRounds_filled .ok (fun _ => rfl) ok kept
    · intro failed
      dsimp only [after, gatewayCacheRefreshArtifacts]
      rcases staging : gatewayCacheStageCell supply heap n with ⟨_ | _, st⟩
      · exact absurd (congrArg Prod.fst staging) failed
      · simp [GatewayCache.setNode, GatewayCache.setStripe, GatewayCache.stripeOf, n]

/-- The cell has two, three and four rows at the three attempts on a buffer for one. -/
theorem staged_outgrown :
    let row : Artifact := ⟨7, 0, 0, 0, 0, 0, 0, 0, 0⟩
    let junk : Artifact := ⟨9, 0, 0, 0, 0, 0, 0, 0, 0⟩
    let n : CacheNode :=
      ⟨⟨1, 0, 0, 0, 0⟩, 1, 0, 0, 0, 0, 0, .full, true, false, none, 0, some [row], 0, 0, 0⟩
    let staged := gatewayCacheStageCell ⟨fun r => .ok (replicate (4 - r) row), fun _ => junk⟩
      ⟨fun _ _ => true, 0⟩ n
    staged.1 = .ok ∧ staged.2.buffer = some [row, row, row, junk] ∧ ∀ attempt < 3,
      (staged.2.buffer.getD []).take staged.2.copied ≠ replicate (4 - attempt) row := by
  decide

end Kith.Gateway
