import Kith.Net.Backpressure
import Mathlib.Algebra.Ring.Nat

/-!
# The output queue over successive writes

What the socket has taken and what the queue still holds make up the accepted
frames. A drain is a sequence of `writev` calls, each of which takes some bytes of
the batch offered to it, so a property kept by one such call is kept by every
drain. A frame leaves the queue while written bytes are attributed to it, and a
frame without bytes has none: one that is last in the queue stays there.
-/

namespace Kith.Net

open Kith.Proto List

section Queue

variable (outq : List OutItem)

def unsent : List UInt8 :=
  outq.flatMap fun item => item.frame.drop item.offset

/-- The lengths of the queued frames, written parts included. -/
def queuedBytes : Nat := (outq.map fun item => item.frame.length).sum

@[simp] theorem unsent_nil : unsent [] = [] := rfl

@[simp] theorem unsent_cons (item : OutItem) (outq : List OutItem) :
    unsent (item :: outq) = item.frame.drop item.offset ++ unsent outq := rfl

@[simp] theorem unsent_append (outq outq' : List OutItem) :
    unsent (outq ++ outq') = unsent outq ++ unsent outq' := flatMap_append

@[simp] theorem queuedBytes_cons (item : OutItem) (outq : List OutItem) :
    queuedBytes (item :: outq) = item.frame.length + queuedBytes outq := rfl

theorem rem_eq_zero_iff (item : OutItem) : item.rem = 0 ↔ item.frame.drop item.offset = [] := by
  rw [OutItem.rem, drop_eq_nil_iff]
  omega

theorem unsent_filter : unsent outq = ((outq.filter fun item => item.rem ≠ 0).map fun item =>
      item.frame.drop item.offset).flatten := by
  induction outq with
  | nil => rfl
  | cons item outq ih =>
    by_cases written : item.rem = 0
    · have gone := (rem_eq_zero_iff item).mp written
      simp [written, gone, ih]
    · simp [written, ih]

theorem buildWritevBatch_inv : (buildWritevBatch outq).flatten <+: unsent outq := by
  rw [unsent_filter, buildWritevBatch, map_take]
  have whole := take_append_drop 64
    ((outq.filter fun item => item.rem ≠ 0).map fun item => item.frame.drop item.offset)
  exact ⟨_, by rw [← flatten_append, whole]⟩

theorem buildWritevBatch_nil_iff : buildWritevBatch outq = [] ↔ ∀ item ∈ outq, item.rem = 0 := by
  simp [buildWritevBatch, take_eq_nil_iff, filter_eq_nil_iff]

theorem batch_nonempty {outq : List OutItem} (some_left : buildWritevBatch outq ≠ []) :
    0 < (buildWritevBatch outq).flatten.length := by
  obtain ⟨first, rest, batch⟩ := exists_cons_of_ne_nil some_left
  have member : first ∈ buildWritevBatch outq := by
    rw [batch]
    exact mem_cons_self
  simp only [buildWritevBatch, mem_map] at member
  obtain ⟨item, taken, rfl⟩ := member
  have left := (mem_filter.mp (mem_of_mem_take taken)).2
  have some_bytes : 0 < (item.frame.drop item.offset).length := by
    rw [length_pos_iff, ne_eq, ← rem_eq_zero_iff]
    simpa using left
  rw [batch, flatten_cons, length_append]
  omega

end Queue

section Advance

theorem advanceOutqAfterWrite_unsent (outq : List OutItem) (bytes n : Nat) :
    unsent (advanceOutqAfterWrite outq bytes n).1 = (unsent outq).drop n := by
  induction outq generalizing bytes n with
  | nil => simp [advanceOutqAfterWrite]
  | cons head rest ih =>
    rw [advanceOutqAfterWrite]
    by_cases idle : n = 0
    · simp [idle]
    · rw [if_neg idle]
      dsimp only
      split
      · rename_i whole
        have size : (head.frame.drop head.offset).length = min head.rem n := by
          rw [length_drop, OutItem.rem]
          omega
        have gone : (head.frame.drop head.offset).drop n = [] :=
          drop_of_length_le (by rw [size]; exact Nat.min_le_right ..)
        rw [ih, unsent_cons, drop_append, size, gone, nil_append]
      · rename_i part
        have all : min head.rem n = n := by
          rw [OutItem.rem] at part ⊢
          omega
        rw [OutItem.rem] at all part
        rw [unsent_cons, unsent_cons, drop_append_of_le_length (by rw [length_drop]; omega),
          drop_drop, OutItem.rem, all]

theorem advanceOutqAfterWrite_total (outq : List OutItem) (n : Nat) :
    (advanceOutqAfterWrite outq (queuedBytes outq) n).2 =
      queuedBytes (advanceOutqAfterWrite outq (queuedBytes outq) n).1 := by
  induction outq generalizing n with
  | nil => simp [advanceOutqAfterWrite, queuedBytes]
  | cons head rest ih =>
    rw [advanceOutqAfterWrite]
    split
    · rfl
    · dsimp only
      split
      · have left :
            queuedBytes (head :: rest) - min (queuedBytes (head :: rest)) head.frame.length =
            queuedBytes rest := by
          rw [queuedBytes_cons]
          omega
        rw [left]
        exact ih _
      · rfl

variable {outq : List OutItem}

theorem advanceOutqAfterWrite_whole (whole : ∀ item ∈ outq, item.rem = 0 → item.frame = [])
    (bytes n : Nat) :
    ∀ item ∈ (advanceOutqAfterWrite outq bytes n).1, item.rem = 0 → item.frame = [] := by
  induction outq generalizing bytes n with
  | nil => exact whole
  | cons head rest ih =>
    have tail : ∀ item ∈ rest, item.rem = 0 → item.frame = [] := fun item member =>
      whole item (mem_cons_of_mem _ member)
    rw [advanceOutqAfterWrite]
    split
    · exact whole
    · dsimp only
      split
      · exact ih tail _ _
      · rename_i part
        intro item member done
        rcases mem_cons.mp member with rfl | later
        · exact absurd done (Nat.sub_ne_zero_of_lt (Nat.lt_of_not_le part))
        · exact tail item later done

/-- The last frame of the queue has bytes left, or there is no frame. -/
def LastUnsent (outq : List OutItem) : Prop := ∀ item, outq.getLast? = some item → item.rem ≠ 0

theorem advanceOutqAfterWrite_lastUnsent (last : LastUnsent outq) (bytes n : Nat) :
    LastUnsent (advanceOutqAfterWrite outq bytes n).1 := by
  induction outq generalizing bytes n with
  | nil => exact last
  | cons head rest ih =>
    have tail : LastUnsent rest := by
      intro item final
      apply last item
      rw [getLast?_cons, final]
      rfl
    rw [advanceOutqAfterWrite]
    split
    · exact last
    · dsimp only
      split
      · exact ih tail _ _
      · rename_i part
        intro item final
        rw [getLast?_cons] at final
        cases ends : rest.getLast? with
        | none =>
          rw [ends] at final
          cases final
          exact Nat.sub_ne_zero_of_lt (Nat.lt_of_not_le part)
        | some other =>
          rw [ends] at final
          cases final
          exact tail _ ends

theorem advanceOutqAfterWrite_keeps_last {n : Nat} (within : n ≤ (unsent outq).length)
    (item : OutItem) (bytes : Nat) :
    ∃ left, (advanceOutqAfterWrite (outq ++ [item]) bytes n).1 = left ++ [item] := by
  induction outq generalizing bytes n with
  | nil =>
    obtain rfl : n = 0 := by simpa using within
    exact ⟨[], by simp [advanceOutqAfterWrite]⟩
  | cons head rest ih =>
    rw [cons_append, advanceOutqAfterWrite]
    split
    · exact ⟨head :: rest, rfl⟩
    · dsimp only
      split
      · apply ih
        rw [unsent_cons, length_append, length_drop] at within
        omega
      · exact ⟨_ :: rest, rfl⟩

end Advance

section Drains

variable {s : Link} {script : List SendResult} {written : Nat}

/-- The bytes of one `writev`. -/
def Link.offered (s : Link) : Nat := (buildWritevBatch s.conn.outq).flatten.length

/-- The connection after a `writev` that took `n` bytes. -/
def Link.wrote (s : Link) (n : Nat) : Link :=
  { s with
    conn := { s.conn with
      outq := (advanceOutqAfterWrite s.conn.outq s.conn.outqBytes n).1
      outqBytes := (advanceOutqAfterWrite s.conn.outq s.conn.outqBytes n).2 }
    sent := s.sent ++ (buildWritevBatch s.conn.outq).flatten.take n }

/-- The cap of one call has been reached. -/
def Link.Capped (s : Link) (written : Nat) : Prop :=
  s.conn.cfg.outDrainCap ≠ 0xFFFFFFFF ∧ s.conn.cfg.outDrainCap.toNat ≤ written

instance (s : Link) (written : Nat) : Decidable (s.Capped written) :=
  inferInstanceAs (Decidable (_ ∧ _))

def Link.Drained (s : Link) : Prop := s.conn.outq = [] ∨ buildWritevBatch s.conn.outq = []

instance (s : Link) : Decidable s.Drained := inferInstanceAs (Decidable (_ ∨ _))

theorem connWriteDrain_drained (stop : s.Drained) :
    connWriteDrain script written s = ((.ok, false), s) := by
  unfold connWriteDrain
  exact if_pos stop

theorem connWriteDrain_sent (go : ¬ s.Drained) {n : Nat} (some_bytes : n ≠ 0) :
    connWriteDrain (.sent n :: script) written s =
      if s.Capped (written + n) then ((.ok, true), s.wrote n)
      else connWriteDrain script (written + n) (s.wrote n) := by
  have unfinished : ¬ (s.conn.outq = [] ∨ buildWritevBatch s.conn.outq = []) := go
  conv_lhs => unfold connWriteDrain
  rw [if_neg unfinished]
  dsimp only
  rw [if_neg some_bytes]
  rfl

theorem connWriteDrain_intr (go : ¬ s.Drained) :
    connWriteDrain (.intr :: script) written s = connWriteDrain script written s := by
  conv_lhs => unfold connWriteDrain
  exact if_neg go

theorem connWriteDrain_stops {result : SendResult}
    (stop : result = .wouldBlock ∨ result = .error ∨ result = .sent 0) :
    (connWriteDrain (result :: script) written s).2 = s := by
  unfold connWriteDrain
  split
  · rfl
  · rcases stop with rfl | rfl | rfl <;> rfl

/-- Every `writev` of a drain reports at most the bytes offered to it. -/
def SendsWithin : List SendResult → Nat → Link → Prop
  | [], _, _ => True
  | .intr :: script, written, s => SendsWithin script written s
  | .sent n :: script, written, s => s.Drained ∨ n ≤ s.offered ∧
      (n = 0 ∨ s.Capped (written + n) ∨ SendsWithin script (written + n) (s.wrote n))
  | _, _, _ => True

theorem drain_keeps {P : Link → Prop} (within : SendsWithin script written s) (start : P s)
    (step : ∀ t n, P t → n ≤ t.offered → P (t.wrote n)) :
    P (connWriteDrain script written s).2 := by
  induction script generalizing written s with
  | nil =>
    unfold connWriteDrain
    split <;> exact start
  | cons result script ih =>
    by_cases stop : s.Drained
    · rw [connWriteDrain_drained stop]
      exact start
    · cases result with
      | wouldBlock => rwa [connWriteDrain_stops (.inl rfl)]
      | error => rwa [connWriteDrain_stops (.inr (.inl rfl))]
      | intr =>
        rw [connWriteDrain_intr stop]
        exact ih within start
      | sent n =>
        by_cases idle : n = 0
        · rwa [connWriteDrain_stops (.inr (.inr (by rw [idle])))]
        · obtain ⟨bound, next⟩ := within.resolve_left stop
          have after := step s n start bound
          rw [connWriteDrain_sent stop idle]
          split
          · exact after
          · rename_i free
            exact ih ((next.resolve_left idle).resolve_left free) after

end Drains

section Fidelity

/-- The frames accepted so far are the bytes the socket has and those still
queued, the byte count is that of the queued frames, and a frame is queued with
none of its bytes left only if it never had any. -/
structure Faithful (accepted : List (List UInt8)) (s : Link) : Prop where
  bytes : s.sent ++ unsent s.conn.outq = accepted.flatten
  total : s.conn.outqBytes = queuedBytes s.conn.outq
  whole : ∀ item ∈ s.conn.outq, item.rem = 0 → item.frame = []

variable {accepted : List (List UInt8)} {s : Link}

variable (faithful : Faithful accepted s)
include faithful

theorem Faithful.congr {t : Link} (sent : t.sent = s.sent) (outq : t.conn.outq = s.conn.outq)
    (outqBytes : t.conn.outqBytes = s.conn.outqBytes) : Faithful accepted t := by
  constructor
  · rw [sent, outq]
    exact faithful.bytes
  · rw [outq, outqBytes]
    exact faithful.total
  · rw [outq]
    exact faithful.whole

theorem Faithful.wrote {n : Nat} (within : n ≤ s.offered) : Faithful accepted (s.wrote n) := by
  have total := advanceOutqAfterWrite_total s.conn.outq n
  rw [← faithful.total] at total
  obtain ⟨rest, split⟩ := buildWritevBatch_inv s.conn.outq
  constructor
  · have taken : (buildWritevBatch s.conn.outq).flatten.take n = (unsent s.conn.outq).take n := by
      rw [← split, take_append_of_le_length within]
    calc (s.wrote n).sent ++ unsent (s.wrote n).conn.outq
        = s.sent ++ (buildWritevBatch s.conn.outq).flatten.take n ++
          (unsent s.conn.outq).drop n := by
          simp only [Link.wrote, advanceOutqAfterWrite_unsent]
      _ = s.sent ++ unsent s.conn.outq := by
          rw [taken, append_assoc, take_append_drop]
      _ = accepted.flatten := faithful.bytes
  · exact total
  · exact advanceOutqAfterWrite_whole faithful.whole _ _

theorem Faithful.close : Faithful accepted s.close := by
  apply faithful.congr <;> simp only [Link.close, kithNetConnClose] <;> split <;> rfl

theorem Faithful.write {script : List SendResult} (within : SendsWithin script 0 s) :
    Faithful accepted (kithNetConnWrite s script).2 := by
  have drained : Faithful accepted (connWriteDrain script 0 s).2 :=
    drain_keeps within faithful fun _ _ kept bound => kept.wrote bound
  rw [kithNetConnWrite]
  split
  · exact faithful
  · split
    · exact faithful
    · rcases stopped : connWriteDrain script 0 s with ⟨⟨rc, capped⟩, t⟩
      rw [stopped] at drained
      have counted : Faithful accepted (if (capped && !t.conn.outq.isEmpty) = true then
          { t with writeDeferrals := t.writeDeferrals + 1 } else t) := by
        split
        · exact drained.congr rfl rfl rfl
        · exact drained
      cases rc with
      | ok => exact counted
      | err code => exact counted.close

/-- A frame of at most `UINT32_MAX` bytes cannot overflow the count: the queue is
below the high watermark, a 32-bit number, when it is accepted. -/
theorem Faithful.enqueue {frame : List UInt8} (short : frame.length < 2 ^ 32) :
    Faithful (if (kithNetConnEnqueue s frame).1 = .ok then accepted ++ [frame] else accepted)
      (kithNetConnEnqueue s frame).2 := by
  rw [kithNetConnEnqueue]
  split
  · exact faithful
  · split
    · exact faithful
    · cases granted : s.heap.request .outItem with
      | mk grant heap =>
        cases grant with
        | false => exact faithful.congr rfl rfl rfl
        | true =>
          have watermark := s.conn.cfg.outHighWater.toNat_lt
          have fits : ¬ 2 ^ 64 ≤ s.conn.outqBytes + frame.length := by omega
          simp only [if_true, fits, if_false]
          constructor
          · rw [unsent_append, ← append_assoc, faithful.bytes, flatten_append]
            simp
          · simp [faithful.total, queuedBytes]
          · intro item member done
            rcases mem_append.mp member with queued | fresh
            · exact faithful.whole item queued done
            · obtain rfl := mem_singleton.mp fresh
              exact length_eq_zero_iff.mp done

end Fidelity

section Runs

/-- `frame->len` is a `uint32_t`. -/
abbrev OutFrame := { bs : List UInt8 // bs.length < 2 ^ 32 }

inductive OutOp where
  | enqueue (frame : OutFrame)
  | write (script : List SendResult)
  | close

/-- A connection and the frames whose enqueue returned 0, in order. -/
structure OutRun where
  link : Link
  accepted : List (List UInt8)

def OutRun.step (r : OutRun) : OutOp → OutRun
  | .enqueue frame =>
    ⟨(kithNetConnEnqueue r.link frame.1).2,
      if (kithNetConnEnqueue r.link frame.1).1 = .ok then r.accepted ++ [frame.1] else r.accepted⟩
  | .write script => ⟨(kithNetConnWrite r.link script).2, r.accepted⟩
  | .close => ⟨r.link.close, r.accepted⟩

def OutRun.run (r : OutRun) (ops : List OutOp) : OutRun := ops.foldl OutRun.step r

/-- No `writev` of the run reports more bytes than it was offered. -/
def OutRun.Within : OutRun → List OutOp → Prop
  | _, [] => True
  | r, op :: ops =>
    (∀ script, op = .write script → SendsWithin script 0 r.link) ∧ (r.step op).Within ops

variable {r : OutRun}

theorem OutRun.step_faithful (faithful : Faithful r.accepted r.link) {op : OutOp}
    (within : ∀ script, op = .write script → SendsWithin script 0 r.link) :
    Faithful (r.step op).accepted (r.step op).link := by
  cases op with
  | enqueue frame => exact faithful.enqueue frame.2
  | write script => exact faithful.write (within script rfl)
  | close => exact faithful.close

theorem OutRun.run_faithful (faithful : Faithful r.accepted r.link) {ops : List OutOp}
    (within : r.Within ops) : Faithful (r.run ops).accepted (r.run ops).link := by
  induction ops generalizing r with
  | nil => exact faithful
  | cons op ops ih => exact ih (step_faithful faithful within.1) within.2

theorem faithful_start {cfg : ConnCfg} {fd : Int} {heap heap' : Heap NetSite} {conn : NetConn}
    (created : kithConnCreate cfg fd heap = some (some conn, heap')) (proto : KithProto) :
    Faithful [] (.start conn proto heap') := by
  obtain ⟨inbuf, heap₁, _, rfl⟩ := kithConnCreate_inv created
  constructor
  · rfl
  · rfl
  · simp [Link.start]

/-- In every run of enqueues, writes and a close, for every drain cap and every
pattern of partial writes, the bytes handed to the socket followed by the unsent
bytes of the queue are the accepted frames in order, and the byte count is that
of the queued frames. -/
theorem output_faithful {cfg : ConnCfg} {fd : Int} {heap heap' : Heap NetSite} {conn : NetConn}
    {proto : KithProto} {ops : List OutOp}
    (created : kithConnCreate cfg fd heap = some (some conn, heap'))
    (within : OutRun.Within ⟨.start conn proto heap', []⟩ ops) :
    let r := OutRun.run ⟨.start conn proto heap', []⟩ ops
    r.link.sent ++ unsent r.link.conn.outq = r.accepted.flatten ∧
      r.link.conn.outqBytes = queuedBytes r.link.conn.outq := by
  have faithful := OutRun.run_faithful (r := ⟨.start conn proto heap', []⟩)
    (faithful_start created proto) within
  exact ⟨faithful.bytes, faithful.total⟩

/-- Three frames, the second empty, written in two calls of two bytes each. -/
def threeFrames : List OutOp :=
  [.enqueue ⟨[1, 2, 3], by decide⟩, .enqueue ⟨[], by decide⟩, .enqueue ⟨[4], by decide⟩,
    .write [.sent 2, .wouldBlock], .write [.sent 2]]

def defaultConn : NetConn :=
  ⟨3, ⟨fun _ => 0, 4096, 0, 0, 4096, 262144⟩, [], 0, false, false, buildConnCfg none⟩

theorem defaultConn_created : kithConnCreate (buildConnCfg none) 3 ⟨fun _ _ => true, 0⟩ =
    some (some defaultConn, ⟨fun _ _ => true, 3⟩) := rfl

def defaultStart : OutRun := ⟨.start defaultConn pingProto ⟨fun _ _ => true, 3⟩, []⟩

theorem threeFrames_faithful : defaultStart.Within threeFrames ∧
    (defaultStart.run threeFrames).link.sent ++
        unsent (defaultStart.run threeFrames).link.conn.outq =
      (defaultStart.run threeFrames).accepted.flatten ∧
    (defaultStart.run threeFrames).link.conn.outqBytes =
      queuedBytes (defaultStart.run threeFrames).link.conn.outq := by
  have within : defaultStart.Within threeFrames := by
    refine ⟨by rintro _ ⟨⟩, by rintro _ ⟨⟩, by rintro _ ⟨⟩, ?_, ?_, trivial⟩
    · rintro _ ⟨⟩
      exact .inr ⟨by decide +kernel, .inr (.inr trivial)⟩
    · rintro _ ⟨⟩
      exact .inr ⟨by decide +kernel, .inr (.inr trivial)⟩
  exact ⟨within, output_faithful defaultConn_created within⟩

end Runs

section Emptying

variable {s : Link} {script : List SendResult} {written : Nat}

/-- The socket takes every byte offered to it, until nothing is left. -/
def TakesAll : List SendResult → Link → Prop
  | .intr :: script, s => TakesAll script s
  | .sent n :: script, s => s.Drained ∨ n = s.offered ∧ TakesAll script (s.wrote n)
  | _, s => s.Drained

theorem offered_pos (go : ¬ s.Drained) : 0 < s.offered :=
  batch_nonempty fun empty => go (.inr empty)

theorem offered_le (s : Link) : s.offered ≤ (unsent s.conn.outq).length :=
  (buildWritevBatch_inv s.conn.outq).length_le

theorem takesAll_exists (s : Link) : ∃ script, TakesAll script s := by
  induction left : (unsent s.conn.outq).length using Nat.strong_induction_on generalizing s with
  | _ left_len ih =>
    by_cases stop : s.Drained
    · exact ⟨[], stop⟩
    · have shorter : (unsent (s.wrote s.offered).conn.outq).length < left_len := by
        have some_bytes := offered_pos stop
        have bound := offered_le s
        simp only [Link.wrote, advanceOutqAfterWrite_unsent, length_drop]
        omega
      obtain ⟨script, all⟩ := ih _ shorter (s.wrote s.offered) rfl
      exact ⟨.sent s.offered :: script, .inr ⟨rfl, all⟩⟩

theorem takesAll_within (all : TakesAll script s) : SendsWithin script written s := by
  induction script generalizing written s with
  | nil => trivial
  | cons result script ih =>
    cases result with
    | wouldBlock | error => trivial
    | intr => exact ih all
    | sent n =>
      rcases all with stop | ⟨size, rest⟩
      · exact .inl stop
      · exact .inr ⟨le_of_eq size, .inr (.inr (ih rest))⟩

/-- Without a cap such a drain reports success and leaves nothing to write. -/
theorem takesAll_drains (unbounded : s.conn.cfg.outDrainCap = 0xFFFFFFFF)
    (all : TakesAll script s) (written : Nat) :
    (connWriteDrain script written s).1.1 = .ok ∧ (connWriteDrain script written s).2.Drained := by
  induction script generalizing written s with
  | nil =>
    rw [connWriteDrain_drained all]
    exact ⟨rfl, all⟩
  | cons result script ih =>
    by_cases stop : s.Drained
    · rw [connWriteDrain_drained stop]
      exact ⟨rfl, stop⟩
    · cases result with
      | wouldBlock | error => exact absurd all stop
      | intr =>
        rw [connWriteDrain_intr stop]
        exact ih unbounded all written
      | sent n =>
        obtain ⟨size, rest⟩ := all.resolve_left stop
        have some_bytes := offered_pos stop
        have free : ¬ s.Capped (written + n) := fun capped => capped.1 unbounded
        rw [connWriteDrain_sent stop (by omega), if_neg free]
        exact ih (s := s.wrote n) unbounded rest (written + n)

theorem takesAll_empties_iff (unbounded : s.conn.cfg.outDrainCap = 0xFFFFFFFF)
    (all : TakesAll script s) (written : Nat) :
    (connWriteDrain script written s).2.conn.outq = [] ↔ LastUnsent s.conn.outq := by
  have within : SendsWithin script written s := takesAll_within all
  constructor
  · intro empty item final
    obtain ⟨front, queue⟩ := getLast?_eq_some_iff.mp final
    intro done
    have bytes := (rem_eq_zero_iff item).mp done
    have stays : ∃ left, (connWriteDrain script written s).2.conn.outq = left ++ [item] := by
      refine drain_keeps (P := fun t => ∃ left, t.conn.outq = left ++ [item]) within
        ⟨front, queue⟩ ?_
      rintro t n ⟨left, behind⟩ bound
      have inside : n ≤ (unsent left).length := by
        have most := le_trans bound (offered_le t)
        rwa [behind, unsent_append, unsent_cons, bytes, unsent_nil, append_nil,
          append_nil] at most
      simp only [Link.wrote, behind]
      exact advanceOutqAfterWrite_keeps_last inside item _
    obtain ⟨left, behind⟩ := stays
    rw [empty] at behind
    exact append_ne_nil_of_right_ne_nil left (cons_ne_nil _ _) behind.symm
  · intro last
    have kept : LastUnsent (connWriteDrain script written s).2.conn.outq :=
      drain_keeps (P := fun t => LastUnsent t.conn.outq) within last fun t n here _ =>
        advanceOutqAfterWrite_lastUnsent here _ _
    rcases (takesAll_drains unbounded all written).2 with empty | batch
    · exact empty
    · by_contra nonempty
      obtain ⟨item, final⟩ := Option.ne_none_iff_exists'.mp (mt getLast?_eq_none_iff.mp nonempty)
      exact kept item final ((buildWritevBatch_nil_iff _).mp batch item (mem_of_getLast? final))

theorem kithNetConnWrite_drains (live : s.conn.closed = false) (socket : 0 ≤ s.conn.fd)
    (ok : (connWriteDrain script 0 s).1.1 = .ok) :
    (kithNetConnWrite s script).1 = .ok ∧
      (kithNetConnWrite s script).2.conn.outq = (connWriteDrain script 0 s).2.conn.outq := by
  simp only [kithNetConnWrite, live, Bool.false_eq_true, if_false, not_lt.mpr socket]
  rcases stopped : connWriteDrain script 0 s with ⟨⟨rc, capped⟩, t⟩
  rw [stopped] at ok
  obtain rfl : rc = .ok := ok
  dsimp only
  split <;> exact ⟨rfl, rfl⟩

theorem OutRun.step_untouched (r : OutRun) (op : OutOp) : Untouched r.link (r.step op).link := by
  cases op with
  | enqueue frame => exact (enqueue_untouched r.link frame.1).1
  | write script => exact kithNetConnWrite_untouched r.link script
  | close => exact close_untouched r.link

theorem OutRun.run_untouched (r : OutRun) (ops : List OutOp) :
    Untouched r.link (r.run ops).link := by
  induction ops generalizing r with
  | nil => exact .refl _
  | cons op ops ih => exact (r.step_untouched op).trans (ih (r.step op))

/-- A queue the socket takes whole in one uncapped call is empty afterwards, and
output interest dropped, exactly when the last queued frame is not empty. Such a
socket exists for every queue. -/
theorem write_empties_iff {cfg : ConnCfg} {fd : Int} {heap heap' : Heap NetSite} {conn : NetConn}
    {proto : KithProto} {ops : List OutOp}
    (created : kithConnCreate cfg fd heap = some (some conn, heap')) (socket : 0 ≤ fd)
    (unbounded : cfg.outDrainCap = 0xFFFFFFFF)
    (within : OutRun.Within ⟨.start conn proto heap', []⟩ ops)
    (live : (OutRun.run ⟨.start conn proto heap', []⟩ ops).link.conn.closed = false) :
    let s := (OutRun.run ⟨.start conn proto heap', []⟩ ops).link
    (∃ script, TakesAll script s) ∧ ∀ script, TakesAll script s →
      (kithNetConnWrite s script).1 = .ok ∧
      ((kithNetConnWrite s script).2.conn.outq = [] ∧
        (kithNetConnEvents (kithNetConnWrite s script).2.conn).2 = false ↔
        ∀ item, s.conn.outq.getLast? = some item → item.frame ≠ []) := by
  intro s
  have faithful : Faithful (OutRun.run ⟨.start conn proto heap', []⟩ ops).accepted s :=
    OutRun.run_faithful (r := ⟨.start conn proto heap', []⟩) (faithful_start created proto) within
  have kept : Untouched (.start conn proto heap') s :=
    OutRun.run_untouched ⟨.start conn proto heap', []⟩ ops
  obtain ⟨inbuf, heap₁, _, rfl⟩ := kithConnCreate_inv created
  have uncapped : s.conn.cfg.outDrainCap = 0xFFFFFFFF := by
    rw [kept.cfg]
    exact unbounded
  have open_fd : 0 ≤ s.conn.fd := by
    rw [kept.fd live]
    exact socket
  have last_iff : LastUnsent s.conn.outq ↔
      ∀ item, s.conn.outq.getLast? = some item → item.frame ≠ [] := by
    refine forall_congr' fun item => imp_congr_right fun final => not_congr ?_
    constructor
    · exact faithful.whole item (List.mem_of_getLast? final)
    · intro empty
      simp [OutItem.rem, empty]
  refine ⟨takesAll_exists s, fun script all => ?_⟩
  obtain ⟨ok, left⟩ := kithNetConnWrite_drains live open_fd (takesAll_drains uncapped all 0).1
  refine ⟨ok, ?_⟩
  rw [← last_iff, ← takesAll_empties_iff uncapped all 0, ← left]
  constructor
  · exact And.left
  · intro empty
    refine ⟨empty, ?_⟩
    rw [kithNetConnEvents, empty]
    rfl

def uncappedParams : NetParams := ⟨112, 1, 0, 0, 0, 0, 0, 0, 0xFFFFFFFF⟩

def uncappedConn : NetConn := { defaultConn with cfg := buildConnCfg (some uncappedParams) }

theorem uncappedConn_created :
    kithConnCreate (buildConnCfg (some uncappedParams)) 3 ⟨fun _ _ => true, 0⟩ =
      some (some uncappedConn, ⟨fun _ _ => true, 3⟩) := rfl

def uncappedStart : OutRun := ⟨.start uncappedConn pingProto ⟨fun _ _ => true, 3⟩, []⟩

/-- An empty frame in front of another leaves with it. -/
def emptyFirst : Link :=
  (uncappedStart.run [.enqueue ⟨[], by decide⟩, .enqueue ⟨[1, 2], by decide⟩]).link

theorem emptyFirst_empties : ∃ script, TakesAll script emptyFirst ∧
    (kithNetConnWrite emptyFirst script).2.conn.outq = [] ∧
    (kithNetConnEvents (kithNetConnWrite emptyFirst script).2.conn).2 = false := by
  have within : uncappedStart.Within [.enqueue ⟨[], by decide⟩, .enqueue ⟨[1, 2], by decide⟩] :=
    ⟨by rintro _ ⟨⟩, by rintro _ ⟨⟩, trivial⟩
  obtain ⟨⟨script, all⟩, empties⟩ := write_empties_iff uncappedConn_created (by decide) rfl within
    (by decide +kernel)
  refine ⟨script, all, (empties script all).2.mpr ?_⟩
  rintro item ⟨⟩
  exact List.cons_ne_nil _ _

/-- An empty frame behind another stays when everything is written. -/
def emptyLast : Link :=
  (uncappedStart.run [.enqueue ⟨[1], by decide⟩, .enqueue ⟨[], by decide⟩]).link

theorem empty_frame_keeps_interest :
    kithConnCreate (buildConnCfg (some uncappedParams)) 3 ⟨fun _ _ => true, 0⟩ =
      some (some uncappedConn, ⟨fun _ _ => true, 3⟩) ∧
    TakesAll [.sent 1] emptyLast ∧ (kithNetConnWrite emptyLast [.sent 1]).1 = .ok ∧
    (kithNetConnWrite emptyLast [.sent 1]).2.sent = [1] ∧
    (kithNetConnWrite emptyLast [.sent 1]).2.conn.outq = [⟨[], 0⟩] ∧
    (kithNetConnEvents (kithNetConnWrite emptyLast [.sent 1]).2.conn).2 = true :=
  ⟨rfl, .inr ⟨by decide +kernel, .inr (by decide +kernel)⟩, by decide +kernel⟩

end Emptying

end Kith.Net
