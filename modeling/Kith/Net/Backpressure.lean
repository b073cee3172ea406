import Kith.Net.Read

/-!
# Input backpressure

A read that returns 0 and leaves the connection open pauses further reads when
the bytes held reach the pause point. The pause point is lifted to the declared
total of the leading frame, but only once a whole header is held: a high
watermark below the size of a header pauses a connection that holds part of one,
and nothing then delivers a frame that would resume it.
-/

namespace Kith.Net

open Kith.Proto StreamDecoder List

section Verdicts

theorem held_lt_total {proto : KithProto} {l : List UInt8}
    (more : (frameDecoder proto).next l = .more) :
    l.length < 10 ∨ l.length < declaredTotal l := by
  by_contra held
  push Not at held
  have again : decodeFrame proto l = .error .eagain := by
    rcases decodeFrame_cases proto l with again | ⟨bad, _⟩ | ⟨h, f, _, _, decoded, _⟩
    · exact again
    · simp [frameDecoder, frameVerdict, bad] at more
    · simp [frameDecoder, frameVerdict, decoded] at more
  cases parsed : parseHeader l with
  | error code =>
    rcases parseHeader_error parsed with ⟨short, _⟩ | ⟨_, rfl⟩
    · omega
    · simp [decodeFrame, parsed] at again
  | ok h =>
    have total : declaredTotal l = h.total := by
      simp [declaredTotal, kithProtoDeclaredTotal, parsed, Except.map]
    have enough : ¬ l.length < h.total := by omega
    simp only [decodeFrame, parsed, enough, if_false] at again
    split at again
    · cases again
    · cases decodeBody_error again

end Verdicts

section Runs

inductive ConnOp where
  | read (onMessage : Callback) (script : List RecvResult)
  | write (script : List SendResult)
  | enqueue (frame : List UInt8)
  | close

def Link.step (s : Link) : ConnOp → Option (Rc × Link)
  | .read onMessage script => kithNetConnRead onMessage script s
  | .write script => some (kithNetConnWrite s script)
  | .enqueue frame => some (kithNetConnEnqueue s frame)
  | .close => some (.ok, s.close)

def Link.start (conn : NetConn) (proto : KithProto) (heap : Heap NetSite) : Link :=
  ⟨conn, proto, 0, 0, heap, [], []⟩

inductive Reaches (start : Link) : Link → Prop where
  | start : Reaches start start
  | step {s s' : Link} {op : ConnOp} {rc : Rc} (reached : Reaches start s)
      (stepped : s.step op = some (rc, s')) : Reaches start s'

theorem connWriteDrain_untouched (script : List SendResult) (written : Nat) (s : Link) :
    Untouched s (connWriteDrain script written s).2 ∧
      (connWriteDrain script written s).2.conn.closed = s.conn.closed := by
  induction script generalizing written s with
  | nil =>
    unfold connWriteDrain
    split <;> exact ⟨.refl s, rfl⟩
  | cons result script ih =>
    unfold connWriteDrain
    split
    · exact ⟨.refl s, rfl⟩
    · cases result with
      | wouldBlock | error => exact ⟨.refl s, rfl⟩
      | intr => exact ih written s
      | sent n =>
        dsimp only
        split
        · exact ⟨.refl s, rfl⟩
        · have advanced : ∀ (outq : List OutItem) (bytes : Nat) (sent : List UInt8), Untouched s
              { s with conn := { s.conn with outq := outq, outqBytes := bytes }, sent := sent } :=
            fun _ _ _ => ⟨rfl, rfl, rfl, rfl, rfl, rfl, rfl, fun _ => rfl, id⟩
          split
          · exact ⟨advanced _ _ _, rfl⟩
          · obtain ⟨rest, same⟩ := ih (written + n) _
            exact ⟨(advanced _ _ _).trans rest, same⟩

theorem kithNetConnWrite_untouched (s : Link) (script : List SendResult) :
    Untouched s (kithNetConnWrite s script).2 := by
  simp only [kithNetConnWrite]
  split
  · exact .refl s
  · split
    · exact .refl s
    · obtain ⟨drained, _⟩ := connWriteDrain_untouched script 0 s
      rcases stopped : connWriteDrain script 0 s with ⟨⟨rc, capped⟩, t⟩
      rw [stopped] at drained
      have counted : Untouched t (if (capped && !t.conn.outq.isEmpty) = true then
          { t with writeDeferrals := t.writeDeferrals + 1 } else t) := by
        split
        · exact ⟨rfl, rfl, rfl, rfl, rfl, rfl, rfl, fun _ => rfl, id⟩
        · exact .refl t
      cases rc with
      | ok => exact drained.trans counted
      | err code => exact (drained.trans counted).trans (close_untouched _)

/-- The ring is sound, and an open connection is not paused. -/
structure Flowing (cfg : ConnCfg) (s : Link) : Prop where
  valid : s.conn.inbuf.Valid
  cfg : s.conn.cfg = cfg
  flowing : s.conn.closed = false → s.conn.readBlocked = false

variable {cfg : ConnCfg} {s s' : Link}

theorem Flowing.untouched (flowing : Flowing cfg s) (same : Untouched s s') : Flowing cfg s' where
  valid := by rw [same.inbuf]; exact flowing.valid
  cfg := same.cfg.trans flowing.cfg
  flowing := by
    intro still
    have before : s.conn.closed = false := by
      cases h : s.conn.closed with
      | false => rfl
      | true => rw [same.closed h] at still; cases still
    rw [same.readBlocked]
    exact flowing.flowing before

/-- The configurations under which no open connection is paused. -/
def ConnCfg.Spacious (cfg : ConnCfg) : Prop :=
  10 ≤ cfg.inHighWater.toNat ∧ 10 ≤ cfg.rbMax.toNat

theorem held_lt_pause {proto : KithProto} {c : NetConn} (valid : c.inbuf.Valid)
    (spacious : c.cfg.Spacious) (more : (frameDecoder proto).next c.inbuf.contents = .more)
    (acceptable : declaredTotal c.inbuf.contents ≤ c.cfg.rbMax.toNat) :
    kithRingbufUsed c.inbuf < inputPauseAt c := by
  obtain ⟨high, ceiling⟩ := spacious
  rw [inputPauseAt, leadingFrameTotal_eq valid]
  have held := held_lt_total more
  rw [length_contents] at held
  omega

theorem Flowing.read {rc : Rc} {onMessage : Callback} {script : List RecvResult}
    (flowing : Flowing cfg s) (spacious : cfg.Spacious)
    (read : kithNetConnRead onMessage script s = some (rc, s')) : Flowing cfg s' := by
  obtain ⟨valid, same⟩ := read_valid flowing.valid read
  refine ⟨valid, same.trans flowing.cfg, fun still => ?_⟩
  cases shut : s.conn.closed with
  | true =>
    rw [kithNetConnRead_closed shut] at read
    cases read
    exact flowing.flowing still
  | false =>
    obtain ⟨rc', t', returned, ending⟩ := kithNetConnRead_spec onMessage script flowing.valid shut
    rw [read] at returned
    cases returned
    cases ending with
    | failed t _ _ _ closed | rejected t u _ _ _ _ _ closed =>
      rw [closed, close_closed] at still
      cases still
    | returned t u quiet _ kept ending ok paused =>
      have cfg_u : u.conn.cfg = cfg := (kept.cfg.trans quiet.kept.cfg).trans flowing.cfg
      rw [paused] at still ⊢
      have unpaused : u.conn.readBlocked = false := by
        rcases kept.readBlocked with same | off
        · rw [same, quiet.readBlocked]
          exact flowing.flowing shut
        · exact off
      have short : kithRingbufUsed u.conn.inbuf < inputPauseAt u.conn := by
        cases ending with
        | closed _ shut _ =>
          rw [shut] at still
          cases still
        | refused enomem _ => cases enomem
        | finished scanned scan _ rest _ code =>
          have fine : ¬ (scanned.bad = true ∨
              t.conn.cfg.rbMax.toNat < declaredTotal scanned.rest) := by
            intro bad
            rw [finishRc, if_pos bad] at code
            cases code
          rw [not_or, Bool.not_eq_true] at fine
          have verdict := next_rest (d := frameDecoder t.proto) t.conn.inbuf.contents
          rw [scan, fine.1, ← rest] at verdict
          refine held_lt_pause kept.valid (by rw [cfg_u]; exact spacious) verdict ?_
          rw [kept.cfg, rest]
          omega
      rw [if_neg (by omega)]
      exact unpaused

def ConnOp.Reads (op : ConnOp) : Prop := ∃ onMessage script, op = .read onMessage script

theorem step_untouched {op : ConnOp} {rc : Rc} (other : ¬ op.Reads)
    (stepped : s.step op = some (rc, s')) : Untouched s s' := by
  cases op with
  | read onMessage script => exact absurd ⟨_, _, rfl⟩ other
  | write script =>
    have same := kithNetConnWrite_untouched s script
    rwa [Option.some.inj stepped] at same
  | enqueue frame =>
    have same := (enqueue_untouched s frame).1
    rwa [Option.some.inj stepped] at same
  | close =>
    cases stepped
    exact close_untouched s

theorem Flowing.reaches {start : Link} (flowing : Flowing cfg start) (spacious : cfg.Spacious)
    (reached : Reaches start s) : Flowing cfg s := by
  induction reached with
  | start => exact flowing
  | @step _ _ op _ _ stepped ih =>
    by_cases read : op.Reads
    · obtain ⟨onMessage, script, rfl⟩ := read
      exact ih.read spacious stepped
    · exact ih.untouched (step_untouched read stepped)

end Runs

section Create

theorem resolveCfgField_ne_zero {value fallback : UInt32} (some_default : fallback ≠ 0) :
    (resolveCfgField value fallback).toNat ≠ 0 := by
  have nonzero : resolveCfgField value fallback ≠ 0 := by
    rw [resolveCfgField]
    split
    · exact some_default
    · assumption
  exact fun h => nonzero (UInt32.toNat_inj.mp h)

variable {cfg : ConnCfg} {heap heap' : Heap NetSite} {conn : NetConn} {fd : Int}

theorem kithNetCreate_ok {params : Option NetParams} (accepted : kithNetCreate params = .ok cfg) :
    cfg.inHighWater.toNat ≠ 0 ∧ 8192 ≤ cfg.rbMax.toNat ∧ cfg.rbInitial.toNat ≠ 0 := by
  cases params with
  | none =>
    cases accepted
    decide
  | some p =>
    rw [kithNetCreate] at accepted
    split at accepted
    · cases accepted
    split at accepted
    · cases accepted
    split at accepted
    · cases accepted
    rename_i room
    cases accepted
    refine ⟨resolveCfgField_ne_zero (by decide), ?_, resolveCfgField_ne_zero (by decide)⟩
    simp only [buildConnCfg, Option.getD_some, resolveCfgField]
    split
    · decide
    · rename_i given
      have large : ¬ p.readBufferMax < 8192 := fun h => room ⟨given, h⟩
      simpa [UInt32.lt_iff_toNat_lt] using large

section

variable (created : kithConnCreate cfg fd heap = some (some conn, heap'))
include created

/-- A connection that was created is the ring it was given and nothing else yet. -/
theorem kithConnCreate_inv :
    ∃ inbuf heap₁, kithRingbufInit (heap.request .conn).2 cfg.rbInitial.toNat cfg.rbMax.toNat =
        some (some inbuf, heap₁) ∧ conn = ⟨fd, inbuf, [], 0, false, false, cfg⟩ := by
  rw [kithConnCreate] at created
  cases granted : heap.request .conn with
  | mk grant heap₁ =>
    rw [granted] at created
    cases grant with
    | false => simp at created
    | true =>
      obtain ⟨⟨inbuf, heap₂⟩, ring, created⟩ := Option.map_eq_some_iff.mp created
      cases inbuf with
      | none => simp at created
      | some inbuf =>
        simp only at created
        split at created
        · simp at created
        · simp only [Prod.mk.injEq, Option.some.injEq] at created
          exact ⟨inbuf, heap₂, ring, created.1.symm⟩

theorem kithConnCreate_spec :
    conn.inbuf.Valid ∧ conn.inbuf.contents = [] ∧ conn.cfg = cfg ∧ conn.closed = false ∧
      conn.readBlocked = false ∧ cfg.rbInitial.toNat ≤ cfg.rbMax.toNat ∧
      nextPow2 cfg.rbMax.toNat = some conn.inbuf.maxSize ∧
      cfg.rbMax.toNat ≤ conn.inbuf.maxSize := by
  obtain ⟨inbuf, heap₁, ring, rfl⟩ := kithConnCreate_inv created
  have order : cfg.rbInitial.toNat ≤ cfg.rbMax.toNat := by
    by_contra above
    have params : cfg.rbInitial.toNat = 0 ∨ cfg.rbMax.toNat = 0 ∨
        cfg.rbMax.toNat < cfg.rbInitial.toNat := by omega
    rw [kithRingbufInit, if_pos params] at ring
    simp at ring
  obtain ⟨valid, empty, rounded, ceiling⟩ :=
    kithRingbufInit_spec (le_of_lt cfg.rbMax.toNat_lt) ring
  exact ⟨valid, empty, rfl, rfl, rfl, order, rounded, ceiling⟩

end

theorem kithConnCreate_granted (pos : cfg.rbInitial.toNat ≠ 0)
    (order : cfg.rbInitial.toNat ≤ cfg.rbMax.toNat) (fd : Int) :
    ∃ conn heap, kithConnCreate cfg fd ⟨fun _ _ => true, 0⟩ = some (some conn, heap) ∧
      ∀ site n, heap.grant site n = true := by
  obtain ⟨rb, heap, ring, grant⟩ := kithRingbufInit_ok ⟨fun _ _ => true, 1⟩ pos order
    (le_of_lt cfg.rbMax.toNat_lt) (fun _ => rfl)
  simp only [kithConnCreate, Heap.request, Nat.zero_add, ring, Option.map_some, grant]
  exact ⟨_, _, rfl, fun _ _ => rfl⟩

end Create

/-- Every read of every run that returns 0 on a connection still open leaves the
connection interested in input. -/
def NeverStalls (cfg : ConnCfg) : Prop :=
  ∀ fd heap heap' conn proto s, kithConnCreate cfg fd heap = some (some conn, heap') →
    Reaches (.start conn proto heap') s → ∀ onMessage script s',
      kithNetConnRead onMessage script s = some (.ok, s') → s'.conn.closed = false →
        s'.conn.readBlocked = false ∧ (kithNetConnEvents s'.conn).1 = true

theorem stalls_of_low_watermark {cfg : ConnCfg} (pos : cfg.inHighWater.toNat ≠ 0)
    (low : cfg.inHighWater.toNat < 10) (ceiling : 8192 ≤ cfg.rbMax.toNat)
    (initial : cfg.rbInitial.toNat ≠ 0) (order : cfg.rbInitial.toNat ≤ cfg.rbMax.toNat) :
    ¬ NeverStalls cfg := by
  intro never
  set k := cfg.inHighWater.toNat with hk
  obtain ⟨conn, heap, created, granted⟩ := kithConnCreate_granted initial order 3
  obtain ⟨valid, empty, cfg_eq, live, _, _, _, room⟩ := kithConnCreate_spec created
  have used : kithRingbufUsed conn.inbuf = 0 := by rw [← length_contents, empty]; rfl
  set script : List RecvResult := [.data ⟨replicate k 0, by rw [length_replicate]; omega⟩]
    with hscript
  have some_bytes : replicate k (0 : UInt8) ≠ [] := by
    simpa [replicate_eq_nil_iff] using pos
  have bytes : handed script = replicate k 0 := by
    simp [hscript, handed, some_bytes]
  obtain ⟨s', all⟩ := kithNetConnRead_all (fun _ => []) script
    (s := .start conn ⟨[], 0, 0⟩ heap) valid live granted (by simp)
    (by simp [hscript, scriptRc, some_bytes])
    (by rw [bytes, length_replicate]; simp only [Link.start]; omega)
  have held : conn.inbuf.contents ++ handed script = replicate k 0 := by
    rw [empty, bytes, nil_append]
  have more : frameVerdict ⟨[], 0, 0⟩ (replicate k 0) = .more := by
    have short : (replicate k (0 : UInt8)).length < 10 := by rw [length_replicate]; omega
    simp [frameVerdict, decodeFrame, parseHeader_short short]
  have scan : (frameDecoder ⟨[], 0, 0⟩).scan (conn.inbuf.contents ++ handed script) =
      ⟨[], replicate k 0, false⟩ := by
    rw [held]
    exact scan_more more
  have short : declaredTotal (replicate k (0 : UInt8)) = 0 :=
    declaredTotal_short (by rw [length_replicate]; omega)
  simp only [Link.start] at all
  rw [scan] at all
  have ok : finishRc conn.cfg.rbMax ⟨[], replicate k 0, false⟩ = .ok := by
    simp [finishRc, short]
  have still := all.closed.mpr ok
  have paused : s'.conn.readBlocked = true := by
    refine all.paused ok ?_
    rw [inputPauseAt, leadingFrameTotal_eq all.valid, ← length_contents, all.contents, all.cfg,
      cfg_eq, short, length_replicate]
    omega
  have flows := (never 3 _ _ conn _ _ created .start (fun _ => []) script s'
    (by rw [← ok]; exact all.read) still).1
  rw [paused] at flows
  cases flows

/-- The reads of an accepted configuration never stall exactly when the high
watermark is at least the size of a frame header, or the ring cannot be set up
and there is no connection to read. -/
theorem reads_never_stall_iff {params : Option NetParams} {cfg : ConnCfg}
    (accepted : kithNetCreate params = .ok cfg) :
    NeverStalls cfg ↔ 10 ≤ cfg.inHighWater.toNat ∨ cfg.rbMax.toNat < cfg.rbInitial.toNat := by
  obtain ⟨high, ceiling, initial⟩ := kithNetCreate_ok accepted
  constructor
  · intro never
    by_contra bad
    push Not at bad
    exact stalls_of_low_watermark high bad.1 ceiling initial bad.2 never
  · intro spacious fd heap heap' conn proto s created reached onMessage script s' read still
    obtain ⟨valid, _, cfg_eq, _, unblocked, order, _⟩ := kithConnCreate_spec created
    have enough : cfg.Spacious := ⟨spacious.resolve_right (by omega), by omega⟩
    have start : Flowing cfg (.start conn proto heap') := ⟨valid, cfg_eq, fun _ => unblocked⟩
    have flows := ((start.reaches enough reached).read enough read).flowing still
    exact ⟨flows, by simp [kithNetConnEvents, flows]⟩

theorem default_reads_never_stall : NeverStalls (buildConnCfg none) :=
  (@reads_never_stall_iff none _ rfl).mpr (.inl (by decide))

/-- A high watermark of four bytes. -/
def lowWaterParams : NetParams := ⟨112, 1, 0, 0, 4, 0, 0, 0, 0⟩

/-- The configuration is accepted; a read of the first four bytes of a header
returns 0, leaves the connection open, and takes input out of its events. -/
theorem low_watermark_stalls :
    ∃ cfg conn heap s', kithNetCreate (some lowWaterParams) = .ok cfg ∧
      kithConnCreate cfg 3 ⟨fun _ _ => true, 0⟩ = some (some conn, heap) ∧
      kithNetConnRead (fun _ => []) [.data ⟨pingBytes.take 4, by decide⟩]
        (.start conn pingProto heap) = some (.ok, s') ∧
      s'.conn.closed = false ∧ s'.conn.readBlocked = true ∧
      (kithNetConnEvents s'.conn).1 = false :=
  ⟨_, _, _, _, rfl, rfl, rfl, rfl, rfl, rfl⟩

end Kith.Net
