import Kith.Net.Conn

/-!
# Delivery of the buffered frames

The delivery loop decodes either the contiguous bytes of the ring or a gathered
copy, and shrinks the ring between frames. Whatever the ring looks like, it is a
scan of its contents with the flat decoder, cut short only by a callback that
closes the connection or by a gather that is refused.
-/

namespace Kith.Net

open Kith.Proto StreamDecoder List

section Buffers

variable {rb : Ringbuf} {l : List UInt8}

theorem declaredTotal_take {k : Nat} (full : 10 ≤ (l.take k).length) :
    declaredTotal (l.take k) = declaredTotal l := by
  have parsed := parseHeader_append full (l.drop k)
  rw [take_append_drop] at parsed
  simp only [declaredTotal, kithProtoDeclaredTotal, parsed]

theorem declaredTotal_short (short : l.length < 10) : declaredTotal l = 0 := by
  simp [declaredTotal, kithProtoDeclaredTotal, parseHeader_short short, Except.map]

theorem leadingFrameTotal_eq (valid : rb.Valid) :
    leadingFrameTotal rb = declaredTotal rb.contents := by
  obtain ⟨k, peeked, _⟩ := kithRingbufPeek_eq valid.toWf
  simp only [leadingFrameTotal, peeked]
  split
  · rename_i full
    exact declaredTotal_take full
  · split
    · rename_i short
      rw [declaredTotal_short (by simpa using short)]
    · rw [kithRingbufCopy_eq valid.toWf]
      exact declaredTotal_take (by rw [length_take, length_contents]; omega)

theorem finishPartialFrame_eq (s : Link) (buf : List UInt8) :
    finishPartialFrame s buf = if s.conn.cfg.rbMax.toNat < declaredTotal buf then
      (.err .eproto, { s with rejections := s.rejections + 1 }) else (.ok, s) := by
  rw [finishPartialFrame]
  by_cases full : 10 ≤ buf.length
  · simp [full]
  · simp [full, declaredTotal_short (l := buf) (by omega)]

theorem kithRingbufPeek_nil_iff (valid : rb.Valid) :
    kithRingbufPeek rb = [] ↔ rb.contents = [] := by
  obtain ⟨k, peeked, pos⟩ := kithRingbufPeek_eq valid.toWf
  rw [peeked, take_eq_nil_iff]
  constructor
  · rintro (zero | empty)
    · by_contra some_held
      have := pos some_held
      omega
    · exact empty
  · exact .inr

theorem gatherInput_eq (valid : rb.Valid) (heap : Heap NetSite) :
    (gatherInput rb heap).2.grant = heap.grant ∧
    ((gatherInput rb heap).1 = some rb.contents ∨
      (gatherInput rb heap).1 = none ∧ ∃ n, heap.grant .gather n = false) := by
  obtain ⟨k, peeked, _⟩ := kithRingbufPeek_eq valid.toWf
  simp only [gatherInput]
  split
  · split
    · simp only [Heap.request]
      cases granted : heap.grant .gather heap.calls with
      | false => exact ⟨rfl, .inr ⟨rfl, _, granted⟩⟩
      | true =>
        refine ⟨rfl, .inl ?_⟩
        rw [kithRingbufCopy_eq valid.toWf, take_of_length_le (by simp)]
    · refine ⟨rfl, .inl ?_⟩
      rw [kithRingbufCopy_eq valid.toWf, take_of_length_le (by rw [length_contents]; omega)]
  · rename_i whole
    refine ⟨rfl, .inl ?_⟩
    rw [peeked] at whole ⊢
    rw [length_take, length_contents] at whole
    rw [take_of_length_le (by rw [length_contents]; omega)]

end Buffers

section Callbacks

structure Untouched (s s' : Link) : Prop where
  inbuf : s'.conn.inbuf = s.conn.inbuf
  cfg : s'.conn.cfg = s.conn.cfg
  readBlocked : s'.conn.readBlocked = s.conn.readBlocked
  proto : s'.proto = s.proto
  rejections : s'.rejections = s.rejections
  delivered : s'.delivered = s.delivered
  grant : s'.heap.grant = s.heap.grant
  fd : s'.conn.closed = false → s'.conn.fd = s.conn.fd
  closed : s.conn.closed = true → s'.conn.closed = true

theorem Untouched.refl (s : Link) : Untouched s s :=
  ⟨rfl, rfl, rfl, rfl, rfl, rfl, rfl, fun _ => rfl, id⟩

theorem Untouched.trans {s t u : Link} (first : Untouched s t) (second : Untouched t u) :
    Untouched s u where
  inbuf := second.inbuf.trans first.inbuf
  cfg := second.cfg.trans first.cfg
  readBlocked := second.readBlocked.trans first.readBlocked
  proto := second.proto.trans first.proto
  rejections := second.rejections.trans first.rejections
  delivered := second.delivered.trans first.delivered
  grant := second.grant.trans first.grant
  fd := fun still => by
    have before : t.conn.closed = false := by
      cases h : t.conn.closed with
      | false => rfl
      | true => rw [second.closed h] at still; cases still
    exact (second.fd still).trans (first.fd before)
  closed := fun h => second.closed (first.closed h)

theorem close_untouched (s : Link) : Untouched s s.close := by
  rw [Link.close, kithNetConnClose]
  split
  · exact .refl s
  · exact ⟨rfl, rfl, rfl, rfl, rfl, rfl, rfl, (fun h => nomatch h), fun _ => rfl⟩

theorem enqueue_untouched (s : Link) (frame : List UInt8) :
    Untouched s (kithNetConnEnqueue s frame).2 ∧
      (kithNetConnEnqueue s frame).2.conn.closed = s.conn.closed := by
  simp only [kithNetConnEnqueue]
  split
  · exact ⟨.refl s, rfl⟩
  · split
    · exact ⟨.refl s, rfl⟩
    · simp only [Heap.request]
      cases s.heap.grant .outItem s.heap.calls <;>
        exact ⟨⟨rfl, rfl, rfl, rfl, rfl, rfl, rfl, fun _ => rfl, id⟩, rfl⟩

theorem acts_untouched (acts : List CallbackAct) (s : Link) :
    Untouched s (acts.foldl Link.act s) ∧
      (CallbackAct.close ∉ acts → (acts.foldl Link.act s).conn.closed = s.conn.closed) := by
  induction acts generalizing s with
  | nil => exact ⟨.refl s, fun _ => rfl⟩
  | cons act acts ih =>
    obtain ⟨rest, kept⟩ := ih (s.act act)
    cases act with
    | close =>
      exact ⟨(close_untouched s).trans rest, fun absent => absurd mem_cons_self absent⟩
    | enqueue frame =>
      obtain ⟨first, same⟩ := enqueue_untouched s frame
      refine ⟨first.trans rest, fun absent => ?_⟩
      exact (kept fun h => absent (mem_cons_of_mem _ h)).trans same

end Callbacks

section Loop

variable {onMessage : Callback} {s : Link}

/-- What the delivery and the receive loop keep of a connection. -/
structure Kept (s s' : Link) : Prop where
  valid : s'.conn.inbuf.Valid
  ceiling : s'.conn.inbuf.maxSize = s.conn.inbuf.maxSize
  cfg : s'.conn.cfg = s.conn.cfg
  grant : s'.heap.grant = s.heap.grant
  types : s'.proto.types = s.proto.types
  maxPayload : s'.proto.maxPayload = s.proto.maxPayload
  readBlocked : s'.conn.readBlocked = s.conn.readBlocked ∨ s'.conn.readBlocked = false

theorem Kept.refl (valid : s.conn.inbuf.Valid) : Kept s s :=
  ⟨valid, rfl, rfl, rfl, rfl, rfl, .inl rfl⟩

theorem Kept.trans {t u : Link} (first : Kept s t) (second : Kept t u) : Kept s u where
  valid := second.valid
  ceiling := second.ceiling.trans first.ceiling
  cfg := second.cfg.trans first.cfg
  grant := second.grant.trans first.grant
  types := second.types.trans first.types
  maxPayload := second.maxPayload.trans first.maxPayload
  readBlocked := by
    rcases second.readBlocked with same | off
    · rw [same]
      exact first.readBlocked
    · exact .inr off

theorem deliver_consume (onMessage : Callback) (valid : s.conn.inbuf.Valid)
    (frame : ProtoFrame) (k : Nat) :
    ∃ s', (s.deliver onMessage frame).consume k = some s' ∧ Kept s s' ∧
      s'.conn.inbuf.contents = s.conn.inbuf.contents.drop k ∧
      s'.delivered = s.delivered ++ [frame] ∧ s'.proto = s.proto ∧
      (s'.conn.closed = true →
        s.conn.closed = true ∨ ∃ history, CallbackAct.close ∈ onMessage history) := by
  obtain ⟨quiet, kept⟩ := acts_untouched (onMessage (s.delivered ++ [frame]))
    { s with delivered := s.delivered ++ [frame] }
  set t := s.deliver onMessage frame with ht
  change Untouched _ t at quiet
  have hvalid : t.conn.inbuf.Valid := by rw [quiet.inbuf]; exact valid
  obtain ⟨consumed, dropped⟩ := kithRingbufConsume_spec hvalid.toWf k
  obtain ⟨⟨done, rb, heap⟩, shrunk, after, same, ceiling, grant, _⟩ :=
    kithRingbufMaybeShrink_spec consumed t.heap
  simp only [Link.consume, shrunk, Option.map_some]
  refine ⟨_, rfl,
    ⟨hvalid.keep after ceiling, ?_, quiet.cfg, grant.trans quiet.grant, by rw [quiet.proto],
    by rw [quiet.proto], ?_⟩, ?_, quiet.delivered, quiet.proto, ?_⟩
  · rw [ceiling, kithRingbufConsume, quiet.inbuf]
  · split
    · exact .inr rfl
    · exact .inl quiet.readBlocked
  · rw [same, dropped, quiet.inbuf]
  · intro closed
    by_cases quietly : CallbackAct.close ∈ onMessage (s.delivered ++ [frame])
    · exact .inr ⟨_, quietly⟩
    · exact .inl ((kept quietly).symm.trans closed)

/-- The result of a delivery that ran to the end of the scan. -/
def finishRc (rbMax : UInt32) (scanned : Scanned UInt8 ProtoFrame) : Rc :=
  if scanned.bad = true ∨ rbMax.toNat < declaredTotal scanned.rest then .err .eproto else .ok

/-- How a delivery can end. The scan is of the contents it started with. -/
inductive Ending (onMessage : Callback) (s s' : Link) (rc : Rc) : Prop where
  | closed (ok : rc = .ok) (shut : s'.conn.closed = true)
      (cause : s.conn.closed = true ∨ ∃ history, CallbackAct.close ∈ onMessage history)
  | refused (enomem : rc = .err .enomem) (cause : ∃ n, s.heap.grant .gather n = false)
  | finished (scanned : Scanned UInt8 ProtoFrame)
      (scan : (frameDecoder s.proto).scan s.conn.inbuf.contents = scanned)
      (delivered : s'.delivered = s.delivered ++ scanned.items)
      (rest : s'.conn.inbuf.contents = scanned.rest) (still : s'.conn.closed = false)
      (code : rc = finishRc s.conn.cfg.rbMax scanned)

theorem Ending.cons {t s' : Link} {rc : Rc} {frame : ProtoFrame} {k : Nat}
    (found : (frameDecoder s.proto).next s.conn.inbuf.contents = .item frame k) (kept : Kept s t)
    (contents : t.conn.inbuf.contents = s.conn.inbuf.contents.drop k)
    (delivered : t.delivered = s.delivered ++ [frame]) (proto : t.proto = s.proto)
    (cause : t.conn.closed = true →
      s.conn.closed = true ∨ ∃ history, CallbackAct.close ∈ onMessage history)
    (ending : Ending onMessage t s' rc) : Ending onMessage s s' rc := by
  cases ending with
  | closed ok shut why => exact .closed ok shut (why.elim cause .inr)
  | refused enomem why => exact .refused enomem (kept.grant ▸ why)
  | finished scanned scan delivered' rest still code =>
    rw [contents, proto] at scan
    refine .finished _ (scan_item found) ?_ ?_ still ?_
    · rw [delivered', delivered, scan, append_assoc]
      rfl
    · rw [scan]
      exact rest
    · rw [code, kept.cfg, scan]
      rfl

theorem deliverLoop_spec {fuel : Nat} (valid : s.conn.inbuf.Valid)
    (enough : kithRingbufUsed s.conn.inbuf < fuel) :
    ∃ rc s', deliverLoop onMessage fuel s = some (rc, s') ∧ Kept s s' ∧
      Ending onMessage s s' rc := by
  induction fuel generalizing s with
  | zero => omega
  | succ fuel ih =>
    rw [deliverLoop]
    cases shut : s.conn.closed with
    | true => exact ⟨_, s, rfl, .refl valid, .closed rfl shut (.inl shut)⟩
    | false =>
      by_cases empty : kithRingbufPeek s.conn.inbuf = []
      · have nothing := (kithRingbufPeek_nil_iff valid).mp empty
        refine ⟨.ok, s, by simp [empty], .refl valid,
          .finished ⟨[], [], false⟩ ?_ (by simp) nothing shut ?_⟩
        · rw [nothing]
          exact scan_more (frameDecoder s.proto).next_nil
        · simp [finishRc, declaredTotal_short]
      · simp only [Bool.false_eq_true, if_false, empty]
        obtain ⟨grant, shown⟩ := gatherInput_eq valid s.heap
        rcases gathered : gatherInput s.conn.inbuf s.heap with ⟨buf, heap⟩
        rw [gathered] at grant shown
        rcases shown with rfl | ⟨rfl, cause⟩
        · simp only [kithProtoDecode_eq]
          cases found : (frameDecoder s.proto).next s.conn.inbuf.contents with
          | more =>
            have scan := scan_more found
            simp only [finishPartialFrame_eq]
            split
            · rename_i excess
              exact ⟨_, _, rfl, ⟨valid, rfl, rfl, grant, rfl, rfl, .inl rfl⟩,
                .finished _ scan (by simp) rfl shut (by simp [finishRc, excess])⟩
            · rename_i under
              exact ⟨_, _, rfl, ⟨valid, rfl, rfl, grant, rfl, rfl, .inl rfl⟩,
                .finished _ scan (by simp) rfl shut (by simp [finishRc, under])⟩
          | bad =>
            exact ⟨_, _, rfl, ⟨valid, rfl, rfl, grant, rfl, rfl, .inl rfl⟩,
              .finished _ (scan_bad found) (by simp) rfl shut (by simp [finishRc])⟩
          | item frame k =>
            obtain ⟨t, after, kept, contents, delivered, proto, cause⟩ :=
              deliver_consume (s := { s with heap := heap, proto := s.proto }) onMessage valid
                frame k
            have fewer : kithRingbufUsed t.conn.inbuf < fuel := by
              have shorter := drop_shorter found
              rw [← contents, length_contents, length_contents] at shorter
              omega
            obtain ⟨rc, s', looped, kept', ending⟩ := ih kept.valid fewer
            have kept : Kept s t := { kept with grant := kept.grant.trans grant }
            simp only [after, Option.bind_some]
            exact ⟨rc, s', looped, kept.trans kept',
              ending.cons found kept contents delivered proto cause⟩
        · exact ⟨_, _, rfl, ⟨valid, rfl, rfl, grant, rfl, rfl, .inl rfl⟩, .refused rfl cause⟩

theorem deliverFrames_spec (onMessage : Callback) (valid : s.conn.inbuf.Valid) :
    ∃ rc s', deliverFrames onMessage s = some (rc, s') ∧ Kept s s' ∧ Ending onMessage s s' rc :=
  deliverLoop_spec valid (Nat.lt_succ_self _)

def GathersGranted (s : Link) : Prop := ∀ n, s.heap.grant .gather n = true

/-- Frame reassembly does not depend on where the bytes lie in the ring: with
gathers granted and callbacks that do not close, the delivery hands over the
frames of the flat scan, leaves the bytes behind them, and reports malformed
bytes as the flat decoder does. -/
theorem deliverFrames_eq_scan (valid : s.conn.inbuf.Valid) (live : s.conn.closed = false)
    (granted : GathersGranted s) (harmless : ∀ history, CallbackAct.close ∉ onMessage history) :
    ∃ rc s', deliverFrames onMessage s = some (rc, s') ∧
      s'.delivered = s.delivered ++
        ((frameDecoder s.proto).scan s.conn.inbuf.contents).items ∧
      s'.conn.inbuf.Valid ∧
      s'.conn.inbuf.contents = ((frameDecoder s.proto).scan s.conn.inbuf.contents).rest ∧
      (∀ code, code ≠ .eagain →
        (kithProtoDecode s.proto s'.conn.inbuf.contents).1 = .error code → rc = .err code) ∧
      rc = finishRc s.conn.cfg.rbMax ((frameDecoder s.proto).scan s.conn.inbuf.contents) := by
  obtain ⟨rc, s', returned, kept, ending⟩ := deliverFrames_spec onMessage valid
  refine ⟨rc, s', returned, ?_⟩
  cases ending with
  | closed ok shut cause =>
    rcases cause with already | ⟨history, closing⟩
    · rw [live] at already
      cases already
    · exact absurd closing (harmless history)
  | refused enomem cause =>
    obtain ⟨n, refusal⟩ := cause
    rw [granted n] at refusal
    cases refusal
  | finished scanned scan delivered rest still code =>
    rw [scan]
    refine ⟨delivered, kept.valid, rest, fun e other failed => ?_, code⟩
    have verdict := next_rest (d := frameDecoder s.proto) s.conn.inbuf.contents
    rw [scan, ← rest] at verdict
    rw [kithProtoDecode_eq, verdict] at failed
    cases bad : scanned.bad with
    | true =>
      simp only [bad, if_true, Except.error.injEq] at failed
      rw [code, finishRc, if_pos (.inl bad), failed]
    | false =>
      simp only [bad, Bool.false_eq_true, if_false, Except.error.injEq] at failed
      exact absurd failed.symm other

section Instances

def pingProto : KithProto := ⟨[⟨"ping", 7⟩], 1024, 0⟩

def pingBytes : List UInt8 := [0x4B, 0x54, 1, 0, 0, 7, 0, 0, 0, 0]

def pingFrame : ProtoFrame := ⟨7, 0, false, 0, 0, []⟩

/-- The frame in a ring of sixteen bytes, six bytes before the end of the array. -/
def wrappedRing : Ringbuf := ⟨Cyclic.scatter 16 (fun _ => 0) 10 pingBytes, 16, 20, 10, 16, 16⟩

def wrappedLink : Link where
  conn := ⟨3, wrappedRing, [], 0, false, false, buildConnCfg none⟩
  proto := pingProto
  rejections := 0
  writeDeferrals := 0
  heap := ⟨fun _ _ => true, 0⟩
  delivered := []
  sent := []

theorem deliverFrames_wrapped :
    ∃ rc s', deliverFrames (fun _ => []) wrappedLink = some (rc, s') ∧
      s'.delivered = [pingFrame] ∧ s'.conn.inbuf.contents = [] := by
  have valid : wrappedRing.Valid :=
    ⟨⟨⟨4, rfl⟩, ⟨4, rfl⟩, ⟨4, by decide, rfl⟩, le_refl _, le_refl _, by decide⟩, by decide⟩
  obtain ⟨rc, s', returned, delivered, _, rest, _⟩ := @deliverFrames_eq_scan (fun _ => [])
    wrappedLink valid rfl (fun _ => rfl) (by simp)
  have scan : (frameDecoder wrappedLink.proto).scan wrappedLink.conn.inbuf.contents =
      ⟨[pingFrame], [], false⟩ := by decide
  exact ⟨rc, s', returned, delivered, rest⟩

end Instances

end Loop

end Kith.Net
