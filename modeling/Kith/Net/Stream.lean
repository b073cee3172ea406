import Kith.Net.Backpressure

/-!
# A valid stream over successive reads

A stream of complete frames reaches a connection over successive read calls, each
of which is handed some of its bytes and then told to wait. Every frame arrives,
in order, exactly when no call finds more bytes than the ring can take on top of
the part of a frame it still holds: the receive loop drains the socket before
anything is decoded, and a ring at its ceiling closes the connection.
-/

namespace Kith.Net

open Kith.Proto StreamDecoder List

/-- Successive reads; `none` when one of them does not return. -/
def readCalls (onMessage : Callback) : List (List RecvResult) → Link → Option Link
  | [], s => some s
  | script :: calls, s =>
    (kithNetConnRead onMessage script s).bind fun (_, s) => readCalls onMessage calls s

def handedCalls (calls : List (List RecvResult)) : List UInt8 := (calls.map handed).flatten

/-- No call finds more bytes than the ring can take: `received` is what came
before, of which the ring holds the part behind the last complete frame. -/
def CallsFit (proto : KithProto) (ceiling : Nat) : List UInt8 → List (List RecvResult) → Prop
  | _, [] => True
  | received, script :: calls =>
    ((frameDecoder proto).scan received).rest.length + (handed script).length ≤ ceiling ∧
      CallsFit proto ceiling (received ++ handed script) calls

variable {proto : KithProto}

theorem declaredTotal_initial {w p : List UInt8} {f : ProtoFrame}
    (whole : (frameDecoder proto).next w = .item f w.length) (initial : p <+: w) :
    declaredTotal p ≤ w.length := by
  by_cases full : 10 ≤ p.length
  · obtain ⟨t, rfl⟩ := initial
    rcases decodeFrame_cases proto (p ++ t) with again | ⟨bad, _⟩ | ⟨h, g, parsed, _, decoded, _⟩
    · simp [frameDecoder, frameVerdict, again] at whole
    · simp [frameDecoder, frameVerdict, bad] at whole
    · rw [parseHeader_append full] at parsed
      simp only [declaredTotal, kithProtoDeclaredTotal, parsed, Except.map]
      omega
  · rw [declaredTotal_short (by omega)]
    exact Nat.zero_le _

variable {ws : List (List UInt8 × ProtoFrame)}

/-- No initial part of a stream of frames declares more than the largest of them. -/
theorem declaredTotal_stream {bound : Nat}
    (encoded : Encoded (frameDecoder proto) ws) (small : ∀ w ∈ ws, w.1.length ≤ bound)
    {p : List UInt8} (initial : p <+: bytes ws) : declaredTotal p ≤ bound := by
  cases ws with
  | nil =>
    rw [prefix_nil.mp initial, declaredTotal_short (by simp)]
    exact Nat.zero_le _
  | cons w ws =>
    have whole := encoded w mem_cons_self
    have first : w.1 <+: bytes (w :: ws) := prefix_append ..
    refine le_trans ?_ (small w mem_cons_self)
    by_cases inside : p.length ≤ w.1.length
    · exact declaredTotal_initial whole (prefix_of_prefix_length_le initial first inside)
    · obtain ⟨t, rfl⟩ := prefix_of_prefix_length_le first initial (by omega)
      have full : 10 ≤ w.1.length := by
        by_contra short
        simp [frameDecoder, frameVerdict, decodeFrame, parseHeader_short
          (by omega : w.1.length < 10)] at whole
      have same := declaredTotal_take (l := w.1 ++ t) (k := w.1.length) (by simpa using full)
      rw [take_left] at same
      rw [← same]
      exact declaredTotal_initial whole (prefix_refl _)

theorem finishRc_initial {rbMax : UInt32}
    (encoded : Encoded (frameDecoder proto) ws) (small : ∀ w ∈ ws, w.1.length ≤ rbMax.toNat)
    {p : List UInt8} (initial : p <+: bytes ws) :
    finishRc rbMax ((frameDecoder proto).scan p) = .ok ∧
      ((frameDecoder proto).scan p).bad = false := by
  obtain ⟨done, todo, rest, rfl, rfl, scan, ends⟩ := scan_initial encoded initial
  rw [scan]
  refine ⟨?_, rfl⟩
  have acceptable : declaredTotal rest ≤ rbMax.toNat := by
    rcases ends with ⟨rfl, _⟩ | ⟨w, first, inside, _⟩
    · exact Nat.zero_le _
    · have member : w ∈ done ++ todo :=
        mem_append_right done (mem_of_mem_head? first)
      exact le_trans (declaredTotal_initial (encoded w member) inside) (small w member)
  simp only [finishRc, Bool.false_eq_true, false_or]
  rw [if_neg (by omega)]

variable {conn : NetConn}

section Runs

variable {proto : KithProto} {ws : List (List UInt8 × ProtoFrame)} {onMessage : Callback}

/-- The connection has read `received` of a valid stream. -/
structure Follows (proto : KithProto) (rbMax : UInt32) (ceiling : Nat) (received : List UInt8)
    (s : Link) : Prop where
  valid : s.conn.inbuf.Valid
  live : s.conn.closed = false
  decoder : frameDecoder s.proto = frameDecoder proto
  rbMax : s.conn.cfg.rbMax = rbMax
  ceiling : s.conn.inbuf.maxSize = ceiling
  granted : ∀ site n, s.heap.grant site n = true
  delivered : s.delivered = ((frameDecoder proto).scan received).items
  contents : s.conn.inbuf.contents = ((frameDecoder proto).scan received).rest

variable {rbMax : UInt32} {ceiling : Nat} {received : List UInt8} {s : Link}
  {script : List RecvResult}

section

variable (follows : Follows proto rbMax ceiling received s)
    (encoded : Encoded (frameDecoder proto) ws) (small : ∀ w ∈ ws, w.1.length ≤ rbMax.toNat)
include follows encoded small

theorem Follows.fits (initial : received ++ handed script <+: bytes ws)
    (harmless : ∀ history, CallbackAct.close ∉ onMessage history) (ends : scriptRc script = .ok)
    (fits : ((frameDecoder proto).scan received).rest.length + (handed script).length ≤ ceiling) :
    ∃ s', kithNetConnRead onMessage script s = some (.ok, s') ∧
      Follows proto rbMax ceiling (received ++ handed script) s' := by
  have before : received <+: bytes ws := (prefix_append ..).trans initial
  obtain ⟨_, good⟩ := finishRc_initial encoded small before
  obtain ⟨ok, _⟩ := finishRc_initial encoded small initial
  have room : kithRingbufUsed s.conn.inbuf + (handed script).length ≤ s.conn.inbuf.maxSize := by
    rw [← length_contents, follows.contents, follows.ceiling]
    exact fits
  obtain ⟨s', all⟩ := kithNetConnRead_all onMessage script follows.valid follows.live
    follows.granted harmless ends room
  have whole := scan_append good (handed script)
  rw [follows.decoder, follows.contents] at all
  have code : finishRc s.conn.cfg.rbMax ((frameDecoder proto).scan
      (((frameDecoder proto).scan received).rest ++ handed script)) = .ok := by
    rw [whole] at ok
    rw [follows.rbMax]
    exact ok
  refine ⟨s', by rw [all.read, code], all.valid, all.closed.mpr code, ?_, ?_, ?_, ?_, ?_, ?_⟩
  · exact (frameDecoder_congr all.types all.maxPayload).trans follows.decoder
  · rw [all.cfg, follows.rbMax]
  · rw [all.ceiling, follows.ceiling]
  · intro site n
    rw [all.grant]
    exact follows.granted site n
  · rw [all.delivered, follows.delivered, whole]
  · rw [all.contents, whole]

theorem Follows.overflows (onMessage : Callback) {script : List RecvResult}
    (initial : received ++ handed script <+: bytes ws)
    (excess : ceiling < ((frameDecoder proto).scan received).rest.length + (handed script).length) :
    ∃ s', kithNetConnRead onMessage script s = some (.err .enomem, s') ∧
      s'.conn.closed = true ∧ s'.delivered = s.delivered := by
  have tight : s.conn.inbuf.maxSize < kithRingbufUsed s.conn.inbuf + (handed script).length := by
    rw [← length_contents, follows.contents, follows.ceiling]
    exact excess
  -- What the ring holds when it is full is part of the frames that are still to come.
  have code : ∀ t rc, Received script s t rc → rc = .err .enomem := by
    intro t rc ended
    cases ended with
    | stored _ _ fits => omega
    | exhausted held part code _ =>
      obtain ⟨done, todo, rest, rfl, rfl, scan, _⟩ :=
        scan_initial encoded ((prefix_append ..).trans initial)
      rw [follows.contents, scan] at part
      rw [append_assoc, bytes_append, prefix_append_right_inj] at initial
      have declared := declaredTotal_stream (fun w hw => encoded w (mem_append_right done hw))
        (fun w hw => small w (mem_append_right done hw)) (part.trans initial)
      rw [code, exhaustedRc, follows.rbMax, if_neg (by omega)]
  obtain ⟨rc, s', read, ending⟩ := kithNetConnRead_spec onMessage script follows.valid follows.live
  cases ending with
  | failed t quiet ended _ closed =>
    subst closed
    exact ⟨_, by rw [read, code t rc ended], close_closed t,
      (close_untouched t).delivered.trans quiet.delivered⟩
  | rejected t _ _ ended | returned t _ _ ended => cases code t .ok ended

end

theorem readCalls_closed (calls : List (List RecvResult)) (shut : s.conn.closed = true) :
    readCalls onMessage calls s = some s := by
  induction calls with
  | nil => rfl
  | cons script calls ih => simp [readCalls, kithNetConnRead_closed shut, ih]

theorem Follows.calls (follows : Follows proto rbMax ceiling received s)
    (encoded : Encoded (frameDecoder proto) ws) (small : ∀ w ∈ ws, w.1.length ≤ rbMax.toNat)
    (harmless : ∀ history, CallbackAct.close ∉ onMessage history)
    {calls : List (List RecvResult)} (ends : ∀ script ∈ calls, scriptRc script = .ok)
    (initial : received ++ handedCalls calls <+: bytes ws) :
    ∃ s', readCalls onMessage calls s = some s' ∧
      (s'.conn.closed = false ↔ CallsFit proto ceiling received calls) ∧
      (s'.conn.closed = false →
        Follows proto rbMax ceiling (received ++ handedCalls calls) s') := by
  induction calls generalizing received s with
  | nil =>
    refine ⟨s, rfl, by simp [CallsFit, follows.live], fun _ => ?_⟩
    simpa [handedCalls] using follows
  | cons script calls ih =>
    have all : handedCalls (script :: calls) = handed script ++ handedCalls calls := by
      simp [handedCalls]
    rw [all, ← append_assoc] at initial ⊢
    rw [CallsFit]
    by_cases fits : ((frameDecoder proto).scan received).rest.length + (handed script).length ≤
        ceiling
    · obtain ⟨t, read, next⟩ := follows.fits encoded small
        ((prefix_append ..).trans initial) harmless (ends script mem_cons_self) fits
      obtain ⟨s', rest, closed, reached⟩ :=
        ih next (fun c hc => ends c (mem_cons_of_mem script hc)) initial
      refine ⟨s', by simp [readCalls, read, rest], ?_, reached⟩
      rw [closed]
      exact (and_iff_right fits).symm
    · obtain ⟨t, read, shut, _⟩ := follows.overflows encoded small onMessage
        ((prefix_append ..).trans initial) (by omega)
      refine ⟨t, by simp [readCalls, read, readCalls_closed calls shut], ?_, fun h => ?_⟩
      · simp [shut, fits]
      · rw [shut] at h
        cases h

theorem Follows.start {cfg : ConnCfg} {fd : Int} {heap heap' : Heap NetSite}
    (created : kithConnCreate cfg fd heap = some (some conn, heap')) (proto : KithProto)
    (granted : ∀ site n, heap'.grant site n = true) :
    Follows proto cfg.rbMax conn.inbuf.maxSize [] (.start conn proto heap') := by
  obtain ⟨valid, empty, config, live, _⟩ := kithConnCreate_spec created
  have nothing : (frameDecoder proto).scan [] = ⟨[], [], false⟩ :=
    scan_more (frameDecoder proto).next_nil
  exact {
    valid := valid
    live := live
    decoder := rfl
    rbMax := congrArg ConnCfg.rbMax config
    ceiling := rfl
    granted := granted
    delivered := by rw [nothing]; rfl
    contents := by rw [nothing]; exact empty }

end Runs

/-- The stream of `ws` on a fresh connection with every allocation granted: every
frame is delivered in order before the connection closes, which it does on a call
that finds the end of the stream, exactly when every call fits. -/
theorem valid_stream_delivered_iff {cfg : ConnCfg} {fd : Int}
    {heap heap' : Heap NetSite} {conn : NetConn} {proto : KithProto} {onMessage : Callback}
    {ws : List (List UInt8 × ProtoFrame)} {calls : List (List RecvResult)}
    (created : kithConnCreate cfg fd heap = some (some conn, heap'))
    (granted : ∀ site n, heap'.grant site n = true)
    (harmless : ∀ history, CallbackAct.close ∉ onMessage history)
    (encoded : Encoded (frameDecoder proto) ws) (small : ∀ w ∈ ws, w.1.length ≤ cfg.rbMax.toNat)
    (stream : handedCalls calls = bytes ws) (ends : ∀ script ∈ calls, scriptRc script = .ok) :
    (∃ s', readCalls onMessage calls (.start conn proto heap') = some s' ∧
      s'.conn.closed = false ∧ s'.delivered = ws.map Prod.snd ∧
      ∃ s'', kithNetConnRead onMessage [.data ⟨[], Nat.zero_le _⟩] s' =
        some (.err .econnreset, s'') ∧ s''.delivered = ws.map Prod.snd) ↔
    CallsFit proto conn.inbuf.maxSize [] calls := by
  obtain ⟨s', returned, fits, reached⟩ := (Follows.start created proto granted).calls encoded small
    harmless ends (by rw [stream]; exact List.prefix_refl _)
  constructor
  · rintro ⟨t, again, still, _⟩
    rw [returned] at again
    cases again
    exact fits.mp still
  · intro fit
    have still := fits.mpr fit
    have all : s'.delivered = ws.map Prod.snd := by
      rw [(reached still).delivered, List.nil_append, stream, scan_bytes encoded]
    refine ⟨s', returned, still, all, s'.close, ?_, (close_untouched s').delivered.trans all⟩
    simp [kithNetConnRead, still, recvIntoRingbuf]

section Instances

def smallRingParams : NetParams := ⟨112, 1, 4096, 8192, 0, 0, 0, 0, 0⟩

def pings (n : Nat) : List (List UInt8 × ProtoFrame) := List.replicate n (pingBytes, pingFrame)

theorem pings_encoded (n : Nat) : Encoded (frameDecoder pingProto) (pings n) := by
  intro w member
  obtain rfl := eq_of_mem_replicate member
  decide

theorem pings_small (n : Nat) :
    ∀ w ∈ pings n, w.1.length ≤ (buildConnCfg (some smallRingParams)).rbMax.toNat := by
  intro w member
  obtain rfl := eq_of_mem_replicate member
  decide

theorem length_bytes_pings (n : Nat) : (bytes (pings n)).length = 10 * n := by
  simp [bytes, pings, pingBytes, Nat.mul_comm]

theorem smallRing_created : ∃ conn heap,
    kithConnCreate (buildConnCfg (some smallRingParams)) 3 ⟨fun _ _ => true, 0⟩ =
      some (some conn, heap) ∧
    (∀ site n, heap.grant site n = true) ∧ conn.inbuf.maxSize = 8192 := by
  obtain ⟨conn, heap, created, granted⟩ := kithConnCreate_granted
    (by decide : (buildConnCfg (some smallRingParams)).rbInitial.toNat ≠ 0) (by decide) 3
  obtain ⟨_, _, _, _, _, _, rounded, _⟩ := kithConnCreate_spec created
  have size : nextPow2 (buildConnCfg (some smallRingParams)).rbMax.toNat = some 8192 := by decide
  rw [size, Option.some.injEq] at rounded
  exact ⟨conn, heap, created, granted, rounded.symm⟩

/-- Two frames over two calls, cut inside the second frame. -/
theorem two_pings_delivered : ∃ conn heap s',
    kithConnCreate (buildConnCfg (some smallRingParams)) 3 ⟨fun _ _ => true, 0⟩ =
      some (some conn, heap) ∧
    readCalls (fun _ => [])
      [[.data ⟨(bytes (pings 2)).take 13, by decide⟩, .wouldBlock],
        [.intr, .data ⟨(bytes (pings 2)).drop 13, by decide⟩]] (.start conn pingProto heap) =
      some s' ∧ s'.delivered = [pingFrame, pingFrame] := by
  obtain ⟨conn, heap, created, granted, size⟩ := smallRing_created
  have fit : CallsFit pingProto conn.inbuf.maxSize []
      [[.data ⟨(bytes (pings 2)).take 13, by decide⟩, .wouldBlock],
        [.intr, .data ⟨(bytes (pings 2)).drop 13, by decide⟩]] := by
    rw [size]
    exact ⟨by decide, by decide, trivial⟩
  obtain ⟨s', returned, _, delivered, _⟩ := (@valid_stream_delivered_iff _ 3 _ heap conn
    pingProto (fun _ => []) (pings 2) _ created granted (by simp) (pings_encoded 2) (by decide)
    (by decide) (by decide)).mpr fit
  exact ⟨conn, heap, s', created, returned, delivered⟩

/-- A thousand ten-byte frames waiting on the socket of a fresh connection with a
ring of 8192 bytes. -/
theorem burst_exhausts {heap : Heap NetSite}
    (created : kithConnCreate (buildConnCfg (some smallRingParams)) 3 ⟨fun _ _ => true, 0⟩ =
      some (some conn, heap))
    (granted : ∀ site n, heap.grant site n = true) (size : conn.inbuf.maxSize = 8192) :
    ∃ first second : Chunk, ∃ s', first.1 ++ second.1 = bytes (pings 1000) ∧
      kithNetConnRead (fun _ => []) [.data first, .data second] (.start conn pingProto heap) =
        some (.err .enomem, s') ∧ s'.conn.closed = true ∧ s'.delivered = [] := by
  have long : (bytes (pings 1000)).length = 10000 := length_bytes_pings 1000
  generalize stream : bytes (pings 1000) = l at long
  have tail : (l.drop 8192).length ≤ 8192 := by
    rw [length_drop, long]
    decide
  have whole : handed [.data ⟨l.take 8192, length_take_le ..⟩, .data ⟨l.drop 8192, tail⟩] = l := by
    have head_ne : l.take 8192 ≠ [] := ne_nil_of_length_pos (by rw [length_take]; omega)
    have tail_ne : l.drop 8192 ≠ [] := ne_nil_of_length_pos (by rw [length_drop]; omega)
    simp only [handed, if_neg head_ne, if_neg tail_ne, append_nil, take_append_drop]
  obtain ⟨s', read, shut, delivered⟩ :=
    (Follows.start created pingProto granted).overflows (pings_encoded 1000) (pings_small 1000)
      (fun _ => []) (by rw [nil_append, whole, stream]) (by rw [whole, size, long]; decide)
  exact ⟨⟨l.take 8192, length_take_le ..⟩, ⟨l.drop 8192, tail⟩, s', take_append_drop .., read,
    shut, delivered⟩

/-- The first call closes it and delivers none of them. -/
theorem burst_of_pings_closes : ∃ conn heap s', ∃ first second : Chunk,
    kithNetCreate (some smallRingParams) = .ok (buildConnCfg (some smallRingParams)) ∧
    kithConnCreate (buildConnCfg (some smallRingParams)) 3 ⟨fun _ _ => true, 0⟩ =
      some (some conn, heap) ∧
    Encoded (frameDecoder pingProto) (pings 1000) ∧
    (∀ w ∈ pings 1000, w.1.length ≤ (buildConnCfg (some smallRingParams)).rbMax.toNat) ∧
    first.1 ++ second.1 = bytes (pings 1000) ∧
    kithNetConnRead (fun _ => []) [.data first, .data second] (.start conn pingProto heap) =
      some (.err .enomem, s') ∧ s'.conn.closed = true ∧ s'.delivered = [] := by
  obtain ⟨conn, heap, created, granted, size⟩ := smallRing_created
  obtain ⟨first, second, s', all, read, shut, delivered⟩ := burst_exhausts created granted size
  exact ⟨conn, heap, s', first, second, rfl, created, pings_encoded 1000, pings_small 1000, all,
    read, shut, delivered⟩

end Instances

end Kith.Net
