import Kith.Net.Deliver

/-!
# One read call

What a read call does to a connection, from the script of its `recv` calls: the
bytes handed over before the loop ends, whether the ring takes them, and how the
delivery ends. A connection that a read leaves open with result 0 holds less
than one frame, and whether its reads are then paused depends on the high
watermark only when less than a header is held.
-/

namespace Kith.Net

open Kith.Proto StreamDecoder List

section Receive

/-- The bytes a receive loop is handed before its script ends it. -/
def handed : List RecvResult → List UInt8
  | .data chunk :: script => if chunk.1 = [] then [] else chunk.1 ++ handed script
  | .intr :: script => handed script
  | _ => []

/-- How the script ends a loop that could store everything. -/
def scriptRc : List RecvResult → Rc
  | .data chunk :: script => if chunk.1 = [] then .err .econnreset else scriptRc script
  | .intr :: script => scriptRc script
  | .error :: _ => .err .eio
  | _ => .ok

/-- The code when a ring that holds `held` cannot take more. -/
def exhaustedRc (rbMax : UInt32) (held : List UInt8) : Rc :=
  if rbMax.toNat < declaredTotal held then .err .eproto else .err .enomem

inductive Received (script : List RecvResult) (s s' : Link) (rc : Rc) : Prop where
  | stored (contents : s'.conn.inbuf.contents = s.conn.inbuf.contents ++ handed script)
      (code : rc = scriptRc script)
      (fits : kithRingbufUsed s.conn.inbuf + (handed script).length ≤ s.conn.inbuf.maxSize)
  | exhausted (held : List UInt8) (part : held <+: s.conn.inbuf.contents ++ handed script)
      (code : rc = exhaustedRc s.conn.cfg.rbMax held)
      (cause : s.conn.inbuf.maxSize < kithRingbufUsed s.conn.inbuf + (handed script).length ∨
        ∃ n, s.heap.grant .ring n = false)

variable {script : List RecvResult} {s : Link} {rc : Rc}

/-- What the receive loop leaves alone, besides what a delivery leaves alone. -/
structure Quiet (s s' : Link) : Prop where
  kept : Kept s s'
  readBlocked : s'.conn.readBlocked = s.conn.readBlocked
  closed : s'.conn.closed = s.conn.closed
  proto : s'.proto = s.proto
  delivered : s'.delivered = s.delivered

theorem Quiet.refl (valid : s.conn.inbuf.Valid) : Quiet s s :=
  ⟨.refl valid, rfl, rfl, rfl, rfl⟩

theorem Quiet.trans {t u : Link} (first : Quiet s t) (second : Quiet t u) : Quiet s u where
  kept := first.kept.trans second.kept
  readBlocked := second.readBlocked.trans first.readBlocked
  closed := second.closed.trans first.closed
  proto := second.proto.trans first.proto
  delivered := second.delivered.trans first.delivered

theorem Received.cons {chunk : Chunk} {t s' : Link} (some_bytes : chunk.1 ≠ [])
    (contents : t.conn.inbuf.contents = s.conn.inbuf.contents ++ chunk.1) (kept : Kept s t)
    (received : Received script t s' rc) : Received (.data chunk :: script) s s' rc := by
  have all : handed (.data chunk :: script) = chunk.1 ++ handed script := if_neg some_bytes
  have used : kithRingbufUsed t.conn.inbuf = kithRingbufUsed s.conn.inbuf + chunk.1.length := by
    rw [← length_contents, contents, length_append, length_contents]
  cases received with
  | stored contents' code fits =>
    refine .stored ?_ (code.trans (if_neg some_bytes).symm) ?_
    · rw [contents', contents, all, append_assoc]
    · rw [all, length_append, ← kept.ceiling]
      omega
  | exhausted held part code cause =>
    rw [contents, append_assoc, ← all] at part
    rw [kept.cfg] at code
    refine .exhausted held part code ?_
    rw [all, length_append, ← kept.ceiling, ← kept.grant]
    exact cause.imp_left fun h => by omega

theorem Received.empty (valid : s.conn.inbuf.Valid) (none_handed : handed script = [])
    (code : rc = scriptRc script) : Received script s s rc := by
  refine .stored (by simp [none_handed]) code ?_
  rw [none_handed]
  exact le_trans valid.fits valid.below

theorem recvIntoRingbuf_spec (script : List RecvResult) (valid : s.conn.inbuf.Valid) :
    ∃ rc s', recvIntoRingbuf script s = some (rc, s') ∧ Quiet s s' ∧ Received script s s' rc := by
  induction script generalizing s with
  | nil => exact ⟨_, s, rfl, .refl valid, .empty valid rfl rfl⟩
  | cons result script ih =>
    cases result with
    | wouldBlock | error => exact ⟨_, s, rfl, .refl valid, .empty valid rfl rfl⟩
    | intr =>
      obtain ⟨rc, s', returned, quiet, received⟩ := ih valid
      refine ⟨rc, s', returned, quiet, ?_⟩
      cases received with
      | stored contents code fits => exact .stored contents code fits
      | exhausted held part code cause => exact .exhausted held part code cause
    | data chunk =>
      by_cases ended : chunk.1 = []
      · exact ⟨_, s, if_pos ended, .refl valid, .empty valid (if_pos ended) (if_pos ended).symm⟩
      · have small : kithRingbufUsed s.conn.inbuf + chunk.1.length ≤ 2 ^ 63 := by
          have held := le_trans (le_trans valid.fits valid.below) valid.ceiling
          omega
        obtain ⟨⟨done, rb, heap⟩, wrote, spec⟩ :=
          kithRingbufWrite_spec valid.toWf s.heap chunk.1 small
        have after : rb.Valid := valid.keep spec.wf spec.maxSize
        have quiet : Quiet s { s with conn := { s.conn with inbuf := rb }, heap := heap } :=
          ⟨⟨after, spec.maxSize, rfl, spec.grant, rfl, rfl, .inl rfl⟩,
            rfl, rfl, rfl, rfl⟩
        simp only [recvIntoRingbuf, ended, if_false, wrote]
        cases done with
        | true =>
          obtain ⟨rc, s', returned, quiet', received⟩ := ih quiet.kept.valid
          exact ⟨rc, s', returned, quiet.trans quiet', received.cons ended spec.contents quiet.kept⟩
        | false =>
          have cause : s.conn.inbuf.maxSize < kithRingbufUsed s.conn.inbuf +
              (handed (.data chunk :: script)).length ∨ ∃ n, s.heap.grant .ring n = false := by
            have failed := spec.ok
            simp only [Bool.false_eq_true, false_iff, not_and_or, not_or,
              Bool.not_eq_true] at failed
            rcases failed with excess | ⟨_, refused⟩
            · have all : handed (.data chunk :: script) = chunk.1 ++ handed script := if_neg ended
              rw [all, length_append]
              exact .inl (by omega)
            · exact .inr ⟨_, refused⟩
          have held : rb.contents = s.conn.inbuf.contents := spec.contents
          have part : rb.contents <+: s.conn.inbuf.contents ++ handed (.data chunk :: script) := by
            rw [held]
            exact prefix_append ..
          have leading : leadingFrameTotal rb = declaredTotal rb.contents :=
            leadingFrameTotal_eq after
          by_cases oversized : s.conn.cfg.rbMax.toNat < leadingFrameTotal rb
          · exact ⟨_, _, if_pos oversized, ⟨⟨after, spec.maxSize, rfl, spec.grant, rfl, rfl,
              .inl rfl⟩, rfl, rfl, rfl, rfl⟩,
              .exhausted _ part (if_pos (leading ▸ oversized)).symm cause⟩
          · exact ⟨_, _, if_neg oversized, quiet,
              .exhausted _ part (if_neg (leading ▸ oversized)).symm cause⟩

end Receive

section Reads

variable {onMessage : Callback} {script : List RecvResult} {s : Link}

inductive ReadEnding (onMessage : Callback) (script : List RecvResult) (s s' : Link) (rc : Rc) :
    Prop where
  /-- The receive loop failed; nothing was delivered. -/
  | failed (t : Link) (quiet : Quiet s t) (received : Received script s t rc) (fatal : rc ≠ .ok)
      (closed : s' = t.close)
  /-- The delivery failed. -/
  | rejected (t u : Link) (quiet : Quiet s t) (received : Received script s t .ok) (kept : Kept t u)
      (ending : Ending onMessage t u rc) (fatal : rc ≠ .ok) (closed : s' = u.close)
  | returned (t u : Link) (quiet : Quiet s t) (received : Received script s t .ok) (kept : Kept t u)
      (ending : Ending onMessage t u .ok) (ok : rc = .ok)
      (paused : s' = { u with conn := { u.conn with
        readBlocked := if inputPauseAt u.conn ≤ kithRingbufUsed u.conn.inbuf then true
          else u.conn.readBlocked } })

theorem kithNetConnRead_spec (onMessage : Callback) (script : List RecvResult)
    (valid : s.conn.inbuf.Valid) (live : s.conn.closed = false) :
    ∃ rc s', kithNetConnRead onMessage script s = some (rc, s') ∧
      ReadEnding onMessage script s s' rc := by
  obtain ⟨rr, t, received, quiet, how⟩ := recvIntoRingbuf_spec script valid
  simp only [kithNetConnRead, live, received, Option.bind_some, Bool.false_eq_true, if_false]
  cases rr with
  | err code => exact ⟨_, _, rfl, .failed t quiet how (by simp) rfl⟩
  | ok =>
    obtain ⟨dr, u, delivered, kept, ending⟩ :=
      deliverFrames_spec onMessage quiet.kept.valid
    simp only [delivered, Option.map_some]
    cases dr with
    | err code => exact ⟨_, _, rfl, .rejected t u quiet how kept ending (by simp) rfl⟩
    | ok => exact ⟨_, _, rfl, .returned t u quiet how kept ending rfl rfl⟩

theorem kithNetConnRead_closed (shut : s.conn.closed = true) :
    kithNetConnRead onMessage script s = some (.err .estate, s) := by
  simp [kithNetConnRead, shut]

theorem close_closed (s : Link) : s.close.conn.closed = true := by
  rw [Link.close, kithNetConnClose]
  split
  · assumption
  · rfl

theorem close_inbuf (s : Link) : s.close.conn.inbuf = s.conn.inbuf := (close_untouched s).inbuf

/-- The ring has room for what the socket hands over, no growth of it and no buffer for
a wrapped frame is refused, and no message callback closes the connection. -/
structure Spared (onMessage : Callback) (script : List RecvResult) (s : Link) : Prop where
  room : kithRingbufUsed s.conn.inbuf + (handed script).length ≤ s.conn.inbuf.maxSize
  ring : ∀ n, s.heap.grant .ring n = true
  gather : ∀ n, s.heap.grant .gather n = true
  callback : ∀ history, CallbackAct.close ∉ onMessage history

theorem Spared.stored {t : Link} {rc : Rc} (spared : Spared onMessage script s)
    (received : Received script s t rc) : rc = scriptRc script ∧
      t.conn.inbuf.contents = s.conn.inbuf.contents ++ handed script := by
  cases received with
  | stored contents code _ => exact ⟨code, contents⟩
  | exhausted _ _ _ cause =>
    rcases cause with excess | ⟨n, refused⟩
    · exact absurd spared.room (by omega)
    · rw [spared.ring] at refused
      cases refused

theorem Spared.finished {t u : Link} {rc : Rc} (spared : Spared onMessage script s)
    (live : s.conn.closed = false) (quiet : Quiet s t) (ending : Ending onMessage t u rc) :
    let scanned := (frameDecoder s.proto).scan t.conn.inbuf.contents
    rc = finishRc s.conn.cfg.rbMax scanned ∧ u.delivered = s.delivered ++ scanned.items ∧
      u.conn.inbuf.contents = scanned.rest ∧ u.conn.closed = false := by
  cases ending with
  | closed _ _ cause =>
    rcases cause with shut | ⟨history, closing⟩
    · rw [quiet.closed, live] at shut
      cases shut
    · exact absurd closing (spared.callback history)
  | refused _ cause =>
    obtain ⟨n, refused⟩ := cause
    rw [quiet.kept.grant, spared.gather] at refused
    cases refused
  | finished scanned scan delivered rest still code =>
    rw [quiet.proto] at scan
    subst scan
    exact ⟨by rw [code, quiet.kept.cfg], by rw [delivered, quiet.delivered], rest, still⟩

/-- A read whose bytes fit, with allocations granted and a callback that does not
close: it scans what was held and what was handed over. -/
structure ReadAll (onMessage : Callback) (script : List RecvResult) (s : Link)
    (scanned : Scanned UInt8 ProtoFrame) (s' : Link) : Prop where
  read : kithNetConnRead onMessage script s = some (finishRc s.conn.cfg.rbMax scanned, s')
  valid : s'.conn.inbuf.Valid
  delivered : s'.delivered = s.delivered ++ scanned.items
  contents : s'.conn.inbuf.contents = scanned.rest
  ceiling : s'.conn.inbuf.maxSize = s.conn.inbuf.maxSize
  cfg : s'.conn.cfg = s.conn.cfg
  grant : s'.heap.grant = s.heap.grant
  types : s'.proto.types = s.proto.types
  maxPayload : s'.proto.maxPayload = s.proto.maxPayload
  closed : s'.conn.closed = false ↔ finishRc s.conn.cfg.rbMax scanned = .ok
  paused : finishRc s.conn.cfg.rbMax scanned = .ok →
    inputPauseAt s'.conn ≤ kithRingbufUsed s'.conn.inbuf → s'.conn.readBlocked = true

theorem kithNetConnRead_all (onMessage : Callback) (script : List RecvResult)
    (valid : s.conn.inbuf.Valid) (live : s.conn.closed = false)
    (granted : ∀ site n, s.heap.grant site n = true)
    (harmless : ∀ history, CallbackAct.close ∉ onMessage history) (ends : scriptRc script = .ok)
    (fits : kithRingbufUsed s.conn.inbuf + (handed script).length ≤ s.conn.inbuf.maxSize) :
    ∃ s', ReadAll onMessage script s
      ((frameDecoder s.proto).scan (s.conn.inbuf.contents ++ handed script)) s' := by
  generalize whole : (frameDecoder s.proto).scan (s.conn.inbuf.contents ++ handed script) = all
  have spared : Spared onMessage script s := ⟨fits, granted .ring, granted .gather, harmless⟩
  have finished : ∀ t u rc, Quiet s t → Received script s t .ok → Ending onMessage t u rc →
      rc = finishRc s.conn.cfg.rbMax all ∧ u.delivered = s.delivered ++ all.items ∧
      u.conn.inbuf.contents = all.rest ∧ u.conn.closed = false := by
    intro t u rc quiet received ending
    have done := spared.finished live quiet ending
    rwa [(spared.stored received).2, whole] at done
  obtain ⟨rc, s', read, ending⟩ := kithNetConnRead_spec onMessage script valid live
  refine ⟨s', ?_⟩
  cases ending with
  | failed t _ received fatal _ => exact absurd ((spared.stored received).1.trans ends) fatal
  | rejected t u quiet received kept ending fatal closed =>
    obtain ⟨code, delivered, rest, _⟩ := finished t u rc quiet received ending
    have same := close_untouched u
    have all := quiet.kept.trans kept
    subst closed
    exact ⟨by rw [← code, read], by rw [same.inbuf]; exact kept.valid,
      same.delivered.trans delivered, by rw [same.inbuf]; exact rest,
      by rw [same.inbuf]; exact all.ceiling, same.cfg.trans all.cfg, same.grant.trans all.grant,
      by rw [same.proto]; exact all.types, by rw [same.proto]; exact all.maxPayload,
      by simp [close_closed, ← code, fatal], fun ok => absurd (code.trans ok) fatal⟩
  | returned t u quiet received kept ending ok paused =>
    obtain ⟨code, delivered, rest, still⟩ := finished t u .ok quiet received ending
    have all := quiet.kept.trans kept
    subst paused
    exact ⟨by rw [← code, read, ok], kept.valid, delivered, rest, all.ceiling, all.cfg, all.grant,
      all.types, all.maxPayload, by simp [← code, still], fun _ reached => if_pos reached⟩

theorem read_valid (valid : s.conn.inbuf.Valid) {rc : Rc} {s' : Link}
    (read : kithNetConnRead onMessage script s = some (rc, s')) :
    s'.conn.inbuf.Valid ∧ s'.conn.cfg = s.conn.cfg := by
  cases shut : s.conn.closed with
  | true =>
    rw [kithNetConnRead_closed shut] at read
    cases read
    exact ⟨valid, rfl⟩
  | false =>
    obtain ⟨rc', t', returned, ending⟩ := kithNetConnRead_spec onMessage script valid shut
    rw [read] at returned
    cases returned
    cases ending with
    | failed t quiet _ _ closed =>
      rw [closed]
      exact ⟨by rw [close_inbuf]; exact quiet.kept.valid,
        (close_untouched t).cfg.trans quiet.kept.cfg⟩
    | rejected t u quiet _ kept _ _ closed =>
      rw [closed]
      exact ⟨by rw [close_inbuf]; exact kept.valid,
        ((close_untouched u).cfg.trans kept.cfg).trans quiet.kept.cfg⟩
    | returned t u quiet _ kept _ _ paused =>
      rw [paused]
      exact ⟨kept.valid, kept.cfg.trans quiet.kept.cfg⟩

end Reads

end Kith.Net
