import Kith.Net.Backpressure

/-!
# Counting malformed input

The decoder and the transport each count what they reject. A call adds one to
the two together when it is a read that ends with a protocol error, and nothing
otherwise: each way to that error passes one of the two counters.
-/

namespace Kith.Net

open Kith.Proto StreamDecoder

/-- What the decoder and the transport have rejected together. -/
def Link.rejected (s : Link) : UInt64 := s.proto.rejections + s.rejections

/-- A protocol error is counted once, any other result not at all. -/
def Counts (s s' : Link) (rc : Rc) : Prop :=
  s'.rejected = if rc = .err .eproto then s.rejected + 1 else s.rejected

variable {onMessage : Callback} {script : List RecvResult} {s t s' : Link} {rc : Rc}

theorem Untouched.rejected (same : Untouched s s') : s'.rejected = s.rejected := by
  rw [Link.rejected, same.proto, same.rejections, Link.rejected]

theorem Counts.after (counted : Counts t s' rc) (same : t.rejected = s.rejected) :
    Counts s s' rc := by
  rwa [Counts, same] at counted

theorem recvIntoRingbuf_counts (returned : recvIntoRingbuf script s = some (rc, s')) :
    Counts s s' rc := by
  fun_induction recvIntoRingbuf script s with
  | case3 _ _ ih | case9 _ _ _ _ _ _ _ ih => exact ih returned
  | case6 => cases returned
  | case7 =>
    cases returned
    exact (UInt64.add_assoc ..).symm
  | _ =>
    simp only [Option.some.injEq, Prod.mk.injEq] at returned
    rw [← returned.1, ← returned.2]
    rfl

theorem deliverLoop_counts {fuel : Nat} (returned : deliverLoop onMessage fuel s = some (rc, s')) :
    Counts s s' rc := by
  induction fuel generalizing s with
  | zero => cases returned
  | succ fuel ih =>
    simp only [deliverLoop, kithProtoDecode_eq] at returned
    split at returned
    · cases returned
      rfl
    · split at returned
      · cases returned
        rfl
      · rcases gathered : gatherInput s.conn.inbuf s.heap with ⟨_ | buf, heap⟩
        · rw [gathered] at returned
          cases returned
          rfl
        · simp only [gathered] at returned
          cases found : (frameDecoder s.proto).next buf with
          | more =>
            simp only [found, finishPartialFrame_eq] at returned
            split at returned
            · cases returned
              exact (UInt64.add_assoc ..).symm
            · cases returned
              rfl
          | bad =>
            simp only [found] at returned
            cases returned
            simp only [Counts, Link.rejected, if_true]
            ac_rfl
          | item frame k =>
            simp only [found, Option.bind_eq_some_iff, Link.consume, Option.map_eq_some_iff]
              at returned
            obtain ⟨t, ⟨shrunk, _, consumed⟩, rest⟩ := returned
            have acted := (acts_untouched (onMessage (s.delivered ++ [frame]))
              { s with heap := heap, delivered := s.delivered ++ [frame] }).1.rejected
            exact (ih rest).after (consumed ▸ acted)

theorem kithNetConnRead_counts (read : kithNetConnRead onMessage script s = some (rc, s')) :
    Counts s s' rc ∧ (rc = .err .eproto → s'.conn.closed = true) := by
  rw [kithNetConnRead] at read
  split at read
  · cases read
    exact ⟨rfl, by simp⟩
  · simp only [Option.bind_eq_some_iff] at read
    obtain ⟨⟨rr, t⟩, received, read⟩ := read
    have first := recvIntoRingbuf_counts received
    cases rr with
    | err code =>
      cases read
      exact ⟨(close_untouched t).rejected.trans first, fun _ => close_closed t⟩
    | ok =>
      simp only [Option.map_eq_some_iff] at read
      obtain ⟨⟨dr, u⟩, delivered, read⟩ := read
      have second : Counts s u dr := (deliverLoop_counts delivered).after first
      cases dr with
      | err code =>
        cases read
        exact ⟨(close_untouched u).rejected.trans second, fun _ => close_closed u⟩
      | ok =>
        cases read
        exact ⟨second, by simp⟩

/-- Malformed input is counted once: a read that ends with a protocol error closes
the connection and adds one to the rejections, and no other call changes them. -/
theorem malformed_counted_once {op : ConnOp} (stepped : s.step op = some (rc, s')) :
    (op.Reads ∧ rc = .err .eproto → s'.conn.closed = true ∧ s'.rejected = s.rejected + 1) ∧
      (¬ (op.Reads ∧ rc = .err .eproto) → s'.rejected = s.rejected) := by
  by_cases read : op.Reads
  · obtain ⟨onMessage, script, rfl⟩ := read
    obtain ⟨counted, closed⟩ := kithNetConnRead_counts stepped
    exact ⟨fun ⟨_, code⟩ => ⟨closed code, counted.trans (if_pos code)⟩,
      fun other => counted.trans (if_neg fun code => other ⟨⟨_, _, rfl⟩, code⟩)⟩
  · exact ⟨fun rejecting => absurd rejecting.1 read,
      fun _ => (step_untouched read stepped).rejected⟩

/-- A frame of a type that nobody registered. -/
def unknownLink : Link := { wrappedLink with proto := ⟨[], 1024, 0⟩ }

theorem unknown_type_counted : ∃ s', unknownLink.step (.read (fun _ => []) []) =
    some (.err .eproto, s') ∧ s'.conn.closed = true ∧ s'.rejected = unknownLink.rejected + 1 :=
  ⟨_, rfl, (@malformed_counted_once unknownLink _ _ (.read (fun _ => []) []) rfl).1
    ⟨⟨_, _, rfl⟩, rfl⟩⟩

end Kith.Net
