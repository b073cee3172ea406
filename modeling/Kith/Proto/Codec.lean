import Kith.Base
import Kith.Lib.StreamDecoder

/-!
# The frame decoder

A frame is a ten-byte header (magic, version, flags, big-endian type and length)
and `length` further bytes, of which the last eight are a correlation id when the
flags say so. Buffers are lists of bytes; the registry lock is left out.
-/

namespace Kith.Proto

open StreamDecoder List

structure TypeEntry where
  name : String
  id : UInt16
  deriving DecidableEq

structure KithProto where
  types : List TypeEntry
  maxPayload : UInt32
  rejections : UInt64

/-- `kith_proto_frame_t`; the payload is a view of the decoded buffer. -/
structure ProtoFrame where
  typeId : UInt16
  flags : UInt8
  hasCorrelation : Bool
  correlationId : UInt64
  payloadLen : UInt32
  payload : List UInt8
  deriving DecidableEq

variable (p : List UInt8)

/-- `p[i]`; the decoder reads no byte past its length checks. -/
def byteAt (i : Nat) : UInt8 := p.getD i 0

def readBeU16 (i : Nat) : UInt16 :=
  (byteAt p i).toUInt16 <<< 8 ||| (byteAt p (i + 1)).toUInt16

def readBeU32 (i : Nat) : UInt32 :=
  (byteAt p i).toUInt32 <<< 24 ||| (byteAt p (i + 1)).toUInt32 <<< 16 |||
    (byteAt p (i + 2)).toUInt32 <<< 8 ||| (byteAt p (i + 3)).toUInt32

def readBeU64 (i : Nat) : UInt64 :=
  (List.range 8).foldl (fun v j => v <<< 8 ||| (byteAt p (i + j)).toUInt64) 0

variable (proto : KithProto)

def findById (id : UInt16) : Option TypeEntry :=
  proto.types.find? fun e => e.id = id

structure Header where
  typeId : UInt16
  flags : UInt8
  wireLen : UInt32
  deriving DecidableEq

variable (buf : List UInt8)

def parseHeader : Except KithError Header :=
  if buf.length < 10 then .error .eagain
  else if byteAt buf 0 ≠ 0x4B ∨ byteAt buf 1 ≠ 0x54 then .error .eproto
  else if byteAt buf 2 ≠ 1 then .error .eproto
  else .ok ⟨readBeU16 buf 4, byteAt buf 3, readBeU32 buf 6⟩

/-- The header and the bytes it announces; the sum fits a `size_t`. -/
def Header.total (h : Header) : Nat := 10 + h.wireLen.toNat

/-- The part of the decode that runs once the whole frame is there. -/
def decodeBody (h : Header) (buf : List UInt8) : Except KithError (ProtoFrame × Nat) :=
  if (findById proto h.typeId).isNone then .error .eproto
  else if h.flags &&& 0x02 ≠ 0 then
    if h.wireLen < 8 then .error .eproto
    else
      let payloadLen := h.wireLen - 8
      .ok (⟨h.typeId, h.flags, true, readBeU64 buf (10 + h.wireLen.toNat - 8), payloadLen,
        (buf.drop 10).take payloadLen.toNat⟩, h.total)
  else
    .ok (⟨h.typeId, h.flags, false, 0, h.wireLen, (buf.drop 10).take h.wireLen.toNat⟩, h.total)

/-- The result of a decode: the frame and the bytes it takes, or a code. -/
def decodeFrame : Except KithError (ProtoFrame × Nat) :=
  match parseHeader buf with
  | .error code => .error code
  | .ok h =>
    if proto.maxPayload < h.wireLen then .error .eproto
    else if buf.length < h.total then .error .eagain
    else decodeBody proto h buf

/-- `proto_reject` counts at every site that returns `-KITH_EPROTO`. -/
def kithProtoDecode : Except KithError (ProtoFrame × Nat) × KithProto :=
  match decodeFrame proto buf with
  | .error .eproto => (.error .eproto, { proto with rejections := proto.rejections + 1 })
  | r => (r, proto)

def kithProtoDeclaredTotal : Except KithError Nat :=
  (parseHeader buf).map Header.total

section Stability

variable {proto : KithProto} {buf : List UInt8} {code : KithError} {h : Header}

theorem byteAt_append {i : Nat} (hi : i < buf.length) (m : List UInt8) :
    byteAt (buf ++ m) i = byteAt buf i := by
  simp [byteAt, getElem?_append_left hi]

theorem parseHeader_append (full : 10 ≤ buf.length) (m : List UInt8) :
    parseHeader (buf ++ m) = parseHeader buf := by
  have short : ¬ (buf ++ m).length < 10 := by simp; omega
  have short' : ¬ buf.length < 10 := by omega
  simp only [parseHeader, short, short', if_false, readBeU16, readBeU32]
  rw [byteAt_append (by omega), byteAt_append (by omega), byteAt_append (by omega),
    byteAt_append (by omega), byteAt_append (by omega), byteAt_append (by omega),
    byteAt_append (by omega), byteAt_append (by omega), byteAt_append (by omega),
    byteAt_append (by omega)]

theorem parseHeader_short (short : buf.length < 10) : parseHeader buf = .error .eagain :=
  if_pos short

theorem parseHeader_error (failed : parseHeader buf = .error code) :
    buf.length < 10 ∧ code = .eagain ∨ 10 ≤ buf.length ∧ code = .eproto := by
  rw [parseHeader] at failed
  split at failed
  · rename_i short
    cases failed
    exact .inl ⟨short, rfl⟩
  · refine .inr ⟨by omega, ?_⟩
    split at failed
    · cases failed; rfl
    · split at failed
      · cases failed; rfl
      · cases failed

theorem parseHeader_ok (found : parseHeader buf = .ok h) : 10 ≤ buf.length := by
  by_contra short
  rw [parseHeader_short (by omega)] at found
  cases found

theorem decodeBody_append (full : h.total ≤ buf.length) (m : List UInt8) :
    decodeBody proto h (buf ++ m) = decodeBody proto h buf := by
  rw [Header.total] at full
  have payload : ∀ k ≤ h.wireLen.toNat, ((buf ++ m).drop 10).take k = (buf.drop 10).take k := by
    intro k hk
    rw [drop_append_of_le_length (by omega), take_append_of_le_length]
    rw [length_drop]
    omega
  have trailer : 8 ≤ h.wireLen.toNat → readBeU64 (buf ++ m) (10 + h.wireLen.toNat - 8) =
      readBeU64 buf (10 + h.wireLen.toNat - 8) := by
    intro long
    rw [readBeU64, readBeU64]
    apply foldl_ext
    intro v j hj
    rw [mem_range] at hj
    rw [byteAt_append (by omega)]
  simp only [decodeBody, payload _ (le_refl _)]
  split
  · rfl
  · split
    · split
      · rfl
      · rename_i long
        have long : 8 ≤ h.wireLen.toNat := by simpa [UInt32.lt_iff_toNat_lt] using long
        have shorter : (h.wireLen - 8).toNat ≤ h.wireLen.toNat := by
          rw [UInt32.toNat_sub_of_le]
          · omega
          · simpa [UInt32.le_iff_toNat_le] using long
        rw [payload _ shorter, trailer long]
    · rfl

theorem decodeBody_size {f : ProtoFrame} {k : Nat} (decoded : decodeBody proto h buf = .ok (f, k)) :
    k = h.total := by
  rw [decodeBody] at decoded
  split at decoded
  · cases decoded
  · split at decoded
    · split at decoded
      · cases decoded
      · cases decoded; rfl
    · cases decoded; rfl

theorem decodeBody_error (failed : decodeBody proto h buf = .error code) : code = .eproto := by
  rw [decodeBody] at failed
  split at failed
  · cases failed; rfl
  · split at failed
    · split at failed
      · cases failed; rfl
      · cases failed
    · cases failed

/-- What a decode can come to: more bytes, a bad header, or a verdict on the
complete frame of its header. -/
theorem decodeFrame_cases (proto : KithProto) (buf : List UInt8) :
    decodeFrame proto buf = .error .eagain ∨
    (decodeFrame proto buf = .error .eproto ∧
      ∀ m, decodeFrame proto (buf ++ m) = .error .eproto) ∨
    ∃ h f, parseHeader buf = .ok h ∧ h.total ≤ buf.length ∧
      decodeFrame proto buf = .ok (f, h.total) ∧
      ∀ m, decodeFrame proto (buf ++ m) = .ok (f, h.total) := by
  cases parsed : parseHeader buf with
  | error code =>
    rcases parseHeader_error parsed with ⟨_, rfl⟩ | ⟨full, rfl⟩
    · exact .inl (by simp [decodeFrame, parsed])
    · refine .inr (.inl ⟨by simp [decodeFrame, parsed], fun m => ?_⟩)
      simp [decodeFrame, parseHeader_append full, parsed]
  | ok h =>
    have full := parseHeader_ok parsed
    have longer : ∀ m, decodeFrame proto (buf ++ m) =
        if proto.maxPayload < h.wireLen then .error .eproto
        else if (buf ++ m).length < h.total then .error .eagain
        else decodeBody proto h (buf ++ m) := by
      intro m
      simp only [decodeFrame, parseHeader_append full, parsed]
    by_cases excess : proto.maxPayload < h.wireLen
    · exact .inr
        (.inl ⟨by simp [decodeFrame, parsed, excess], fun m => by rw [longer, if_pos excess]⟩)
    · by_cases short : buf.length < h.total
      · exact .inl (by simp [decodeFrame, parsed, excess, short])
      · have here : decodeFrame proto buf = decodeBody proto h buf := by
          simp [decodeFrame, parsed, excess, short]
        have later : ∀ m, decodeFrame proto (buf ++ m) = decodeBody proto h buf := by
          intro m
          have enough : ¬ (buf ++ m).length < h.total := by rw [length_append]; omega
          rw [longer, if_neg excess, if_neg enough, decodeBody_append (by omega)]
        cases body : decodeBody proto h buf with
        | error code =>
          obtain rfl := decodeBody_error body
          exact .inr (.inl ⟨by rw [here, body], fun m => by rw [later, body]⟩)
        | ok r =>
          obtain ⟨f, k⟩ := r
          obtain rfl := decodeBody_size body
          exact .inr (.inr ⟨h, f, rfl, by omega, by rw [here, body], fun m => by rw [later, body]⟩)

end Stability

/-- A decode as a verdict on a stream. -/
def frameVerdict : Verdict ProtoFrame :=
  match decodeFrame proto buf with
  | .error .eagain => .more
  | .error _ => .bad
  | .ok (f, k) => .item f k

/-- Repeated `kith_proto_decode` on a contiguous buffer. -/
def frameDecoder : Decoder UInt8 ProtoFrame where
  next := frameVerdict proto
  next_nil := rfl
  size_pos := by
    intro l f k found
    rcases decodeFrame_cases proto l with again | ⟨bad, _⟩ | ⟨h, g, _, _, decoded, _⟩
    · simp [frameVerdict, again] at found
    · simp [frameVerdict, bad] at found
    · simp only [frameVerdict, decoded, Verdict.item.injEq, Header.total] at found
      omega
  size_le := by
    intro l f k found
    rcases decodeFrame_cases proto l with again | ⟨bad, _⟩ | ⟨h, g, _, le, decoded, _⟩
    · simp [frameVerdict, again] at found
    · simp [frameVerdict, bad] at found
    · simp only [frameVerdict, decoded, Verdict.item.injEq] at found
      omega
  item_stable := by
    intro l f k m found
    rcases decodeFrame_cases proto l with again | ⟨bad, _⟩ | ⟨h, g, _, _, decoded, later⟩
    · simp [frameVerdict, again] at found
    · simp [frameVerdict, bad] at found
    · simpa only [frameVerdict, decoded, later m] using found
  bad_stable := by
    intro l m found
    rcases decodeFrame_cases proto l with again | ⟨_, later⟩ | ⟨h, g, _, _, decoded, _⟩
    · simp [frameVerdict, again] at found
    · simp only [frameVerdict, later m]
    · simp [frameVerdict, decoded] at found

theorem frameDecoder_congr {proto proto' : KithProto} (types : proto'.types = proto.types)
    (maxPayload : proto'.maxPayload = proto.maxPayload) :
    frameDecoder proto' = frameDecoder proto := by
  cases proto
  cases proto'
  subst types maxPayload
  rfl

theorem kithProtoDecode_eq : kithProtoDecode proto buf = match (frameDecoder proto).next buf with
      | .more => (.error .eagain, proto)
      | .bad => (.error .eproto, { proto with rejections := proto.rejections + 1 })
      | .item f k => (.ok (f, k), proto) := by
  rcases decodeFrame_cases proto buf with again | ⟨bad, _⟩ | ⟨h, f, _, _, decoded, _⟩
  · simp [kithProtoDecode, frameDecoder, frameVerdict, again]
  · simp [kithProtoDecode, frameDecoder, frameVerdict, bad]
  · simp [kithProtoDecode, frameDecoder, frameVerdict, decoded]

end Kith.Proto
