import Kith.Lib.Bytes
import Kith.Proto.Codec

/-!
# The frame encoder and the wire round trip

`kith_proto_encode` writes a header, the payload and, when the flags ask for one,
a correlation trailer, cut off at the capacity of the caller's buffer. The bytes
of a frame are described once, by `frameBytes`; the encoder writes a prefix of
them and the decoder reads them back.
-/

namespace Kith.Proto

open Bytes List

/-- `write_be_u64`: byte `7 - i` is the value shifted right by `8 * i`. -/
def writeBeU64 (v : UInt64) : List UInt8 :=
  (List.range 8).foldl (fun p i => p.set (7 - i) (v >>> UInt64.ofNat (8 * i)).toUInt8)
    (List.replicate 8 0)

/-- `trailer_len`, `KITH_PROTO_CORR_TRAILER_SIZE` under `KITH_PROTO_FLAG_CORRELATION`. -/
def trailerLen (flags : UInt8) : Nat := if flags &&& 0x02 ≠ 0 then 8 else 0

/-- The array `hdr`. -/
def encodeHeader (typeId : UInt16) (flags : UInt8) (wireLen : UInt32) : List UInt8 :=
  [0x4B, 0x54, 1, flags, (typeId >>> 8).toUInt8, typeId.toUInt8, (wireLen >>> 24).toUInt8,
    (wireLen >>> 16).toUInt8, (wireLen >>> 8).toUInt8, wireLen.toUInt8]

/-- One of the three copies of the encoder: as much of `part` as `n` leaves room for. -/
def copyPart (n : Nat) (out part : List UInt8) : List UInt8 :=
  if part.length ≠ 0 ∧ out.length < n then
    out ++ part.take (if out.length + part.length ≤ n then part.length else n - out.length)
  else out

/-- The value returned and the bytes stored; a NULL buffer is `cap = 0`. The argument
`payload_len` is the length of the payload. -/
def kithProtoEncode (proto : KithProto) (typeId : UInt16) (flags : UInt8)
    (correlationId : UInt64) (payload : List UInt8) (cap : Nat) : Nat × List UInt8 :=
  if 2 ^ 32 ≤ payload.length + trailerLen flags then (0, [])
  else
    let wireLen := UInt32.ofNat (payload.length + trailerLen flags)
    if proto.maxPayload < wireLen then (0, [])
    else
      let total := 10 + wireLen.toNat
      if cap = 0 then (total, [])
      else
        let n := if cap < total then cap else total
        let out := copyPart n [] (encodeHeader typeId flags wireLen)
        let out := copyPart n out payload
        let out := if trailerLen flags ≠ 0 then copyPart n out (writeBeU64 correlationId) else out
        (total, out)

def frameBytes (typeId : UInt16) (flags : UInt8) (correlationId : UInt64)
    (payload : List UInt8) : List UInt8 :=
  [0x4B, 0x54, 1, flags] ++ beBytes 2 typeId.toNat ++
    beBytes 4 (payload.length + trailerLen flags) ++ payload ++
    beBytes (trailerLen flags) correlationId.toNat

section Words

/-- The `w` bytes at `i`. -/
def word (p : List UInt8) (i w : Nat) : List UInt8 := (List.range w).map fun j => byteAt p (i + j)

@[simp] theorem length_word (p : List UInt8) (i w : Nat) : (word p i w).length = w := by
  simp [word]

variable {p : List UInt8} {i w : Nat}

theorem word_eq_slice (fits : i + w ≤ p.length) : word p i w = (p.drop i).take w := by
  apply ext_getElem
  · simp
    omega
  · intro j hj _
    rw [length_word] at hj
    have inside : i + j < p.length := by omega
    simp [word, byteAt, inside]

theorem word_add (p : List UInt8) (i v w : Nat) :
    word p i (v + w) = word p i v ++ word p (i + v) w := by
  simp [word, range_add, Function.comp_def, Nat.add_assoc]

theorem word_of_split (pre mid suf : List UInt8) (split : p = pre ++ mid ++ suf)
    (before : pre.length = i) (width : mid.length = w) : word p i w = mid := by
  subst split before width
  rw [word_eq_slice (by simp), append_assoc, drop_left, take_left]

theorem or_eq_add {a b k : Nat} (small : b < 2 ^ k) : 2 ^ k * a ||| b = 2 ^ k * a + b :=
  (Nat.two_pow_add_eq_or_of_lt small a).symm

theorem readBeU16_toNat (p : List UInt8) (i : Nat) :
    (readBeU16 p i).toNat = beValue (word p i 2) := by
  have bytes : word p i 2 = [] ++ [byteAt p i] ++ [byteAt p (i + 1)] := rfl
  rw [bytes, beValue_append, beValue_append, readBeU16]
  generalize byteAt p i = a
  generalize byteAt p (i + 1) = b
  have ha := a.toNat_lt
  have hb := b.toNat_lt
  have high : (a.toUInt16 <<< 8).toNat = 2 ^ 8 * a.toNat := by
    rw [UInt16.toNat_shiftLeft, UInt8.toNat_toUInt16, Nat.shiftLeft_eq]
    change a.toNat * 2 ^ 8 % 2 ^ 16 = 2 ^ 8 * a.toNat
    omega
  have empty : beValue [] = 0 := rfl
  rw [UInt16.toNat_or, high, UInt8.toNat_toUInt16, or_eq_add hb, empty]
  omega

theorem readBeU32_toNat (p : List UInt8) (i : Nat) :
    (readBeU32 p i).toNat = beValue (word p i 4) := by
  have bytes : word p i 4 =
      [] ++ [byteAt p i] ++ [byteAt p (i + 1)] ++ [byteAt p (i + 2)] ++ [byteAt p (i + 3)] := rfl
  rw [bytes, beValue_append, beValue_append, beValue_append, beValue_append, readBeU32]
  generalize byteAt p i = a
  generalize byteAt p (i + 1) = b
  generalize byteAt p (i + 2) = c
  generalize byteAt p (i + 3) = d
  have hd := d.toNat_lt
  have shifted : ∀ (x : UInt8) (s : UInt32) (k : Nat), s.toNat = k → k ≤ 24 →
      (x.toUInt32 <<< s).toNat = 2 ^ k * x.toNat ∧ 2 ^ k * x.toNat < 2 ^ (k + 8) := by
    intro x s k hs hk
    have hx := x.toNat_lt
    have bound : 2 ^ k * x.toNat < 2 ^ (k + 8) := by
      rw [Nat.pow_add]
      exact Nat.mul_lt_mul_of_pos_left hx (Nat.two_pow_pos k)
    have fits : 2 ^ (k + 8) ≤ 2 ^ 32 := Nat.pow_le_pow_right (by omega) (by omega)
    refine ⟨?_, bound⟩
    have inside : k % 32 = k := Nat.mod_eq_of_lt (by omega)
    rw [UInt32.toNat_shiftLeft, UInt8.toNat_toUInt32, hs, inside, Nat.shiftLeft_eq, Nat.mul_comm,
      Nat.mod_eq_of_lt (by omega)]
  obtain ⟨ha, _⟩ := shifted a 24 24 rfl (by omega)
  obtain ⟨hb, hb'⟩ := shifted b 16 16 rfl (by omega)
  obtain ⟨hc, hc'⟩ := shifted c 8 8 rfl (by omega)
  have empty : beValue [] = 0 := rfl
  have two : 2 ^ 24 * a.toNat + 2 ^ 16 * b.toNat = 2 ^ 16 * (2 ^ 8 * a.toNat + b.toNat) := by omega
  have three : 2 ^ 16 * (2 ^ 8 * a.toNat + b.toNat) + 2 ^ 8 * c.toNat =
      2 ^ 8 * (2 ^ 16 * a.toNat + 2 ^ 8 * b.toNat + c.toNat) := by omega
  rw [UInt32.toNat_or, UInt32.toNat_or, UInt32.toNat_or, ha, hb, hc, UInt8.toNat_toUInt32,
    or_eq_add hb', two, or_eq_add hc', three, or_eq_add hd, empty]
  omega

/-- The loop of `read_be_u64` after any number of bytes that fit. -/
theorem foldl_shift_toNat (bs : List UInt8) (fits : bs.length ≤ 8) :
    (bs.foldl (fun (v : UInt64) b => v <<< 8 ||| b.toUInt64) 0).toNat = beValue bs := by
  induction bs using reverseRecOn with
  | nil => rfl
  | append_singleton bs b ih =>
    rw [length_append, length_singleton] at fits
    have before := ih (by omega)
    have bound : beValue bs < 2 ^ 56 := by
      have bound := beValue_lt bs
      have wider : 256 ^ bs.length ≤ 256 ^ 7 := Nat.pow_le_pow_right (by omega) (by omega)
      omega
    have hb := b.toNat_lt
    rw [foldl_append, foldl_cons, foldl_nil, beValue_append, UInt64.toNat_or,
      UInt64.toNat_shiftLeft, before, UInt8.toNat_toUInt64, Nat.shiftLeft_eq]
    have high : beValue bs * 2 ^ (UInt64.toNat 8 % 64) % 2 ^ 64 = 2 ^ 8 * beValue bs := by
      change beValue bs * 2 ^ 8 % 2 ^ 64 = 2 ^ 8 * beValue bs
      omega
    rw [high, or_eq_add hb]
    omega

theorem readBeU64_toNat (p : List UInt8) (i : Nat) :
    (readBeU64 p i).toNat = beValue (word p i 8) := by
  rw [← foldl_shift_toNat (word p i 8) (by simp), word, foldl_map, readBeU64]

theorem writeBeU64_eq (v : UInt64) : writeBeU64 v = beBytes 8 v.toNat := by
  have shifted : ∀ (s : UInt64) (k : Nat), s.toNat = 8 * k → k < 8 →
      (v >>> s).toUInt8 = UInt8.ofNat (v.toNat / 256 ^ k) := by
    intro s k hs hk
    apply UInt8.toNat_inj.mp
    have inside : 8 * k % 64 = 8 * k := Nat.mod_eq_of_lt (by omega)
    rw [UInt64.toNat_toUInt8, UInt64.toNat_shiftRight, hs, inside, Nat.shiftRight_eq_div_pow,
      Nat.pow_mul, UInt8.toNat_ofNat']
  have bytes : beBytes 8 v.toNat = ([7, 6, 5, 4, 3, 2, 1, 0] : List Nat).map
      fun k => UInt8.ofNat (v.toNat / 256 ^ k) := rfl
  change [(v >>> 56).toUInt8, (v >>> 48).toUInt8, (v >>> 40).toUInt8, (v >>> 32).toUInt8,
    (v >>> 24).toUInt8, (v >>> 16).toUInt8, (v >>> 8).toUInt8, (v >>> 0).toUInt8] = _
  rw [shifted 56 7 rfl (by omega), shifted 48 6 rfl (by omega), shifted 40 5 rfl (by omega),
    shifted 32 4 rfl (by omega), shifted 24 3 rfl (by omega), shifted 16 2 rfl (by omega),
    shifted 8 1 rfl (by omega), shifted 0 0 rfl (by omega)]
  rfl

theorem encodeHeader_eq (typeId : UInt16) (flags : UInt8) (wireLen : UInt32) :
    encodeHeader typeId flags wireLen =
      [0x4B, 0x54, 1, flags] ++ beBytes 2 typeId.toNat ++ beBytes 4 wireLen.toNat := by
  have two : beBytes 2 typeId.toNat = [(typeId >>> 8).toUInt8, typeId.toUInt8] := by
    have bytes : beBytes 2 typeId.toNat =
        [UInt8.ofNat (typeId.toNat / 256 ^ 1), UInt8.ofNat (typeId.toNat / 256 ^ 0)] := rfl
    have high : UInt8.ofNat (typeId.toNat / 256 ^ 1) = (typeId >>> 8).toUInt8 := by
      apply UInt8.toNat_inj.mp
      simp [UInt16.toNat_shiftRight, Nat.shiftRight_eq_div_pow]
    rw [bytes, high]
    simp
  have four : beBytes 4 wireLen.toNat = [(wireLen >>> 24).toUInt8, (wireLen >>> 16).toUInt8,
      (wireLen >>> 8).toUInt8, wireLen.toUInt8] := by
    have bytes : beBytes 4 wireLen.toNat =
        [UInt8.ofNat (wireLen.toNat / 256 ^ 3), UInt8.ofNat (wireLen.toNat / 256 ^ 2),
          UInt8.ofNat (wireLen.toNat / 256 ^ 1), UInt8.ofNat (wireLen.toNat / 256 ^ 0)] := rfl
    have shifted : ∀ (s : UInt32) (k : Nat), s.toNat = 8 * k → k < 4 →
        UInt8.ofNat (wireLen.toNat / 256 ^ k) = (wireLen >>> s).toUInt8 := by
      intro s k hs hk
      apply UInt8.toNat_inj.mp
      have inside : 8 * k % 32 = 8 * k := Nat.mod_eq_of_lt (by omega)
      rw [UInt32.toNat_toUInt8, UInt32.toNat_shiftRight, hs, inside, Nat.shiftRight_eq_div_pow,
        Nat.pow_mul, UInt8.toNat_ofNat']
    rw [bytes, shifted 24 3 rfl (by omega), shifted 16 2 rfl (by omega), shifted 8 1 rfl (by omega)]
    simp
  rw [two, four]
  rfl

end Words

section Encode

theorem copyPart_take (n : Nat) (whole part : List UInt8) :
    copyPart n (whole.take n) part = (whole ++ part).take n := by
  rw [copyPart, length_take]
  by_cases room : part.length ≠ 0 ∧ min n whole.length < n
  · rw [if_pos room]
    have short : min n whole.length = whole.length := by omega
    rw [short, take_of_length_le (by omega : whole.length ≤ n), take_append,
      take_of_length_le (by omega : whole.length ≤ n)]
    split
    · rw [take_length, take_of_length_le (by omega)]
    · rfl
  · rw [if_neg room]
    by_cases empty : part.length = 0
    · rw [length_eq_zero_iff.mp empty, append_nil]
    · rw [take_append_of_le_length (by omega)]

/-- The trailer counts against `max_payload`. -/
def Accepts (proto : KithProto) (flags : UInt8) (payload : List UInt8) : Prop :=
  payload.length + trailerLen flags ≤ proto.maxPayload.toNat

instance (proto : KithProto) (flags : UInt8) (payload : List UInt8) :
    Decidable (Accepts proto flags payload) :=
  inferInstanceAs (Decidable (_ ≤ _))

variable {proto : KithProto} {flags : UInt8} {payload : List UInt8}

theorem Accepts.wireLen (accepted : Accepts proto flags payload) :
    (UInt32.ofNat (payload.length + trailerLen flags)).toNat = payload.length + trailerLen flags :=
  UInt32.toNat_ofNat_of_lt' (Nat.lt_of_le_of_lt accepted proto.maxPayload.toNat_lt)

theorem trailerLen_cases (flags : UInt8) :
    flags &&& 0x02 ≠ 0 ∧ trailerLen flags = 8 ∨ flags &&& 0x02 = 0 ∧ trailerLen flags = 0 := by
  by_cases flagged : flags &&& 0x02 = 0
  · exact .inr ⟨flagged, if_neg (not_not.mpr flagged)⟩
  · exact .inl ⟨flagged, if_pos flagged⟩

theorem length_frameBytes (typeId : UInt16) (flags : UInt8) (correlationId : UInt64)
    (payload : List UInt8) :
    (frameBytes typeId flags correlationId payload).length =
      10 + (payload.length + trailerLen flags) := by
  simp only [frameBytes, length_append, length_beBytes, length_cons, length_nil]
  omega

theorem kithProtoEncode_refused (refused : ¬ Accepts proto flags payload) (typeId : UInt16)
    (correlationId : UInt64) (cap : Nat) :
    kithProtoEncode proto typeId flags correlationId payload cap = (0, []) := by
  rw [Accepts] at refused
  rw [kithProtoEncode]
  split
  · rfl
  · rename_i fits
    have excess : proto.maxPayload < UInt32.ofNat (payload.length + trailerLen flags) := by
      rw [UInt32.lt_iff_toNat_lt, UInt32.toNat_ofNat_of_lt' (Nat.lt_of_not_le fits)]
      omega
    rw [if_pos excess]

theorem kithProtoEncode_accepted (accepted : Accepts proto flags payload) (typeId : UInt16)
    (correlationId : UInt64) (cap : Nat) :
    kithProtoEncode proto typeId flags correlationId payload cap =
      ((frameBytes typeId flags correlationId payload).length,
        (frameBytes typeId flags correlationId payload).take cap) := by
  have wire := accepted.wireLen
  have bound := proto.maxPayload.toNat_lt
  rw [Accepts] at accepted
  have within : ¬ proto.maxPayload < UInt32.ofNat (payload.length + trailerLen flags) := by
    rw [UInt32.lt_iff_toNat_lt, wire]
    omega
  rw [kithProtoEncode, if_neg (by omega), if_neg within, wire, length_frameBytes]
  by_cases measured : cap = 0
  · rw [if_pos measured, measured, take_zero]
  · rw [if_neg measured]
    generalize hn : (if cap < 10 + (payload.length + trailerLen flags) then cap
      else 10 + (payload.length + trailerLen flags)) = n
    have cut : (frameBytes typeId flags correlationId payload).take cap =
        (frameBytes typeId flags correlationId payload).take n := by
      have full := length_frameBytes typeId flags correlationId payload
      split at hn
      · rw [hn]
      · rw [take_of_length_le (by omega), take_of_length_le (by omega)]
    -- Each copy extends a prefix of the frame by the next part of it.
    have header := copyPart_take n [] (encodeHeader typeId flags
      (UInt32.ofNat (payload.length + trailerLen flags)))
    rw [take_nil, nil_append] at header
    dsimp only
    rw [cut, header, copyPart_take, copyPart_take, encodeHeader_eq, wire, writeBeU64_eq, frameBytes]
    rcases trailerLen_cases flags with ⟨_, eight⟩ | ⟨_, none⟩
    · rw [eight, if_pos (by omega)]
    · have nothing : beBytes 0 correlationId.toNat = [] := rfl
      rw [none, if_neg (by omega), nothing, append_nil]

theorem kithProtoEncode_pos_iff (proto : KithProto) (typeId : UInt16) (flags : UInt8)
    (correlationId : UInt64) (payload : List UInt8) (cap : Nat) :
    0 < (kithProtoEncode proto typeId flags correlationId payload cap).1 ↔
      Accepts proto flags payload := by
  constructor
  · intro positive
    by_contra refused
    rw [kithProtoEncode_refused refused] at positive
    exact absurd positive (Nat.lt_irrefl 0)
  · intro accepted
    rw [kithProtoEncode_accepted accepted, length_frameBytes]
    omega

end Encode

section RoundTrip

variable {proto : KithProto} {typeId : UInt16} {flags : UInt8} {correlationId : UInt64}
    {buf : List UInt8} {f : ProtoFrame} {k : Nat}
  {payload : List UInt8}

/-- The frame a decoder reports; without the flag there is no correlation. -/
def decodedFrame (typeId : UInt16) (flags : UInt8) (correlationId : UInt64)
    (payload : List UInt8) : ProtoFrame :=
  ⟨typeId, flags, decide (flags &&& 0x02 ≠ 0), if flags &&& 0x02 ≠ 0 then correlationId else 0,
    UInt32.ofNat payload.length, payload⟩

def frameHeader (typeId : UInt16) (flags : UInt8) (payload : List UInt8) : Header :=
  ⟨typeId, flags, UInt32.ofNat (payload.length + trailerLen flags)⟩

@[simp] theorem frameHeader_typeId : (frameHeader typeId flags payload).typeId = typeId := rfl

@[simp] theorem frameHeader_flags : (frameHeader typeId flags payload).flags = flags := rfl

section

variable (accepted : Accepts proto flags payload)
include accepted

theorem frameHeader_total (typeId : UInt16)
    (correlationId : UInt64) : (frameHeader typeId flags payload).total =
      (frameBytes typeId flags correlationId payload).length := by
  rw [length_frameBytes, Header.total, frameHeader, accepted.wireLen]

theorem frameHeader_within (typeId : UInt16) :
    ¬ proto.maxPayload < (frameHeader typeId flags payload).wireLen := by
  rw [UInt32.lt_iff_toNat_lt, frameHeader, accepted.wireLen]
  exact Nat.not_lt.mpr accepted

theorem parseHeader_frameBytes (typeId : UInt16) (correlationId : UInt64) (rest : List UInt8) :
    parseHeader (frameBytes typeId flags correlationId payload ++ rest) =
      .ok (frameHeader typeId flags payload) := by
  have wire := accepted.wireLen
  generalize hb : frameBytes typeId flags correlationId payload ++ rest = buf
  have long : ¬ buf.length < 10 := by
    rw [← hb, length_append, length_frameBytes]
    omega
  have type : readBeU16 buf 4 = typeId := by
    have here : word buf 4 2 = beBytes 2 typeId.toNat := by
      apply word_of_split [0x4B, 0x54, 1, flags] _
        (beBytes 4 (payload.length + trailerLen flags) ++ payload ++
          beBytes (trailerLen flags) correlationId.toNat ++ rest) ?_ rfl (length_beBytes _ _)
      simp only [← hb, frameBytes, append_assoc]
    apply UInt16.toNat_inj.mp
    rw [readBeU16_toNat, here, beValue_beBytes_of_lt typeId.toNat_lt]
  have size : readBeU32 buf 6 = UInt32.ofNat (payload.length + trailerLen flags) := by
    have here : word buf 6 4 = beBytes 4 (payload.length + trailerLen flags) := by
      apply word_of_split ([0x4B, 0x54, 1, flags] ++ beBytes 2 typeId.toNat) _
        (payload ++ beBytes (trailerLen flags) correlationId.toNat ++ rest) ?_ rfl
        (length_beBytes _ _)
      simp only [← hb, frameBytes, append_assoc]
    have small := (UInt32.ofNat (payload.length + trailerLen flags)).toNat_lt
    apply UInt32.toNat_inj.mp
    rw [readBeU32_toNat, here, wire, beValue_beBytes_of_lt (by omega)]
  have start : byteAt buf 0 = 0x4B ∧ byteAt buf 1 = 0x54 ∧ byteAt buf 2 = 1 ∧
      byteAt buf 3 = flags := by
    rw [← hb]
    exact ⟨rfl, rfl, rfl, rfl⟩
  simp [parseHeader, frameHeader, long, start, type, size]

end

theorem frameBytes_split (typeId : UInt16) (flags : UInt8) (correlationId : UInt64)
    (payload rest : List UInt8) : ∃ header : List UInt8, header.length = 10 ∧
      frameBytes typeId flags correlationId payload ++ rest =
        header ++ payload ++ beBytes (trailerLen flags) correlationId.toNat ++ rest := by
  refine ⟨[0x4B, 0x54, 1, flags] ++ beBytes 2 typeId.toNat ++
    beBytes 4 (payload.length + trailerLen flags), rfl, ?_⟩
  simp only [frameBytes, append_assoc]

section

variable (accepted : Accepts proto flags payload)
include accepted

theorem decodeBody_frameBytes
    (registered : (findById proto typeId).isSome) (correlationId : UInt64) (rest : List UInt8) :
    decodeBody proto (frameHeader typeId flags payload)
        (frameBytes typeId flags correlationId payload ++ rest) =
      .ok (decodedFrame typeId flags correlationId payload,
        (frameBytes typeId flags correlationId payload).length) := by
  have known : ¬ (findById proto typeId).isNone := by
    rw [Option.isNone_iff_eq_none, ← ne_eq, Option.ne_none_iff_isSome]
    exact registered
  obtain ⟨header, ten, split⟩ := frameBytes_split typeId flags correlationId payload rest
  have wire : (frameHeader typeId flags payload).wireLen.toNat = _ := accepted.wireLen
  rw [← frameHeader_total accepted, decodeBody, frameHeader_typeId, frameHeader_flags, if_neg known]
  generalize frameBytes typeId flags correlationId payload ++ rest = buf at split ⊢
  generalize frameHeader typeId flags payload = h at wire ⊢
  have body : (buf.drop 10).take payload.length = payload := by
    rw [split, ← ten, append_assoc, append_assoc, drop_left, take_left]
  rcases trailerLen_cases flags with ⟨flagged, eight⟩ | ⟨plain, none⟩
  · rw [eight] at wire
    have long : ¬ h.wireLen < 8 := by
      rw [UInt32.lt_iff_toNat_lt, wire]
      exact Nat.not_lt.mpr (Nat.le_add_left 8 _)
    have shorter : (h.wireLen - 8).toNat = payload.length := by
      rw [UInt32.toNat_sub_of_le _ _ (UInt32.not_lt.mp long), wire]
      exact Nat.add_sub_cancel _ 8
    have rest_len : h.wireLen - 8 = UInt32.ofNat payload.length := by
      rw [← shorter, UInt32.ofNat_toNat]
    have trailer : readBeU64 buf (10 + h.wireLen.toNat - 8) = correlationId := by
      have here : word buf (10 + (payload.length + 8) - 8) 8 = beBytes 8 correlationId.toNat := by
        apply word_of_split (header ++ payload) _ rest (by rw [split, eight]) ?_
          (length_beBytes _ _)
        rw [length_append, ten]
        omega
      apply UInt64.toNat_inj.mp
      rw [wire, readBeU64_toNat, here, beValue_beBytes_of_lt correlationId.toNat_lt]
    rw [if_pos flagged, if_neg long]
    dsimp only
    rw [trailer, shorter, body, rest_len]
    simp [decodedFrame, flagged]
  · rw [none, Nat.add_zero] at wire
    have size : h.wireLen = UInt32.ofNat payload.length := by
      rw [← wire, UInt32.ofNat_toNat]
    rw [if_neg (not_not.mpr plain), wire, body, size]
    simp [decodedFrame, plain]

theorem decodeFrame_frameBytes
    (registered : (findById proto typeId).isSome) (correlationId : UInt64) (rest : List UInt8) :
    decodeFrame proto (frameBytes typeId flags correlationId payload ++ rest) =
      .ok (decodedFrame typeId flags correlationId payload,
        (frameBytes typeId flags correlationId payload).length) := by
  have complete : ¬ (frameBytes typeId flags correlationId payload ++ rest).length <
      (frameHeader typeId flags payload).total := by
    rw [length_append, frameHeader_total accepted typeId correlationId]
    omega
  rw [decodeFrame, parseHeader_frameBytes accepted]
  dsimp only
  rw [if_neg (frameHeader_within accepted typeId), if_neg complete,
    decodeBody_frameBytes accepted registered]

/-- A frame that is cut short is a frame still arriving. -/
theorem decodeFrame_cut (typeId : UInt16) (correlationId : UInt64) {n : Nat}
    (cut : n < (frameBytes typeId flags correlationId payload).length) :
    decodeFrame proto ((frameBytes typeId flags correlationId payload).take n) =
      .error .eagain := by
  have whole := parseHeader_frameBytes accepted typeId correlationId []
  have total := frameHeader_total accepted typeId correlationId
  rw [append_nil] at whole
  generalize frameBytes typeId flags correlationId payload = bytes at cut whole total ⊢
  have taken : (bytes.take n).length = n := by
    rw [length_take]
    omega
  by_cases short : n < 10
  · rw [decodeFrame, parseHeader_short (by omega)]
  · have parsed : parseHeader (bytes.take n) = .ok (frameHeader typeId flags payload) := by
      rw [← parseHeader_append (by omega) (bytes.drop n), take_append_drop, whole]
    rw [decodeFrame, parsed]
    dsimp only
    rw [if_neg (frameHeader_within accepted typeId), if_pos (by omega)]

end

theorem decodeFrame_inv (decoded : decodeFrame proto buf = .ok (f, k)) :
    ∃ h, parseHeader buf = .ok h ∧ h.wireLen ≤ proto.maxPayload ∧ h.total ≤ buf.length ∧
      k = h.total ∧ decodeBody proto h buf = .ok (f, k) := by
  rw [decodeFrame] at decoded
  cases parsed : parseHeader buf with
  | error code =>
    rw [parsed] at decoded
    cases decoded
  | ok h =>
    rw [parsed] at decoded
    dsimp only at decoded
    split at decoded
    · cases decoded
    · rename_i within
      split at decoded
      · cases decoded
      · exact ⟨h, rfl, UInt32.not_lt.mp within, by omega, decodeBody_size decoded, decoded⟩

theorem parseHeader_inv {h : Header} (parsed : parseHeader buf = .ok h) :
    buf.take 10 =
      [0x4B, 0x54, 1, h.flags] ++ beBytes 2 h.typeId.toNat ++ beBytes 4 h.wireLen.toNat := by
  have long := parseHeader_ok parsed
  rw [parseHeader, if_neg (by omega)] at parsed
  split at parsed
  · cases parsed
  · rename_i magic
    split at parsed
    · cases parsed
    · rename_i version
      rw [not_or, not_not, not_not] at magic
      rw [not_not] at version
      cases parsed
      have type := beBytes_beValue (word buf 4 2)
      have size := beBytes_beValue (word buf 6 4)
      have first : word buf 0 4 = [byteAt buf 0, byteAt buf 1, byteAt buf 2, byteAt buf 3] := rfl
      rw [length_word, ← readBeU16_toNat] at type
      rw [length_word, ← readBeU32_toNat] at size
      have start : word buf 0 10 = buf.take 10 := by rw [word_eq_slice (by omega), drop_zero]
      rw [← start, word_add buf 0 6 4, word_add buf 0 4 2, type, size, first, magic.1, magic.2,
        version]

/-- What the decoder accepts is a frame of the encoder. -/
theorem frameBytes_of_decode (decoded : decodeFrame proto buf = .ok (f, k)) :
    Accepts proto f.flags f.payload ∧ buf.take k =
      frameBytes f.typeId f.flags f.correlationId f.payload := by
  obtain ⟨h, parsed, within, complete, rfl, body⟩ := decodeFrame_inv decoded
  have header := parseHeader_inv parsed
  rw [UInt32.le_iff_toNat_le] at within
  rw [Header.total] at complete ⊢
  rw [take_add, header, frameBytes, Accepts]
  rw [decodeBody] at body
  split at body
  · cases body
  · split at body
    · rename_i flagged
      split at body
      · cases body
      · rename_i long
        have eight : trailerLen h.flags = 8 := if_pos flagged
        have enough : 8 ≤ h.wireLen.toNat := UInt32.le_iff_toNat_le.mp (UInt32.not_lt.mp long)
        have shorter : (h.wireLen - 8).toNat = h.wireLen.toNat - 8 :=
          UInt32.toNat_sub_of_le _ _ (UInt32.not_lt.mp long)
        have trailer := beBytes_beValue (word buf (10 + h.wireLen.toNat - 8) 8)
        rw [length_word, ← readBeU64_toNat] at trailer
        cases body
        dsimp only
        rw [eight, shorter, trailer, word_eq_slice (by omega)]
        have payload : ((buf.drop 10).take (h.wireLen.toNat - 8)).length = h.wireLen.toNat - 8 := by
          rw [length_take, length_drop]
          omega
        have region : (buf.drop 10).take h.wireLen.toNat =
            (buf.drop 10).take (h.wireLen.toNat - 8) ++
              (buf.drop (10 + h.wireLen.toNat - 8)).take 8 := by
          have parts : h.wireLen.toNat = h.wireLen.toNat - 8 + 8 := by omega
          have place : 10 + (h.wireLen.toNat - 8) = 10 + h.wireLen.toNat - 8 := by omega
          nth_rewrite 1 [parts]
          rw [take_add, drop_drop, place]
        constructor
        · omega
        · rw [payload, region, Nat.sub_add_cancel enough]
          simp only [append_assoc]
    · rename_i plain
      have none : trailerLen h.flags = 0 := if_neg plain
      cases body
      dsimp only
      have payload : ((buf.drop 10).take h.wireLen.toNat).length = h.wireLen.toNat := by
        rw [length_take, length_drop]
        omega
      have nothing : beBytes 0 (UInt64.toNat 0) = [] := rfl
      constructor
      · omega
      · rw [none, payload, nothing, Nat.add_zero, append_nil]

theorem kithProtoDecode_ok_iff :
    kithProtoDecode proto buf = (.ok (f, k), proto) ↔ decodeFrame proto buf = .ok (f, k) := by
  rw [kithProtoDecode]
  constructor
  · intro decoded
    split at decoded
    · cases decoded
    · exact congrArg Prod.fst decoded
  · intro decoded
    rw [decoded]

/-- Encode and decode are inverse to each other: what the encoder accepts and has room
for comes back from any buffer it starts, and only from the whole of it; what the
decoder accepts is what the encoder writes for the frame found. -/
theorem wire_round_trip (proto : KithProto) :
    (∀ (typeId : UInt16) (flags : UInt8) (correlationId : UInt64) (payload : List UInt8)
        (cap total : Nat) (bytes : List UInt8), (findById proto typeId).isSome →
      kithProtoEncode proto typeId flags correlationId payload cap = (total, bytes) →
      (total ≠ 0 ↔ payload.length + trailerLen flags ≤ proto.maxPayload.toNat) ∧
      (total ≠ 0 → total ≤ cap →
        (∀ rest, kithProtoDecode proto (bytes ++ rest) =
            (.ok (decodedFrame typeId flags correlationId payload, total), proto) ∧
          kithProtoDeclaredTotal (bytes ++ rest) = .ok total) ∧
        bytes.length = total ∧
        ∀ n < total, kithProtoDecode proto (bytes.take n) = (.error .eagain, proto))) ∧
    (∀ (buf : List UInt8) (f : ProtoFrame) (k cap : Nat),
      kithProtoDecode proto buf = (.ok (f, k), proto) → k ≤ cap →
      kithProtoEncode proto f.typeId f.flags f.correlationId f.payload cap = (k, buf.take k)) := by
  constructor
  · intro typeId flags correlationId payload cap total bytes registered encoded
    have accepts := kithProtoEncode_pos_iff proto typeId flags correlationId payload cap
    rw [encoded, Nat.pos_iff_ne_zero] at accepts
    refine ⟨accepts, ?_⟩
    intro nonzero room
    have accepted := accepts.mp nonzero
    rw [kithProtoEncode_accepted accepted, Prod.mk.injEq] at encoded
    obtain ⟨rfl, rfl⟩ := encoded
    rw [List.take_of_length_le room]
    refine ⟨?_, rfl, ?_⟩
    · intro rest
      rw [kithProtoDecode_ok_iff, kithProtoDeclaredTotal, parseHeader_frameBytes accepted,
        ← frameHeader_total accepted typeId correlationId]
      refine ⟨?_, rfl⟩
      rw [frameHeader_total accepted typeId correlationId]
      exact decodeFrame_frameBytes accepted registered correlationId rest
    · intro n cut
      rw [kithProtoDecode, decodeFrame_cut accepted typeId correlationId cut]
  · intro buf f k cap decoded room
    rw [kithProtoDecode_ok_iff] at decoded
    obtain ⟨accepted, bytes⟩ := frameBytes_of_decode decoded
    obtain ⟨h, _, _, complete, size, _⟩ := decodeFrame_inv decoded
    have taken : (buf.take k).length = k := by
      rw [List.length_take]
      omega
    rw [kithProtoEncode_accepted accepted, ← bytes, taken, List.take_of_length_le (by omega)]

def echoProto : KithProto := ⟨[⟨"echo", 7⟩], 64, 0⟩

def echoBytes : List UInt8 :=
  [0x4B, 0x54, 1, 3, 0, 7, 0, 0, 0, 10, 1, 2, 0, 0, 0, 0, 0, 0, 1, 44]

theorem echo_round_trip :
    (findById echoProto 7).isSome ∧
    kithProtoEncode echoProto 7 3 300 [1, 2] 32 = (20, echoBytes) ∧
    kithProtoDecode echoProto (echoBytes ++ [9]) =
      (.ok (⟨7, 3, true, 300, 2, [1, 2]⟩, 20), echoProto) ∧
    (∀ n < 20, kithProtoDecode echoProto (echoBytes.take n) = (.error .eagain, echoProto)) ∧
    kithProtoEncode echoProto 7 3 300 [1, 2] 20 = (20, (echoBytes ++ [9]).take 20) := by
  have registered : (findById echoProto 7).isSome := by decide
  have encoded : kithProtoEncode echoProto 7 3 300 [1, 2] 32 = (20, echoBytes) := by decide
  obtain ⟨forth, back⟩ := wire_round_trip echoProto
  obtain ⟨again, _, cut⟩ :=
    (forth 7 3 300 [1, 2] 32 20 echoBytes registered encoded).2 (by decide) (by decide)
  exact ⟨registered, encoded, (again [9]).1, cut, back _ _ _ 20 (again [9]).1 (by decide)⟩

end RoundTrip

end Kith.Proto
