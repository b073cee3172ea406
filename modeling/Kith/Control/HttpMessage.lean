import Kith.Control.HttpParser

/-!
# What a parsed request says

The bytes of a request, read as lines that end in CRLF: the request line, the
header lines up to the first empty one, the name and the value of a header. The
parser finds the end of the request line at the first CR and the start of the
headers at the first LF, and it finds a header by the start of its name; the
results below say on which requests the two scans agree, and on which requests
the headers and the body are those the lines name.
-/

namespace Kith.Control

open List Option

open Cyclic (slice length_slice)

section Lines

/-- The bytes cut at every CRLF. -/
def crlfLines : List UInt8 → List (List UInt8)
  | [] => [[]]
  | 13 :: 10 :: rest => [] :: crlfLines rest
  | b :: rest => (b :: (crlfLines rest).headD []) :: (crlfLines rest).tail

variable (data : List UInt8)

def requestLine : List UInt8 := (crlfLines data).headD []

/-- The lines behind the request line and before the first empty one. -/
def headerLines : List (List UInt8) :=
  (crlfLines data).tail.takeWhile (· ≠ [])

variable (line : List UInt8)

def methodToken : List UInt8 := line.takeWhile (· ≠ 32)

def targetToken : List UInt8 :=
  ((line.dropWhile (· ≠ 32)).drop 1).takeWhile (· ≠ 32)

/-- The header of a line that has a colon and is within the limits. -/
def headerOf : Option Header :=
  let name := line.takeWhile (· ≠ 58)
  let value := ((line.dropWhile (· ≠ 58)).drop 1).dropWhile (· = 32)
  if 58 ∈ line ∧ name.length < 64 ∧ value.length < 256 then some ⟨cString name, cString value⟩
  else none

/-- The headers that lines give, up to the 32 there is room for. -/
def storedHeaders (lines : List (List UInt8)) : List Header := (lines.filterMap headerOf).take 32

/-- The request is the one the lines of `data` say. -/
structure Faithful (data : List UInt8) (req : Request) : Prop where
  method : req.method = methodOf (methodToken (requestLine data))
  path : req.path = cString (targetToken (requestLine data))
  plain : 13 ∉ req.path ∧ 10 ∉ req.path
  headers : req.headers = storedHeaders (headerLines data)

/-- What stands behind the first LF of a line. -/
def behindFeed : List UInt8 := (line.dropWhile (· ≠ 10)).drop 1

/-- A line feed in the request line is harmless: it is not in the path, and what
follows it does not pass for a header, or passes for the one header that fills
the table anyway, or is nothing and there are no headers to lose. -/
def StrayFeed : Prop :=
  10 ∉ cString (targetToken (requestLine data)) ∧
    if behindFeed (requestLine data) = [] then storedHeaders (headerLines data) = []
    else
      headerOf (behindFeed (requestLine data)) = none ∨
        ∃ h, headerOf (behindFeed (requestLine data)) = some h ∧
          storedHeaders (headerLines data) = List.replicate 32 h

theorem crlfLines_line {line : List UInt8} (plain : 13 ∉ line) (rest : List UInt8) :
    crlfLines (line ++ 13 :: 10 :: rest) = line :: crlfLines rest := by
  induction line with
  | nil => rfl
  | cons b line ih =>
    obtain ⟨hb, plain⟩ := not_or.mp (fun h => plain (mem_cons.mpr h))
    have next : crlfLines (b :: (line ++ 13 :: 10 :: rest)) =
        (b :: (crlfLines (line ++ 13 :: 10 :: rest)).headD []) ::
          (crlfLines (line ++ 13 :: 10 :: rest)).tail := by
      rw [crlfLines]
      rintro rest' rfl
      exact absurd rfl hb
    simp [cons_append, next, ih plain, tail_cons]

end Lines

section Scans

variable {mem : Nat → UInt8} {b : UInt8} {p n i : Nat} {line rest : List UInt8}

theorem slice_succ : slice mem p (n + 1) = mem p :: slice mem (p + 1) n := by
  simp only [slice, range_succ_eq_map, map_cons, List.map_map, Nat.add_zero, cons.injEq, true_and]
  apply map_congr_left
  intro j _
  simp only [Function.comp_apply]
  congr 1
  omega

theorem slice_buffer (stale : Nat → UInt8) (data : List UInt8) :
    slice (buffer stale data) 0 data.length = data := by
  apply ext_getElem
  · exact length_slice _ _
  · intro j hj hj'
    simp only [slice, getElem_map, getElem_range, Nat.zero_add]
    exact buffer_of_lt hj'

theorem memchr_none (missing : memchr mem b p n = none) : b ∉ slice mem p n := by
  induction n generalizing p with
  | zero => simp [slice]
  | succ n ih =>
    rw [memchr] at missing
    split at missing
    · cases missing
    · rename_i other
      rw [slice_succ, mem_cons, not_or]
      exact ⟨fun h => other h.symm, ih missing⟩

/-- A search up to `e` cuts the bytes at the first `b`. -/
theorem memchr_some {e : Nat} (found : memchr mem b p n = some i) (he : p + n = e) :
    slice mem p n = slice mem p (i - p) ++ b :: slice mem (i + 1) (e - (i + 1)) ∧
      b ∉ slice mem p (i - p) := by
  induction n generalizing p with
  | zero => cases found
  | succ n ih =>
    rw [memchr] at found
    split at found
    · rename_i here
      cases found
      rw [Nat.sub_self, slice_succ, here]
      refine ⟨?_, by simp [slice]⟩
      congr 4
      omega
    · rename_i other
      obtain ⟨hle, _⟩ := memchr_eq_some_iff.mp found
      obtain ⟨split, before⟩ := ih found (by omega)
      have first : slice mem p (i - p) = mem p :: slice mem (p + 1) (i - (p + 1)) := by
        rw [← slice_succ]
        congr 1
        omega
      rw [slice_succ, split, first]
      refine ⟨rfl, ?_⟩
      rw [mem_cons, not_or]
      exact ⟨fun h => other h.symm, before⟩

theorem memchr_crlf {e : Nat} (found : memchr mem 13 p n = some i) (he : p + n = e)
    (room : i + 1 < e) (feed : mem (i + 1) = 10) :
    slice mem p n = slice mem p (i - p) ++ 13 :: 10 :: slice mem (i + 2) (e - (i + 2)) ∧
      13 ∉ slice mem p (i - p) := by
  obtain ⟨cut, plain⟩ := memchr_some found he
  obtain ⟨m, hm⟩ : ∃ m, e - (i + 1) = m + 1 := ⟨e - (i + 2), by omega⟩
  have hrest : m = e - (i + 2) := by omega
  rw [hm, slice_succ, feed, hrest] at cut
  exact ⟨cut, plain⟩

theorem skipSpaces_spec (mem : Nat → UInt8) (n p : Nat) :
    p ≤ skipSpaces mem n p ∧ skipSpaces mem n p ≤ p + n ∧
      slice mem (skipSpaces mem n p) (p + n - skipSpaces mem n p) =
        (slice mem p n).dropWhile (· = 32) := by
  induction n generalizing p with
  | zero => simp [skipSpaces, slice]
  | succ n ih =>
    rw [skipSpaces]
    split
    · rename_i blank
      obtain ⟨hle, hlt, rest⟩ := ih (p + 1)
      refine ⟨by omega, by omega, ?_⟩
      rw [slice_succ, dropWhile_cons_of_pos (by simpa using blank), ← rest]
      congr 1
      omega
    · rename_i other
      refine ⟨le_rfl, by omega, ?_⟩
      rw [Nat.add_sub_cancel_left, slice_succ, dropWhile_cons_of_neg (by simpa using other)]

theorem takeWhile_to (plain : b ∉ line) : (line ++ b :: rest).takeWhile (· ≠ b) = line := by
  rw [takeWhile_append_of_pos, takeWhile_cons_of_neg (by simp), append_nil]
  intro x hx
  simpa using fun h : x = b => plain (h ▸ hx)

theorem dropWhile_to (plain : b ∉ line) : (line ++ b :: rest).dropWhile (· ≠ b) = b :: rest := by
  rw [dropWhile_append_of_pos, dropWhile_cons_of_neg (by simp)]
  intro x hx
  simpa using fun h : x = b => plain (h ▸ hx)

end Scans

section Headers

variable {mem : Nat → UInt8} {table : HeaderTable}

/-- A table within its slots, each of which takes at most 320 bytes of the arena. -/
structure HeaderTable.Fits (table : HeaderTable) : Prop where
  slots : table.headers.length ≤ 32
  arena : table.used ≤ 320 * table.headers.length

/-- A header line is stored, unless it gives no header or the table is full; the
arena is never exhausted. -/
theorem headerLine_spec (mem : Nat → UInt8) (fits : table.Fits) {p e : Nat} (hpe : p ≤ e) :
    ∃ table', headerLine mem p e table = some table' ∧ table'.Fits ∧
      table'.headers = (table.headers ++ (headerOf (slice mem p (e - p))).toList).take 32 := by
  have hslots := fits.slots
  have harena := fits.arena
  have whole : table.headers.take 32 = table.headers := take_of_length_le hslots
  rw [headerLine]
  split
  · cases hc : memchr mem 58 p (e - p) with
    | none =>
      refine ⟨table, rfl, fits, ?_⟩
      rw [headerOf, if_neg (fun h => memchr_none hc h.1)]
      simpa using whole.symm
    | some colon =>
      obtain ⟨hle, hlt, _⟩ := memchr_eq_some_iff.mp hc
      obtain ⟨cut, before⟩ := memchr_some (e := e) hc (by omega)
      obtain ⟨hvle, hvlt, value⟩ := skipSpaces_spec mem (e - (colon + 1)) (colon + 1)
      rw [show colon + 1 + (e - (colon + 1)) = e by omega] at value hvlt
      have hname : (slice mem p (e - p)).takeWhile (· ≠ 58) = slice mem p (colon - p) := by
        rw [cut, takeWhile_to before]
      have hvalue : (((slice mem p (e - p)).dropWhile (· ≠ 58)).drop 1).dropWhile (· = 32) =
          slice mem (skipSpaces mem (e - (colon + 1)) (colon + 1))
            (e - skipSpaces mem (e - (colon + 1)) (colon + 1)) := by
        rw [cut, dropWhile_to before, drop_one, tail_cons, value]
      have colonMem : 58 ∈ slice mem p (e - p) := by
        rw [cut]
        exact mem_append_right _ mem_cons_self
      simp only [headerOf, hname, hvalue, length_slice, colonMem, true_and]
      split
      · have space : ¬ headerScratchCap < table.used + (colon - p + 1 +
            (e - skipSpaces mem (e - (colon + 1)) (colon + 1)) + 1) := by
          simp only [headerScratchCap]
          omega
        rw [if_neg space]
        refine ⟨_, rfl, ⟨?_, ?_⟩, ?_⟩
        · simp only [length_append, length_singleton]
          omega
        · simp only [length_append, length_singleton]
          omega
        · rw [toList_some, take_of_length_le]
          simp only [length_append, length_singleton]
          omega
      · refine ⟨table, rfl, fits, ?_⟩
        simpa using whole.symm
  · refine ⟨table, rfl, fits, ?_⟩
    rw [take_append_of_le_length (by omega), whole]

theorem take_take_append {α : Type} (n : Nat) (a c : List α) :
    (a.take n ++ c).take n = (a ++ c).take n := by
  by_cases h : a.length ≤ n
  · rw [take_of_length_le h]
  · rw [take_append_of_le_length (by rw [length_take]; omega), take_take,
      take_append_of_le_length (by omega), Nat.min_self]

/-- The headers that a run of the loop stores are those of the lines before the first
empty one. -/
theorem HeaderRun.stored {stop p total : Nat} {headers : List Header}
    (run : HeaderRun mem stop p table total headers) (fits : table.Fits) :
    headers = (table.headers ++
      ((crlfLines (slice mem p (stop - p))).takeWhile (· ≠ [])).filterMap headerOf).take 32 := by
  induction run with
  | @blank p table inside blank =>
    have bytes : slice mem p (stop - p) = [] ++ 13 :: 10 :: slice mem (p + 2) (stop - p - 2) := by
      obtain ⟨n, hn⟩ : ∃ n, stop - p = n + 1 + 1 := ⟨stop - p - 2, by omega⟩
      rw [hn, slice_succ, slice_succ, blank.1, blank.2]
      rfl
    rw [bytes, crlfLines_line (by simp)]
    simp [take_of_length_le fits.slots]
  | @line p e _ _ _ _ text found closed feed stored rest ih =>
    obtain ⟨hle, hlt, hbyte, _⟩ := memchr_eq_some_iff.mp found
    obtain ⟨cut, plain⟩ := memchr_crlf (e := stop) found (by omega) closed feed
    obtain ⟨table', stored', fits', hstored⟩ := headerLine_spec mem fits hle
    obtain rfl := Option.some.inj (stored.symm.trans stored')
    have nonempty : slice mem p (e - p) ≠ [] := by
      intro empty
      have hsame : e = p := by
        have := congrArg length empty
        simp only [length_slice, length_nil] at this
        omega
      rw [hsame] at hbyte feed
      exact text ⟨hbyte, feed⟩
    rw [ih fits', hstored, take_take_append, cut, crlfLines_line plain,
      takeWhile_cons_of_pos (by simpa using nonempty), filterMap_cons]
    cases headerOf (slice mem p (e - p)) with
    | none | some h => simp

end Headers

section Boundaries

variable {mem : Nat → UInt8} {stale : Nat → UInt8} {c : ControlConn} {len total : Nat}
    {req head : Request} {b : UInt8}

theorem LineAt.tokens {e sp1 sp2 : Nat} (line : LineAt mem len e sp1 sp2) :
    methodToken (slice mem 0 e) = slice mem 0 sp1 ∧
      targetToken (slice mem 0 e) = slice mem (sp1 + 1) (sp2 - (sp1 + 1)) := by
  obtain ⟨cut, before⟩ := memchr_some line.first (Nat.zero_add e)
  obtain ⟨cut', before'⟩ := memchr_some line.second rfl
  rw [Nat.sub_zero] at cut before
  refine ⟨?_, ?_⟩
  · rw [methodToken, cut, takeWhile_to before]
  · rw [targetToken, cut, dropWhile_to before, drop_one, tail_cons, cut', takeWhile_to before']

/-- Pushing a header in front of a full table changes nothing when the table is
that header throughout. -/
theorem cons_take_eq_iff {α : Type} (n : Nat) (a : α) (l : List α) :
    (a :: l).take (n + 1) = l.take (n + 1) ↔ l.take (n + 1) = replicate (n + 1) a := by
  induction n generalizing l with
  | zero =>
    cases l with
    | nil => simp
    | cons b l => simp [eq_comm]
  | succ n ih =>
    cases l with
    | nil => simp
    | cons b l =>
      have front : (a :: b :: l).take (n + 1 + 1) = a :: (b :: l).take (n + 1) := rfl
      have own : (b :: l).take (n + 1 + 1) = b :: l.take (n + 1) := rfl
      rw [front, own, replicate_succ, cons.injEq, cons.injEq]
      constructor
      · rintro ⟨rfl, same⟩
        exact ⟨rfl, (ih l).mp same⟩
      · rintro ⟨rfl, same⟩
        exact ⟨rfl, (ih l).mpr same⟩

theorem mem_cString {bytes : List UInt8} (h : b ∈ cString bytes) : b ∈ bytes :=
  takeWhile_sublist _ |>.subset h

theorem mem_targetToken {line : List UInt8} (h : b ∈ targetToken line) : b ∈ line :=
  (dropWhile_sublist _).subset (mem_of_mem_drop ((takeWhile_sublist _).subset h))

theorem finishRequest_fields (mem : Nat → UInt8) (len total : Nat) (req : Request) :
    let r := (finishRequest mem len total req).2
    r.method = req.method ∧ r.path = req.path ∧ r.headers = req.headers := by
  rw [finishRequest]
  split
  · split
    · exact ⟨rfl, rfl, rfl⟩
    · split
      · exact ⟨rfl, rfl, rfl⟩
      · split
        · exact ⟨rfl, rfl, rfl⟩
        · split
          · exact ⟨rfl, rfl, rfl⟩
          · exact ⟨rfl, rfl, rfl⟩
  · exact ⟨rfl, rfl, rfl⟩

theorem Head.scanned (parsed : Head mem len req total head) :
    ∃ line rest, slice mem 0 len = line ++ 13 :: 10 :: rest ∧ 13 ∉ line ∧
      head.method = methodOf (methodToken line) ∧ head.path = cString (targetToken line) ∧
      head.headers =
        storedHeaders ((crlfLines (if 10 ∈ line then behindFeed line ++ 13 :: 10 :: rest
          else rest)).takeWhile (· ≠ [])) := by
  obtain ⟨⟨r, hline, hmethod, hpath⟩, ⟨nl, hnl, hheaders⟩, _⟩ := parsed
  obtain ⟨e, sp1, sp2, line⟩ := lineAt_of_parsed hline
  obtain rfl := congrArg Prod.snd ((line.parse req).symm.trans hline)
  have hcr := line.ends
  have hroom := line.closed
  have hlf := line.feed
  obtain ⟨_, _, hbyte, before⟩ := memchr_eq_some_iff.mp hcr
  obtain ⟨cut, plain⟩ := memchr_crlf hcr (Nat.zero_add len) hroom hlf
  obtain ⟨_, hnlt, hfeed, beforeFeed⟩ := memchr_eq_some_iff.mp hnl
  have hle : nl ≤ e + 1 := by
    by_contra far
    exact beforeFeed (e + 1) (Nat.zero_le _) (by omega) hlf
  have hne : nl ≠ e := by
    rintro rfl
    rw [hbyte] at hfeed
    exact absurd hfeed (by decide)
  refine ⟨slice mem 0 e, slice mem (e + 2) (len - (e + 2)), cut, plain,
    by rw [hmethod, line.tokens.1], by rw [hpath, line.tokens.2], ?_⟩
  have stored := (headerRun_of_parsed hheaders).stored ⟨Nat.zero_le _, Nat.zero_le _⟩
  rw [stored, nil_append, storedHeaders]
  congr 4
  by_cases hlast : nl = e + 1
  · -- The first LF is the one behind the CR.
    rw [if_neg, hlast]
    intro feed
    obtain ⟨j, hj, hfeed'⟩ := mem_map.mp feed
    exact beforeFeed j (Nat.zero_le _) (by have := mem_range.mp hj; omega) (by simpa using hfeed')
  · -- An earlier one: the header scan starts inside the request line.
    have hfound : memchr mem 10 0 e = some nl :=
      memchr_eq_some_iff.mpr ⟨Nat.zero_le _, by omega, hfeed, beforeFeed⟩
    obtain ⟨cutFeed, plainFeed⟩ := memchr_some hfound (Nat.zero_add e)
    have feed : 10 ∈ slice mem 0 e := by
      rw [cutFeed]
      exact mem_append_right _ mem_cons_self
    rw [if_pos feed, behindFeed, cutFeed, dropWhile_to plainFeed, drop_one, tail_cons]
    have hcr' : memchr mem 13 (nl + 1) (len - (nl + 1)) = some e :=
      memchr_eq_some_iff.mpr ⟨by omega, by omega, hbyte, fun j _ hj => before j (Nat.zero_le _) hj⟩
    rw [(memchr_crlf (e := len) hcr' (by omega) hroom hlf).1]

theorem Head.faithful_iff {data : List UInt8} (bytes : slice mem 0 len = data)
    (parsed : Head mem len req total head) :
    Faithful data head ↔ 10 ∉ requestLine data ∨ StrayFeed data := by
  obtain ⟨line, rest, cut, plain, hmethod, hpath, hheaders⟩ := parsed.scanned
  have hlines : crlfLines data = line :: crlfLines rest := by
    rw [← bytes, cut, crlfLines_line plain]
  have hrequest : requestLine data = line := by rw [requestLine, hlines, headD_cons]
  have hheader : headerLines data = (crlfLines rest).takeWhile (· ≠ []) := by
    rw [headerLines, hlines, tail_cons]
  have noReturn : 13 ∉ head.path := fun h => plain (mem_targetToken (mem_cString (hpath ▸ h)))
  have fields : Faithful data head ↔ 10 ∉ head.path ∧
      head.headers = storedHeaders (headerLines data) := by
    constructor
    · intro faithful
      exact ⟨faithful.plain.2, faithful.headers⟩
    · rintro ⟨noFeed, same⟩
      exact ⟨hrequest ▸ hmethod, hrequest ▸ hpath, ⟨noReturn, noFeed⟩, same⟩
  rw [fields, StrayFeed, hrequest, ← hpath]
  by_cases feed : 10 ∈ line
  · rw [if_pos feed] at hheaders
    have plainTail : 13 ∉ behindFeed line := fun h =>
      plain ((dropWhile_sublist _).subset (mem_of_mem_drop h))
    rw [crlfLines_line plainTail] at hheaders
    simp only [feed, not_true_eq_false, false_or]
    apply and_congr_right
    intro _
    split
    · rename_i empty
      rw [empty, takeWhile_cons_of_neg (by simp)] at hheaders
      rw [hheaders]
      exact eq_comm
    · rename_i nonempty
      rw [takeWhile_cons_of_pos (by simpa using nonempty), ← hheader] at hheaders
      rw [hheaders]
      cases hextra : headerOf (behindFeed line) with
      | none => simp [storedHeaders, hextra]
      | some h => simpa [storedHeaders, hextra] using cons_take_eq_iff 31 h _
  · rw [if_neg feed, ← hheader] at hheaders
    have noFeed : 10 ∉ head.path := fun h => feed (mem_targetToken (mem_cString (hpath ▸ h)))
    simp [feed, noFeed, hheaders]

/-- The connection holds a request whose head is complete and parses. -/
structure Heads (stale : Nat → UInt8) (c : ControlConn) (total : Nat) (head : Request) : Prop where
  state : c.state = .reading
  found : findHeaderTerminator (buffer stale c.readBuf) c.readBuf.length ≠ none
  parsed : Head (buffer stale c.readBuf) c.readBuf.length c.request total head

theorem Heads.consume (heads : Heads stale c total head) :
    let r := finishRequest (buffer stale c.readBuf) c.readBuf.length total head
    (controlHttpParserConsume stale c).1 = r.1 ∧
      (controlHttpParserConsume stale c).2.request = r.2 := by
  obtain ⟨t, found⟩ := ne_none_iff_exists'.mp heads.found
  obtain ⟨hcode, hrequest⟩ := consume_of_found ⟨heads.state, rfl, rfl⟩ found
  have result := heads.parsed.parse
  exact ⟨hcode.trans (congrArg Prod.fst result), hrequest.trans (congrArg Prod.snd result)⟩

theorem heads_of_accepted (accepted : (controlHttpParserConsume stale c).1 = 0) :
    ∃ total head, Heads stale c total head := by
  have reading : c.state = .reading := by
    by_contra other
    rw [controlHttpParserConsume, if_pos other] at accepted
    exact absurd accepted (by simp)
  cases found : findHeaderTerminator (buffer stale c.readBuf) c.readBuf.length with
  | none =>
    rw [controlHttpParserConsume, if_neg (not_not.mpr reading), found] at accepted
    dsimp only at accepted
    split at accepted
    · exact absurd accepted (by simp)
    · exact absurd accepted (by simp)
  | some t =>
    rw [(consume_of_found ⟨reading, rfl, rfl⟩ found).1] at accepted
    rcases parseRequest_cases (buffer stale c.readBuf) c.readBuf.length c.request with
      refused | ⟨total, head, parsed⟩
    · rw [refused] at accepted
      exact absurd accepted (by decide)
    · exact ⟨total, head, reading, by rw [found]; exact some_ne_none t, parsed⟩

/-- An accepted request is the one its lines say exactly when its request line holds
no line feed, or a harmless one. -/
theorem accepted_request_faithful_iff (stale : Nat → UInt8) (c : ControlConn)
    (accepted : (controlHttpParserConsume stale c).1 = 0) :
    Faithful c.readBuf (controlHttpParserConsume stale c).2.request ↔
      10 ∉ requestLine c.readBuf ∨ StrayFeed c.readBuf := by
  obtain ⟨total, head, heads⟩ := heads_of_accepted accepted
  obtain ⟨hmethod, hpath, hheaders⟩ :=
    finishRequest_fields (buffer stale c.readBuf) c.readBuf.length total head
  have fields : Faithful c.readBuf (controlHttpParserConsume stale c).2.request ↔
      Faithful c.readBuf head := by
    rw [heads.consume.2]
    refine ⟨fun faithful => ?_, fun faithful => ?_⟩ <;>
      exact ⟨hmethod ▸ faithful.method, hpath ▸ faithful.path, hpath ▸ faithful.plain,
        hheaders ▸ faithful.headers⟩
  rw [fields]
  exact heads.parsed.faithful_iff (slice_buffer stale c.readBuf)

/-- A connection that has read `text`. -/
def received (text : String) : ControlConn :=
  { ControlConn.zero with readCap := 8192, readBuf := ascii text }

/-- The parse of `text` in a zeroed buffer. -/
def consumed (text : String) : Int × ControlConn :=
  controlHttpParserConsume (fun _ => 0) (received text)

def hostedText : String := "GET /a HTTP/1.1\r\nHost: b\r\n\r\n"

theorem accepted_request_faithful_hosted :
    (consumed hostedText).1 = 0 ∧ Faithful (ascii hostedText) (consumed hostedText).2.request :=
  ⟨by decide +kernel,
    (accepted_request_faithful_iff (fun _ => 0) (received hostedText) (by decide +kernel)).mpr
      (.inl (by decide +kernel))⟩

def strayText : String := "GET / \nX: y HTTP/1.1\r\n\r\n"

/-- A line feed before the version: the rest of the request line is read as a header,
where the lines have none. -/
theorem request_line_read_as_header :
    (consumed strayText).1 = 0 ∧
      (consumed strayText).2.request.headers = [⟨ascii "X", ascii "y HTTP/1.1"⟩] ∧
      headerLines (ascii strayText) = [] ∧
      ¬ Faithful (ascii strayText) (consumed strayText).2.request :=
  ⟨by decide +kernel, by decide +kernel, by decide +kernel,
    fun faithful => absurd faithful.headers (by decide +kernel)⟩

end Boundaries

section Fields

variable (headers : List Header) (name : List UInt8)

/-- The value of the first header of that very name, in any case of its letters. -/
def valueNamed : Option (List UInt8) :=
  (headers.find? fun h => h.name.map toLower = name.map toLower).map Header.value

/-- The first header whose name starts with `name`, in any case of its letters. -/
def firstStarting : Option Header :=
  headers.find? fun h => name.map toLower <+: h.name.map toLower

variable (acc : Nat)

def decimalFrom (digits : List UInt8) : Nat :=
  digits.foldl (fun n b => n * 10 + (b.toNat - 48)) acc

def decimal (digits : List UInt8) : Nat := decimalFrom 0 digits

def contentLength : List UInt8 := ascii "content-length"

def announced : Nat := ((valueNamed headers contentLength).map decimal).getD 0

/-- The body of an accepted request is as long as announced, and a length that is not
all digits is refused. -/
structure BodyLaw (headers : List Header) (code : Int) (body : List UInt8) : Prop where
  length : code = 0 → body.length = announced headers
  digits : ∀ value, valueNamed headers contentLength = some value → ¬ value.all isDigit →
    code = -1

/-- The first header that starts like `name` has that very name, or at least the value
of the first that has. -/
def MetExactly : Prop :=
  ∀ h, firstStarting headers name = some h →
    h.name.length = name.length ∨ valueNamed headers name = some h.value

/-- The first header that starts like `Content-Length` gives no number, or one that is
too large; or it gives the announced length, as far as `room` for it has come, and that
length is all digits. -/
def LengthMet (room : Nat) : Prop :=
  ∀ h, firstStarting headers contentLength = some h →
    h.value.takeWhile isDigit = [] ∨ 65536 < decimal (h.value.takeWhile isDigit) ∨
      (∀ value, valueNamed headers contentLength = some value → value.all isDigit) ∧
        (decimal (h.value.takeWhile isDigit) ≤ room →
          decimal (h.value.takeWhile isDigit) = announced headers)

theorem toLower_ne_zero {b : UInt8} (hb : b ≠ 0) : toLower b ≠ 0 := by
  rw [toLower]
  split
  · rename_i upper
    intro zero
    have hnat := congrArg UInt8.toNat zero
    have hlow := UInt8.le_iff_toNat_le.mp upper.1
    have hhigh := UInt8.le_iff_toNat_le.mp upper.2
    simp at hnat hlow hhigh
    omega
  · exact hb

variable {name : List UInt8} {headers : List Header}

/-- The comparison looks at as many bytes as the wanted name has. -/
theorem ciEqual_iff (text : 0 ∉ name) (a : List UInt8) :
    ciEqual a name name.length = true ↔ name.map toLower <+: a.map toLower := by
  induction name generalizing a with
  | nil => simp [ciEqual]
  | cons b name ih =>
    obtain ⟨hb, text⟩ := not_or.mp (fun h => text (mem_cons.mpr h))
    have lower := toLower_ne_zero (Ne.symm hb)
    cases a with
    | nil =>
      have other : toLower (([] : List UInt8).headD 0) ≠ toLower ((b :: name).headD 0) :=
        fun same => lower same.symm
      rw [length_cons, ciEqual, if_pos other]
      simp
    | cons x a =>
      rw [length_cons, ciEqual, headD_cons, headD_cons, tail_cons,
        tail_cons, map_cons, map_cons, cons_prefix_cons]
      by_cases same : toLower x = toLower b
      · have hx : x ≠ 0 := by
          rintro rfl
          exact lower same.symm
        rw [if_neg (not_not.mpr same), if_neg hx, ih text]
        exact ⟨fun h => ⟨same.symm, h⟩, fun h => h.2⟩
      · rw [if_pos same]
        simp only [Bool.false_eq_true, false_iff, not_and]
        exact fun h => absurd h.symm same

theorem findHeaderValue_eq (text : 0 ∉ name) (headers : List Header) :
    findHeaderValue headers name = (firstStarting headers name).map Header.value := by
  rw [findHeaderValue, firstStarting]
  congr 2
  funext h
  rw [Bool.eq_iff_iff, ciEqual_iff text, decide_eq_true_iff]

theorem valueNamed_of_firstStarting_none (missing : firstStarting headers name = none) :
    valueNamed headers name = none := by
  rw [valueNamed, map_eq_none_iff, find?_eq_none]
  intro h hmem
  have apart := find?_eq_none.mp missing h hmem
  simp only [decide_eq_true_eq] at apart ⊢
  intro same
  exact apart (same ▸ prefix_rfl)

theorem valueNamed_of_exact {h : Header} (first : firstStarting headers name = some h)
    (exact : h.name.length = name.length) : valueNamed headers name = some h.value := by
  obtain ⟨starts, before, behind, rfl, others⟩ := find?_eq_some_iff_append.mp first
  have named : h.name.map toLower = name.map toLower := by
    refine (List.IsPrefix.eq_of_length (of_decide_eq_true starts) ?_).symm
    rw [length_map, length_map, exact]
  have found : (before ++ h :: behind).find? (fun h => h.name.map toLower = name.map toLower) =
      some h := by
    refine find?_eq_some_iff_append.mpr ⟨decide_eq_true named, before, behind, rfl, ?_⟩
    intro g hg
    have apart := others g hg
    simp only [Bool.not_eq_true', decide_eq_false_iff_not] at apart ⊢
    intro same
    exact apart (same ▸ prefix_rfl)
  rw [valueNamed, found, map_some]

theorem findHeaderValue_iff (text : 0 ∉ name) (headers : List Header) :
    findHeaderValue headers name = valueNamed headers name ↔ MetExactly headers name := by
  rw [findHeaderValue_eq text]
  constructor
  · intro same h first
    rw [first, map_some] at same
    exact .inr same.symm
  · intro met
    cases first : firstStarting headers name with
    | none => rw [valueNamed_of_firstStarting_none first, map_none]
    | some h =>
      rcases met h first with exact | value
      · rw [valueNamed_of_exact first exact, map_some]
      · rw [value, map_some]

theorem decimalFrom_nil : decimalFrom acc [] = acc := rfl

theorem decimalFrom_cons (b : UInt8) (digits : List UInt8) :
    decimalFrom acc (b :: digits) = decimalFrom (acc * 10 + (b.toNat - 48)) digits :=
  foldl_cons ..

theorem le_decimalFrom (digits : List UInt8) : acc ≤ decimalFrom acc digits := by
  induction digits generalizing acc with
  | nil => exact le_rfl
  | cons b digits ih =>
    have := ih (acc * 10 + (b.toNat - 48))
    rw [decimalFrom_cons]
    omega

theorem parseDigits_eq {acc : Nat} (small : acc < 2 ^ 32) (value : List UInt8) :
    parseDigits value acc =
      if decimalFrom acc (value.takeWhile isDigit) < 2 ^ 32
      then some (decimalFrom acc (value.takeWhile isDigit)) else none := by
  induction value generalizing acc with
  | nil =>
    rw [takeWhile_nil, decimalFrom_nil, if_pos small]
    rfl
  | cons b value ih =>
    have grows := le_decimalFrom (acc * 10 + (b.toNat - 48)) (value.takeWhile isDigit)
    by_cases digit : isDigit b = true
    · rw [takeWhile_cons_of_pos digit, decimalFrom_cons, parseDigits, if_pos digit]
      by_cases times : 2 ^ 32 ≤ acc * 10
      · rw [if_pos times, if_neg (by omega)]
      · by_cases plus : 2 ^ 32 ≤ acc * 10 + (b.toNat - 48)
        · rw [if_neg times, if_pos plus, if_neg (by omega)]
        · rw [if_neg times, if_neg plus]
          exact ih (by omega)
    · rw [takeWhile_cons_of_neg digit, decimalFrom_nil, if_pos small, parseDigits, if_neg digit]

theorem parseContentLength_eq (value : List UInt8) :
    parseContentLength value =
      if value.takeWhile isDigit ≠ [] ∧ decimal (value.takeWhile isDigit) < 2 ^ 32
      then some (decimal (value.takeWhile isDigit)) else none := by
  rw [parseContentLength]
  cases value with
  | nil => simp [isDigit]
  | cons b value =>
    rw [headD_cons]
    split
    · rename_i digit
      rw [parseDigits_eq (by decide), takeWhile_cons_of_pos digit]
      simp only [ne_eq, reduceCtorEq, not_false_eq_true, true_and]
      rfl
    · rename_i other
      rw [takeWhile_cons_of_neg other]
      simp

theorem contentLength_text : 0 ∉ contentLength := by decide

/-- The part of the parser behind the head keeps the law exactly where it meets the
announced length. -/
theorem finishRequest_bodyLaw_iff {mem : Nat → UInt8} {len total : Nat} {head : Request}
    (empty : head.body = []) (takesBody : head.method = .post ∨ head.method = .put) :
    BodyLaw head.headers (finishRequest mem len total head).1
        (finishRequest mem len total head).2.body ↔
      LengthMet head.headers (len - total) := by
  rw [finishRequest, if_pos takesBody, ← contentLength, findHeaderValue_eq contentLength_text]
  cases first : firstStarting head.headers contentLength with
  | none =>
    have none_named := valueNamed_of_firstStarting_none first
    refine iff_of_true ⟨fun _ => ?_, fun value named => ?_⟩ fun h found => ?_
    · rw [announced, none_named]
      simp [empty]
    · rw [none_named] at named
      cases named
    · rw [first] at found
      cases found
  | some h =>
    simp only [LengthMet, first, some.injEq, forall_eq', map_some]
    rw [parseContentLength_eq]
    generalize h.value.takeWhile isDigit = digits
    by_cases number : digits ≠ [] ∧ decimal digits < 2 ^ 32
    · rw [if_pos number]
      dsimp only
      split
      · rename_i large
        exact iff_of_true ⟨fun h => absurd h (by simp), fun _ _ _ => rfl⟩ (.inr (.inl large))
      · rename_i small
        rw [or_iff_right number.1, or_iff_right small]
        split
        · rename_i fits
          constructor
          · intro law
            refine ⟨fun value named => ?_, fun _ => ?_⟩
            · by_contra odd
              exact absurd (law.digits value named odd) (by simp)
            · have := law.length rfl
              rwa [length_slice] at this
          · rintro ⟨all, same⟩
            refine ⟨fun _ => ?_, fun value named odd => absurd (all value named) odd⟩
            rw [length_slice]
            exact same fits
        · rename_i short
          constructor
          · intro law
            refine ⟨fun value named => ?_, fun fits => absurd fits short⟩
            by_contra odd
            exact absurd (law.digits value named odd) (by simp)
          · rintro ⟨all, _⟩
            exact ⟨fun h => absurd h (by simp), fun value named odd => absurd (all value named) odd⟩
    · rw [if_neg number]
      refine iff_of_true ⟨fun h => absurd h (by simp), fun _ _ _ => rfl⟩ ?_
      by_cases none_read : digits = []
      · exact .inl none_read
      · right
        left
        have : ¬ decimal digits < 2 ^ 32 := fun h => number ⟨none_read, h⟩
        omega

/-- A lookup gives the first header of that very name exactly where it meets one first;
a POST or PUT request whose head is complete keeps the law of its body exactly where the
first header that starts like `Content-Length` announces what the exact one does. Every
accepted request has a complete head. -/
theorem header_lookup_and_body_iff (headers : List Header) {name : List UInt8} (text : 0 ∉ name)
    (stale : Nat → UInt8) (c : ControlConn) :
    (findHeaderValue headers name = valueNamed headers name ↔ MetExactly headers name) ∧
    ((controlHttpParserConsume stale c).1 = 0 → ∃ total head, Heads stale c total head) ∧
    ∀ total head, Heads stale c total head → head.method = .post ∨ head.method = .put →
      (BodyLaw head.headers (controlHttpParserConsume stale c).1
          (controlHttpParserConsume stale c).2.request.body ↔
        LengthMet head.headers (c.readBuf.length - total)) := by
  refine ⟨findHeaderValue_iff text headers, heads_of_accepted, ?_⟩
  intro total head heads takesBody
  rw [heads.consume.1, heads.consume.2]
  exact finishRequest_bodyLaw_iff heads.parsed.body takesBody

def postText : String := "POST /a HTTP/1.1\r\nContent-Length: 2\r\n\r\nok"

def postHead : Request := ⟨.post, ascii "/a", [⟨ascii "Content-Length", ascii "2"⟩], []⟩

theorem postHead_heads : Heads (fun _ => 0) (received postText) 39 postHead where
  state := rfl
  found := by decide +kernel
  parsed := ⟨⟨{ postHead with headers := [] }, by decide +kernel, rfl, rfl⟩,
    ⟨17, by decide +kernel, by decide +kernel⟩, rfl⟩

theorem header_lookup_and_body_post :
    findHeaderValue postHead.headers contentLength = some (ascii "2") ∧
      (consumed postText).1 = 0 ∧
      BodyLaw postHead.headers (consumed postText).1 (consumed postText).2.request.body := by
  obtain ⟨lookup, _, body⟩ := header_lookup_and_body_iff postHead.headers contentLength_text
    (fun _ => 0) (received postText)
  refine ⟨?_, by decide +kernel, ?_⟩
  · rw [lookup.mpr fun h first => .inl ?_]
    · decide +kernel
    · cases first
      decide
  · refine (body 39 postHead postHead_heads (.inl rfl)).mpr ?_
    intro h first
    cases first
    refine .inr (.inr ⟨fun value named => ?_, fun _ => by decide +kernel⟩)
    cases named
    decide

def limitText : String := "POST / HTTP/1.1\r\nContent-Length-Limit: 2\r\n\r\nok"

def mixedText : String := "POST / HTTP/1.1\r\nContent-Length: 2x\r\n\r\nok"

/-- A longer name passes for `Content-Length` and decides the body, and a number with a
letter behind it passes for a number. -/
theorem longer_name_and_mixed_value_accepted :
    (consumed limitText).1 = 0 ∧
      findHeaderValue (consumed limitText).2.request.headers contentLength = some (ascii "2") ∧
      valueNamed (consumed limitText).2.request.headers contentLength = none ∧
      (consumed limitText).2.request.body = ascii "ok" ∧
      (consumed mixedText).1 = 0 ∧
      valueNamed (consumed mixedText).2.request.headers contentLength = some (ascii "2x") ∧
      (ascii "2x").all isDigit = false := by
  decide +kernel

end Fields

end Kith.Control
