import Kith.Lib.Cyclic
import Kith.Control.Conn

/-!
# The request parser of the control plane

The parser scans the read buffer from its start on every call: for the blank
line that ends the headers, for the request line, for the header lines, and for
as many body bytes as `Content-Length` announces. Nothing of an earlier scan is
kept. The buffer is read as memory: behind the `read_pos` bytes of the request
it holds what it held before.
-/

namespace Kith.Control

open List

open Cyclic (slice)

section Memory

/-- The buffer with `data` read into it, over what it held before. -/
def buffer (stale : Nat → UInt8) (data : List UInt8) : Nat → UInt8 := fun i =>
  (data[i]?).getD (stale i)

/-- The first of `n` bytes from `start` on that is `b`. -/
def memchr (mem : Nat → UInt8) (b : UInt8) (start : Nat) : Nat → Option Nat
  | 0 => none
  | n + 1 => if mem start = b then some start else memchr mem b (start + 1) n

def cString (bytes : List UInt8) : List UInt8 := bytes.takeWhile (· ≠ 0)

end Memory

section Parsing

variable (mem : Nat → UInt8)

/-- The loop of `find_header_terminator`; every round leaves fewer bytes. The offset
and the bytes left are `uint32_t`, and so is their comparison. -/
def findHeaderTerminatorFrom : Nat → Nat → Nat → Option Nat
  | 0, _, _ => none
  | fuel + 1, scan, remaining =>
    if remaining < 4 then none
    else
      match memchr mem 13 scan remaining with
      | none => none
      | some cr =>
        if remaining < (cr - scan + 4) % 2 ^ 32 then none
        else if mem (cr + 1) = 10 ∧ mem (cr + 2) = 13 ∧ mem (cr + 3) = 10 then some cr
        else findHeaderTerminatorFrom fuel (cr + 1) (remaining - (cr - scan + 1))

def findHeaderTerminator (len : Nat) : Option Nat := findHeaderTerminatorFrom mem (len + 1) 0 len

def methodOf (name : List UInt8) : Method :=
  if name = ascii "GET" then .get
  else if name = ascii "POST" then .post
  else if name = ascii "PUT" then .put
  else if name = ascii "DELETE" then .delete
  else .unknown

/-- The method is stored before the target is looked for. -/
def parseRequestLine (len : Nat) (req : Request) : Bool × Request :=
  match memchr mem 13 0 len with
  | none => (false, req)
  | some lineEnd =>
    if len ≤ lineEnd + 1 ∨ mem (lineEnd + 1) ≠ 10 then (false, req)
    else
      match memchr mem 32 0 lineEnd with
      | none => (false, req)
      | some sp1 =>
        if 8 ≤ sp1 then (false, req)
        else
          let req := { req with method := methodOf (slice mem 0 sp1) }
          match memchr mem 32 (sp1 + 1) (lineEnd - (sp1 + 1)) with
          | none => (false, req)
          | some sp2 =>
            if 256 ≤ sp2 - (sp1 + 1) then (false, req)
            else (true, { req with path := cString (slice mem (sp1 + 1) (sp2 - (sp1 + 1))) })

def skipSpaces : Nat → Nat → Nat
  | 0, i => i
  | n + 1, i => if mem i = 32 then skipSpaces n (i + 1) else i

/-- The headers parsed so far and the bytes of the scratch arena they take. -/
structure HeaderTable where
  headers : List Header
  used : Nat
  deriving DecidableEq

def headerScratchCap : Nat := 32 * (64 + 256)

/-- One header line; `none` is an exhausted arena. A line without a colon, an
overlong one and one past the last slot are skipped. -/
def headerLine (p lineEnd : Nat) (table : HeaderTable) : Option HeaderTable :=
  if table.headers.length < 32 then
    match memchr mem 58 p (lineEnd - p) with
    | none => some table
    | some colon =>
      let valStart := skipSpaces mem (lineEnd - (colon + 1)) (colon + 1)
      if colon - p < 64 ∧ lineEnd - valStart < 256 then
        let need := colon - p + 1 + (lineEnd - valStart) + 1
        if headerScratchCap < table.used + need then none
        else some ⟨table.headers ++ [⟨cString (slice mem p (colon - p)),
          cString (slice mem valStart (lineEnd - valStart))⟩], table.used + need⟩
      else some table
  else some table

/-- The loop of `parse_headers` up to `stop`: the position behind the blank line, if
it is reached, and the headers met. Every round takes at least two bytes. -/
def parseHeadersFrom (stop : Nat) : Nat → Nat → HeaderTable → Option Nat × List Header
  | 0, _, table => (none, table.headers)
  | fuel + 1, p, table =>
    if stop ≤ p + 1 then (none, table.headers)
    else if mem p = 13 ∧ mem (p + 1) = 10 then (some (p + 2), table.headers)
    else
      match memchr mem 13 p (stop - p) with
      | none => (none, table.headers)
      | some lineEnd =>
        if stop ≤ lineEnd + 1 ∨ mem (lineEnd + 1) ≠ 10 then (none, table.headers)
        else
          match headerLine mem p lineEnd table with
          | none => (none, table.headers)
          | some table => parseHeadersFrom stop fuel (lineEnd + 2) table

def parseHeaders (stop start : Nat) : Option Nat × List Header :=
  parseHeadersFrom mem stop (stop + 1) start ⟨[], 0⟩

def isDigit (b : UInt8) : Bool := 48 ≤ b ∧ b ≤ 57

def parseDigits : List UInt8 → Nat → Option Nat
  | [], result => some result
  | b :: rest, result =>
    if isDigit b then
      if 2 ^ 32 ≤ result * 10 then none
      else if 2 ^ 32 ≤ result * 10 + (b.toNat - 48) then none
      else parseDigits rest (result * 10 + (b.toNat - 48))
    else some result

def parseContentLength (value : List UInt8) : Option Nat :=
  if isDigit (value.headD 0) then parseDigits value 0 else none

/-- The part of the parser behind the headers, which end at `total`. -/
def finishRequest (len total : Nat) (req : Request) : Int × Request :=
  if req.method = .post ∨ req.method = .put then
    match findHeaderValue req.headers (ascii "content-length") with
    | none => (0, req)
    | some value =>
      match parseContentLength value with
      | none => (-1, req)
      | some n =>
        if 65536 < n then (-1, req)
        else if n ≤ len - total then (0, { req with body := slice mem total n })
        else (1, req)
  else (0, req)

/-- The part of the parser behind the search for the blank line. -/
def parseRequest (len : Nat) (req : Request) : Int × Request :=
  match parseRequestLine mem len req with
  | (false, req) => (-1, req)
  | (true, req) =>
    match memchr mem 10 0 len with
    | none => (-1, req)
    | some nl =>
      match parseHeaders mem len (nl + 1) with
      | (none, headers) => (-1, { req with headers := headers })
      | (some total, headers) =>
        finishRequest mem len total { req with headers := headers, body := [] }

end Parsing

def stateAfter (code : Int) : ConnState :=
  if code = 0 then .responding else if code = 1 then .reading else .closing

def controlHttpParserConsume (stale : Nat → UInt8) (c : ControlConn) : Int × ControlConn :=
  if c.state ≠ .reading then (1, c)
  else
    match findHeaderTerminator (buffer stale c.readBuf) c.readBuf.length with
    | none =>
      if c.readCap ≤ c.readBuf.length then (-1, { c with state := .closing }) else (1, c)
    | some _ =>
      let (code, request) := parseRequest (buffer stale c.readBuf) c.readBuf.length c.request
      (code, { c with state := stateAfter code, request := request })

section Locality

variable {mem mem' : Nat → UInt8} {b : UInt8} {start n i : Nat}

theorem memchr_eq_some_iff : memchr mem b start n = some i ↔
    start ≤ i ∧ i < start + n ∧ mem i = b ∧ ∀ j, start ≤ j → j < i → mem j ≠ b := by
  induction n generalizing start with
  | zero =>
    constructor
    · intro h
      cases h
    · rintro ⟨h, h', _⟩
      omega
  | succ n ih =>
    rw [memchr]
    split
    · rename_i hb
      rw [Option.some.injEq]
      constructor
      · rintro rfl
        exact ⟨le_rfl, by omega, hb, fun j hj hlt => by omega⟩
      · rintro ⟨hle, _, _, before⟩
        by_contra hne
        exact before start le_rfl (by omega) hb
    · rename_i hb
      rw [ih]
      constructor
      · rintro ⟨hle, hlt, hi, before⟩
        refine ⟨by omega, by omega, hi, ?_⟩
        intro j hj hji
        by_cases hjs : j = start
        · exact hjs ▸ hb
        · exact before j (by omega) hji
      · rintro ⟨hle, hlt, hi, before⟩
        have hne : i ≠ start := by
          rintro rfl
          exact hb hi
        exact ⟨by omega, by omega, hi, fun j hj hji => before j (by omega) hji⟩

theorem memchr_congr (same : ∀ j, start ≤ j → j < start + n → mem j = mem' j) :
    memchr mem b start n = memchr mem' b start n := by
  induction n generalizing start with
  | zero => rfl
  | succ n ih =>
    rw [memchr, memchr, same start le_rfl (by omega),
      ih fun j hj hlt => same j (by omega) (by omega)]

theorem memchr_le (hb : mem i = b) (hs : start ≤ i) (hi : i < start + n) :
    ∃ j ≤ i, memchr mem b start n = some j := by
  induction n generalizing start with
  | zero => omega
  | succ n ih =>
    rw [memchr]
    split
    · exact ⟨start, hs, rfl⟩
    · rename_i other
      have hne : start ≠ i := by
        rintro rfl
        exact other hb
      exact ih (by omega) (by omega)

/-- Where a byte stands, a search that covers it ends at the latest, whatever the memory
holds behind it. -/
theorem memchr_of_mem (hb : mem i = b) (hs : start ≤ i) :
    ∃ j, start ≤ j ∧ j ≤ i ∧ mem j = b ∧ ∀ mem' m, (∀ k ≤ i, mem k = mem' k) → i < start + m →
      memchr mem' b start m = some j := by
  obtain ⟨j, hle, found⟩ := memchr_le (n := i + 1 - start) hb hs (by omega)
  have hfacts := memchr_eq_some_iff.mp found
  refine ⟨j, hfacts.1, hle, hfacts.2.2.1, fun mem' m same hm => ?_⟩
  rw [memchr_congr fun k _ hk => same k (by omega)] at found
  rw [memchr_eq_some_iff] at found ⊢
  exact ⟨found.1, by omega, found.2.2⟩

theorem slice_congr {len : Nat} (same : ∀ j, start ≤ j → j < start + len → mem j = mem' j) :
    slice mem start len = slice mem' start len := by
  apply map_congr_left
  intro j hj
  have hlt := mem_range.mp hj
  exact same (start + j) (by omega) (by omega)

theorem skipSpaces_congr (same : ∀ j, start ≤ j → j < start + n → mem j = mem' j) :
    skipSpaces mem n start = skipSpaces mem' n start := by
  induction n generalizing start with
  | zero => rfl
  | succ n ih =>
    rw [skipSpaces, skipSpaces, same start le_rfl (by omega),
      ih fun j hj hlt => same j (by omega) (by omega)]

theorem headerLine_congr {p lineEnd : Nat} (same : ∀ j < lineEnd, mem j = mem' j)
    (table : HeaderTable) : headerLine mem p lineEnd table = headerLine mem' p lineEnd table := by
  rw [headerLine, headerLine]
  by_cases hp : p ≤ lineEnd
  · have hcolon : memchr mem 58 p (lineEnd - p) = memchr mem' 58 p (lineEnd - p) :=
      memchr_congr fun j _ hlt => same j (by omega)
    rw [hcolon]
    cases hc : memchr mem' 58 p (lineEnd - p) with
    | none => rfl
    | some colon =>
      obtain ⟨hle, hlt, _⟩ := memchr_eq_some_iff.mp hc
      have hskip : skipSpaces mem (lineEnd - (colon + 1)) (colon + 1) =
          skipSpaces mem' (lineEnd - (colon + 1)) (colon + 1) :=
        skipSpaces_congr fun j _ hj => same j (by omega)
      have hname : slice mem p (colon - p) = slice mem' p (colon - p) :=
        slice_congr fun j _ hj => same j (by omega)
      dsimp only
      rw [hskip, hname]
      have hvalue : ∀ v, slice mem v (lineEnd - v) = slice mem' v (lineEnd - v) := by
        intro v
        exact slice_congr fun j _ hj => same j (by omega)
      rw [hvalue]
  · have hzero : lineEnd - p = 0 := by omega
    rw [hzero, memchr, memchr]

end Locality

section Deciding

variable {mem mem' : Nat → UInt8} {t len len' : Nat}

/-- The blank line stands at `t`. -/
def Terminated (mem : Nat → UInt8) (t : Nat) : Prop :=
  mem t = 13 ∧ mem (t + 1) = 10 ∧ mem (t + 2) = 13 ∧ mem (t + 3) = 10

theorem Terminated.congr (ended : Terminated mem t) (same : ∀ j < t + 4, mem j = mem' j) :
    Terminated mem' t := by
  obtain ⟨h0, h1, h2, h3⟩ := ended
  exact ⟨same t (by omega) ▸ h0, same (t + 1) (by omega) ▸ h1, same (t + 2) (by omega) ▸ h2,
    same (t + 3) (by omega) ▸ h3⟩

theorem findHeaderTerminatorFrom_complete (ended : Terminated mem t) {fuel scan remaining : Nat}
    (hscan : scan ≤ t) (hend : t + 4 ≤ scan + remaining) (hfuel : remaining < fuel) :
    ∃ t', findHeaderTerminatorFrom mem fuel scan remaining = some t' := by
  induction fuel generalizing scan remaining with
  | zero => omega
  | succ fuel ih =>
    obtain ⟨cr, hle, hcr, _, found⟩ := memchr_of_mem ended.1 hscan
    rw [findHeaderTerminatorFrom, if_neg (by omega),
      found mem remaining (fun _ _ => rfl) (by omega)]
    dsimp only
    rw [if_neg (by omega)]
    split
    · exact ⟨cr, rfl⟩
    · rename_i other
      have hne : cr ≠ t := by
        rintro rfl
        exact other ended.2
      exact ih (by omega) (by omega) (by omega)

/-- What is found is a blank line within the bytes read, unless the 32-bit sum of the
offset and 4 wrapped. -/
theorem findHeaderTerminatorFrom_sound {fuel scan remaining t' : Nat}
    (found : findHeaderTerminatorFrom mem fuel scan remaining = some t') :
    (∃ t, Terminated mem t ∧ t + 4 ≤ scan + remaining) ∨
      ∃ scan' cr, scan ≤ scan' ∧ scan' + (2 ^ 32 - 4) ≤ cr ∧ cr < scan + remaining ∧
        mem cr = 13 ∧ ∀ j, scan' ≤ j → j < cr → mem j ≠ 13 := by
  induction fuel generalizing scan remaining with
  | zero => cases found
  | succ fuel ih =>
    rw [findHeaderTerminatorFrom] at found
    split at found
    · cases found
    · cases hcr : memchr mem 13 scan remaining with
      | none =>
        rw [hcr] at found
        cases found
      | some cr =>
        obtain ⟨hle, hlt, hbyte, before⟩ := memchr_eq_some_iff.mp hcr
        rw [hcr] at found
        dsimp only at found
        split at found
        · cases found
        · by_cases hwrap : cr - scan + 4 < 2 ^ 32
          · split at found
            · rename_i rest
              exact .inl ⟨cr, ⟨hbyte, rest⟩, by omega⟩
            · rcases ih found with ⟨t, ended, hend⟩ | ⟨scan', cr', hs, hfar, hend, rest⟩
              · exact .inl ⟨t, ended, by omega⟩
              · exact .inr ⟨scan', cr', by omega, hfar, by omega, rest⟩
          · exact .inr ⟨scan, cr, le_rfl, by omega, hlt, hbyte, before⟩

theorem finishRequest_congr {total : Nat} (htotal : total ≤ len) (hle : len ≤ len')
    (agree : ∀ j < len, mem j = mem' j) (req : Request)
    (decided : (finishRequest mem len total req).1 ≠ 1) :
    (finishRequest mem' len' total req).1 = (finishRequest mem len total req).1 ∧
      ((finishRequest mem len total req).1 = 0 →
        (finishRequest mem' len' total req).2 = (finishRequest mem len total req).2) := by
  rw [finishRequest] at decided
  rw [finishRequest, finishRequest]
  split
  · rename_i hbody
    rw [if_pos hbody] at decided
    cases hvalue : findHeaderValue req.headers (ascii "content-length") with
    | none => exact ⟨rfl, fun _ => rfl⟩
    | some value =>
      rw [hvalue] at decided
      dsimp only at decided ⊢
      cases hn : parseContentLength value with
      | none => exact ⟨rfl, fun _ => rfl⟩
      | some n =>
        rw [hn] at decided
        dsimp only at decided ⊢
        split
        · exact ⟨rfl, fun _ => rfl⟩
        · rename_i hmax
          rw [if_neg hmax] at decided
          by_cases hfit : n ≤ len - total
          · rw [if_pos hfit, if_pos (by omega)]
            refine ⟨rfl, fun _ => ?_⟩
            rw [slice_congr fun j _ hj => agree j (by omega)]
          · rw [if_neg hfit] at decided
            exact absurd rfl decided
  · exact ⟨rfl, fun _ => rfl⟩

/-- The head of a request: the request line, and the headers up to `total`. -/
structure Head (mem : Nat → UInt8) (len : Nat) (req : Request) (total : Nat) (head : Request) :
    Prop where
  line : ∃ r, parseRequestLine mem len req = (true, r) ∧ head.method = r.method ∧ head.path = r.path
  headers : ∃ nl, memchr mem 10 0 len = some nl ∧
    parseHeaders mem len (nl + 1) = (some total, head.headers)
  body : head.body = []

theorem parseRequest_cases (mem : Nat → UInt8) (len : Nat) (req : Request) :
    (parseRequest mem len req).1 = -1 ∨ ∃ total head, Head mem len req total head := by
  rw [parseRequest]
  rcases hline : parseRequestLine mem len req with ⟨_ | _, r⟩
  · exact .inl rfl
  · cases hnl : memchr mem 10 0 len with
    | none => exact .inl rfl
    | some nl =>
      dsimp only
      rcases hheaders : parseHeaders mem len (nl + 1) with ⟨_ | total, headers⟩
      · exact .inl rfl
      · exact .inr ⟨total, { r with headers := headers, body := [] },
          ⟨r, hline, rfl, rfl⟩, ⟨nl, hnl, hheaders⟩, rfl⟩

section Rounds

variable {stop fuel p total e sp1 sp2 : Nat} {table : HeaderTable} {headers : List Header}
    {req r head : Request}

theorem Head.parse (parsed : Head mem len req total head) :
    parseRequest mem len req = finishRequest mem len total head := by
  obtain ⟨⟨r, hline, hmethod, hpath⟩, ⟨nl, hnl, hheaders⟩, hbody⟩ := parsed
  have same : head = { r with headers := head.headers, body := [] } := by
    rw [← hbody, ← hmethod, ← hpath]
  rw [parseRequest, hline]
  rw [hnl]
  dsimp only
  rw [hheaders]
  dsimp only
  rw [← same]

/-- The request line ends at `e`, and its first two blanks stand at `sp1` and `sp2`. -/
structure LineAt (mem : Nat → UInt8) (len e sp1 sp2 : Nat) : Prop where
  ends : memchr mem 13 0 len = some e
  closed : e + 1 < len
  feed : mem (e + 1) = 10
  first : memchr mem 32 0 e = some sp1
  short : sp1 < 8
  second : memchr mem 32 (sp1 + 1) (e - (sp1 + 1)) = some sp2
  fits : sp2 - (sp1 + 1) < 256

theorem LineAt.parse (line : LineAt mem len e sp1 sp2) (req : Request) :
    parseRequestLine mem len req = (true, { req with
      method := methodOf (slice mem 0 sp1)
      path := cString (slice mem (sp1 + 1) (sp2 - (sp1 + 1))) }) := by
  obtain ⟨ends, closed, feed, first, short, second, fits⟩ := line
  rw [parseRequestLine, ends]
  dsimp only
  rw [if_neg (not_or.mpr ⟨by omega, not_not.mpr feed⟩), first]
  dsimp only
  rw [if_neg (by omega), second]
  dsimp only
  rw [if_neg (by omega)]

theorem lineAt_of_parsed (done : parseRequestLine mem len req = (true, r)) :
    ∃ e sp1 sp2, LineAt mem len e sp1 sp2 := by
  rw [parseRequestLine] at done
  split at done
  · cases done
  · rename_i e ends
    split at done
    · cases done
    · rename_i inside
      obtain ⟨closed, feed⟩ := not_or.mp inside
      split at done
      · cases done
      · rename_i sp1 first
        split at done
        · cases done
        · rename_i short
          split at done
          · cases done
          · rename_i sp2 second
            split at done
            · cases done
            · rename_i fits
              exact ⟨e, sp1, sp2, ends, by omega, not_not.mp feed, first, by omega,
                second, by omega⟩

/-- A run of the loop of `parse_headers` that reaches the blank line. -/
inductive HeaderRun (mem : Nat → UInt8) (stop : Nat) : Nat → HeaderTable → Nat → List Header → Prop
  | blank {p : Nat} {table : HeaderTable} (inside : p + 1 < stop)
      (blank : mem p = 13 ∧ mem (p + 1) = 10) : HeaderRun mem stop p table (p + 2) table.headers
  | line {p e total : Nat} {table table' : HeaderTable} {headers : List Header}
      (text : ¬ (mem p = 13 ∧ mem (p + 1) = 10)) (found : memchr mem 13 p (stop - p) = some e)
      (closed : e + 1 < stop) (feed : mem (e + 1) = 10)
      (stored : headerLine mem p e table = some table')
      (rest : HeaderRun mem stop (e + 2) table' total headers) :
      HeaderRun mem stop p table total headers

theorem HeaderRun.parse (run : HeaderRun mem stop p table total headers)
    (enough : stop < p + fuel) :
    parseHeadersFrom mem stop fuel p table = (some total, headers) := by
  induction run generalizing fuel with
  | blank inside blank =>
    obtain ⟨n, rfl⟩ : ∃ n, fuel = n + 1 := ⟨fuel - 1, by omega⟩
    rw [parseHeadersFrom, if_neg (by omega), if_pos blank]
  | line text found closed feed stored rest ih =>
    obtain ⟨hle, _⟩ := memchr_eq_some_iff.mp found
    obtain ⟨n, rfl⟩ : ∃ n, fuel = n + 1 := ⟨fuel - 1, by omega⟩
    rw [parseHeadersFrom, if_neg (by omega), if_neg text, found]
    dsimp only
    rw [if_neg (not_or.mpr ⟨by omega, not_not.mpr feed⟩), stored]
    exact ih (by omega)

theorem headerRun_of_parsed
    (done : parseHeadersFrom mem stop fuel p table = (some total, headers)) :
    HeaderRun mem stop p table total headers := by
  induction fuel generalizing p table with
  | zero => cases done
  | succ fuel ih =>
    rw [parseHeadersFrom] at done
    split at done
    · cases done
    · split at done
      · rename_i blank
        cases done
        exact .blank (by omega) blank
      · rename_i text
        split at done
        · cases done
        · rename_i e found
          split at done
          · cases done
          · rename_i inside
            obtain ⟨closed, feed⟩ := not_or.mp inside
            split at done
            · cases done
            · rename_i table' stored
              exact .line text found (by omega) (not_not.mp feed) stored (ih done)

end Rounds

section Extension

variable (ended : Terminated mem t) (same : ∀ j < t + 4, mem j = mem' j) (hlen : t + 4 ≤ len)
  (hlen' : t + 4 ≤ len') {p total e sp1 sp2 : Nat} {table : HeaderTable} {headers : List Header}
  {req head : Request}
include ended same hlen hlen'

/-- The lines before the blank one are the same in any other buffer that holds them. -/
theorem HeaderRun.extend (run : HeaderRun mem len p table total headers) (hp : p ≤ t ∨ p = t + 2) :
    HeaderRun mem' len' p table total headers ∧ total ≤ t + 4 := by
  induction run with
  | blank inside blank =>
    exact ⟨.blank (by omega) (by rwa [← same _ (by omega), ← same _ (by omega)]), by omega⟩
  | @line p e _ _ _ _ text found closed feed stored rest ih =>
    have hpt : p ≤ t := by
      rcases hp with h | rfl
      · exact h
      · exact absurd ended.2.2 text
    obtain ⟨e', hpe, het, _, near⟩ := memchr_of_mem ended.1 hpt
    obtain rfl : e' = e :=
      Option.some.inj ((near mem _ (fun _ _ => rfl) (by omega)).symm.trans found)
    have hnext : e' + 1 ≠ t := by
      rintro rfl
      exact absurd (feed.symm.trans ended.1) (by decide)
    obtain ⟨later, bound⟩ := ih (by omega)
    refine ⟨.line (by rwa [← same p (by omega), ← same (p + 1) (by omega)])
      (near mem' _ (fun k hk => same k (by omega)) (by omega)) (by omega)
      (by rwa [← same _ (by omega)]) ?_ later, bound⟩
    rwa [← headerLine_congr fun j hj => same j (by omega)]

theorem LineAt.extend (line : LineAt mem len e sp1 sp2) : LineAt mem' len' e sp1 sp2 ∧
    slice mem' 0 sp1 = slice mem 0 sp1 ∧
    slice mem' (sp1 + 1) (sp2 - (sp1 + 1)) = slice mem (sp1 + 1) (sp2 - (sp1 + 1)) := by
  obtain ⟨ends, closed, feed, first, short, second, fits⟩ := line
  obtain ⟨e', _, het, _, near⟩ := memchr_of_mem ended.1 (Nat.zero_le t)
  obtain rfl : e' = e := Option.some.inj ((near mem _ (fun _ _ => rfl) (by omega)).symm.trans ends)
  obtain ⟨_, hsp1, _⟩ := memchr_eq_some_iff.mp first
  obtain ⟨_, hsp2, _⟩ := memchr_eq_some_iff.mp second
  refine ⟨⟨near mem' _ (fun k hk => same k (by omega)) (by omega), by omega, ?_, ?_, short, ?_,
    fits⟩, slice_congr fun j _ hj => (same j (by omega)).symm,
    slice_congr fun j _ hj => (same j (by omega)).symm⟩
  · rwa [← same _ (by omega)]
  · rwa [← memchr_congr fun j _ hj => same j (by omega)]
  · rwa [← memchr_congr fun j _ hj => same j (by omega)]

theorem Head.extend (parsed : Head mem len req total head) (req' : Request) :
    Head mem' len' req' total head ∧ total ≤ t + 4 := by
  obtain ⟨⟨r, hline, hmethod, hpath⟩, ⟨nl, hnl, hheaders⟩, body⟩ := parsed
  obtain ⟨e, sp1, sp2, line⟩ := lineAt_of_parsed hline
  obtain ⟨line', name, path⟩ := line.extend ended same hlen hlen'
  obtain rfl := congrArg Prod.snd ((line.parse req).symm.trans hline)
  obtain ⟨nl', _, hle, hbyte, near⟩ := memchr_of_mem ended.2.1 (Nat.zero_le (t + 1))
  obtain rfl : nl' = nl :=
    Option.some.inj ((near mem _ (fun _ _ => rfl) (by omega)).symm.trans hnl)
  have hne : nl' ≠ t := by
    rintro rfl
    exact absurd (hbyte.symm.trans ended.1) (by decide)
  obtain ⟨run, bound⟩ := (headerRun_of_parsed hheaders).extend ended same hlen hlen' (by omega)
  refine ⟨⟨⟨_, line'.parse req', ?_, ?_⟩,
    ⟨nl', near mem' _ (fun k hk => same k (by omega)) (by omega),
    run.parse (by omega)⟩, body⟩, bound⟩
  · rw [name, hmethod]
  · rw [path, hpath]

/-- The result on some bytes that hold the blank line, unless it asks for more, is the
result on those bytes and any that follow. -/
theorem parseRequest_congr (hle : len ≤ len') (agree : ∀ j < len, mem j = mem' j)
    (req req' : Request) (decided : (parseRequest mem len req).1 ≠ 1) :
    (parseRequest mem' len' req').1 = (parseRequest mem len req).1 ∧
      ((parseRequest mem len req).1 = 0 →
        (parseRequest mem' len' req').2 = (parseRequest mem len req).2) := by
  rcases parseRequest_cases mem len req with refused | ⟨total, head, parsed⟩
  · rcases parseRequest_cases mem' len' req' with refused' | ⟨total, head, parsed'⟩
    · rw [refused, refused']
      exact ⟨rfl, fun accepted => absurd accepted (by decide)⟩
    · obtain ⟨parsed, bound⟩ :=
        parsed'.extend (ended.congr same) (fun j hj => (same j hj).symm) hlen' hlen req
      rw [parsed.parse] at decided ⊢
      rw [parsed'.parse]
      exact finishRequest_congr (by omega) hle agree head decided
  · obtain ⟨parsed', bound⟩ := parsed.extend ended same hlen hlen' req'
    rw [parsed.parse] at decided ⊢
    rw [parsed'.parse]
    exact finishRequest_congr (by omega) hle agree head decided

end Extension

end Deciding

section Segmentation

/-- A connection in state READING that holds exactly `data`. -/
structure Holding (readCap : Nat) (data : List UInt8) (c : ControlConn) : Prop where
  state : c.state = .reading
  cap : c.readCap = readCap
  bytes : c.readBuf = data

/-- The shortest deciding bytes of `s` decide what every longer part of `s` gives,
whatever the buffers hold behind the bytes read. -/
def SegmentationFree (readCap : Nat) (s : List UInt8) : Prop :=
  ∀ d e, d <+: e → e <+: s → d.length < e.length →
    ∀ stale c, Holding readCap d c → (controlHttpParserConsume stale c).1 ≠ 1 →
      (∀ p, p <+: d → p.length < d.length →
        ∀ stale c, Holding readCap p c → (controlHttpParserConsume stale c).1 = 1) →
      ∀ stale' c', Holding readCap e c' →
        (controlHttpParserConsume stale' c').1 = (controlHttpParserConsume stale c).1 ∧
        ((controlHttpParserConsume stale c).1 = 0 →
          (controlHttpParserConsume stale' c').2.request =
            (controlHttpParserConsume stale c).2.request)

/-- The first CR is the last byte but one of a string that fills all but one byte of the
largest buffer: the CR's offset and 4 add up to 0 in 32 bits. -/
def Wraps (s : List UInt8) : Prop := s.length = 2 ^ 32 - 2 ∧ s.findIdx (· = 13) = 2 ^ 32 - 4

variable {readCap : Nat} {s d e : List UInt8} {c : ControlConn} {stale : Nat → UInt8}
    {p : List UInt8}

theorem buffer_of_lt {i : Nat} (hi : i < d.length) : buffer stale d i = d[i] := by
  simp [buffer, hi]

theorem buffer_agree (stale stale' : Nat → UInt8) (hde : d <+: e) :
    ∀ j < d.length, buffer stale d j = buffer stale' e j := by
  intro j hj
  rw [buffer_of_lt hj, buffer_of_lt (by have := hde.length_le; omega)]
  exact hde.getElem hj

theorem consume_of_found (holding : Holding readCap d c) {t : Nat}
    (found : findHeaderTerminator (buffer stale d) d.length = some t) :
    (controlHttpParserConsume stale c).1 = (parseRequest (buffer stale d) d.length c.request).1 ∧
      (controlHttpParserConsume stale c).2.request =
        (parseRequest (buffer stale d) d.length c.request).2 := by
  obtain ⟨hstate, _, rfl⟩ := holding
  rw [controlHttpParserConsume, if_neg (not_not.mpr hstate), found]
  exact ⟨rfl, rfl⟩

theorem consume_of_not_found (holding : Holding readCap d c) (hcap : d.length < readCap)
    (missing : findHeaderTerminator (buffer stale d) d.length = none) :
    (controlHttpParserConsume stale c).1 = 1 := by
  obtain ⟨hstate, rfl, rfl⟩ := holding
  rw [controlHttpParserConsume, if_neg (not_not.mpr hstate), missing]
  rw [if_neg (by omega)]

theorem consume_stable (hde : d <+: e) {stale' : Nat → UInt8} {c' : ControlConn}
    (holding : Holding readCap d c) (holding' : Holding readCap e c') {t t' : Nat}
    (found : findHeaderTerminator (buffer stale d) d.length = some t')
    (ended : Terminated (buffer stale d) t) (hend : t + 4 ≤ d.length)
    (decided : (controlHttpParserConsume stale c).1 ≠ 1) :
    (controlHttpParserConsume stale' c').1 = (controlHttpParserConsume stale c).1 ∧
      ((controlHttpParserConsume stale c).1 = 0 →
        (controlHttpParserConsume stale' c').2.request =
          (controlHttpParserConsume stale c).2.request) := by
  have hle := hde.length_le
  have agree := buffer_agree stale stale' hde
  have same : ∀ j < t + 4, buffer stale d j = buffer stale' e j := fun j hj => agree j (by omega)
  obtain ⟨t'', found'⟩ : ∃ t'', findHeaderTerminator (buffer stale' e) e.length = some t'' :=
    findHeaderTerminatorFrom_complete (ended.congr same) (Nat.zero_le t) (by omega) (by omega)
  obtain ⟨hcode, hrequest⟩ := consume_of_found holding found
  obtain ⟨hcode', hrequest'⟩ := consume_of_found holding' found'
  rw [hcode] at decided
  rw [hcode, hrequest, hcode', hrequest']
  exact parseRequest_congr ended same hend (hend.trans hle) hle agree c.request c'.request decided

/-- A sum that wraps while bytes are still to come is the one of `Wraps`. -/
theorem wraps_of_far (hs : s.length < 2 ^ 32 - 1) (hes : e <+: s) (hde : d <+: e)
    (hlt : d.length < e.length) {scan cr : Nat} (hfar : scan + (2 ^ 32 - 4) ≤ cr)
    (hcr : cr < d.length) (hbyte : buffer stale d cr = 13)
    (before : ∀ j, scan ≤ j → j < cr → buffer stale d j ≠ 13) : Wraps s := by
  have hle := hes.length_le
  have hpos : cr = 2 ^ 32 - 4 := by omega
  have hread : ∀ j, (hj : j < d.length) → buffer stale d j = s[j] := by
    intro j hj
    rw [buffer_of_lt hj]
    exact (hde.trans hes).getElem hj
  refine ⟨by omega, ?_⟩
  rw [← hpos, findIdx_eq (by omega)]
  refine ⟨?_, ?_⟩
  · simpa [hread cr hcr] using hbyte
  · intro j hj
    simpa [hread j (by omega)] using before j (by omega) hj

theorem segmentationFree_of_not_wraps (hcap : readCap < 2 ^ 32) (hs : s.length < readCap)
    (fits : ¬ Wraps s) : SegmentationFree readCap s := by
  intro d e hde hes hlt stale c holding decided _ stale' c' holding'
  have hle := hes.length_le
  cases found : findHeaderTerminator (buffer stale d) d.length with
  | none => exact absurd (consume_of_not_found holding (by omega) found) decided
  | some t' =>
    rcases findHeaderTerminatorFrom_sound found with ⟨t, ended, hend⟩ |
      ⟨scan, cr, _, hfar, hcr, hbyte, before⟩
    · exact consume_stable hde holding holding' found ended (by omega) decided
    · exact absurd (wraps_of_far (by omega) hes hde hlt hfar (by omega) hbyte before) fits

/-- Bytes without a CR ask for more. -/
theorem consume_of_no_cr (holding : Holding readCap d c) (hcap : d.length < readCap)
    (plain : ∀ j < d.length, buffer stale d j ≠ 13) : (controlHttpParserConsume stale c).1 = 1 := by
  apply consume_of_not_found holding hcap
  cases found : findHeaderTerminator (buffer stale d) d.length with
  | none => rfl
  | some t' =>
    rcases findHeaderTerminatorFrom_sound found with ⟨t, ended, hend⟩ | ⟨_, cr, _, _, hcr, hbyte, _⟩
    · exact absurd ended.1 (plain t (by omega))
    · exact absurd hbyte (plain cr (by omega))

theorem findHeaderTerminator_wrapped {mem : Nat → UInt8} {len : Nat} (hlen : 2 ^ 32 - 4 < len)
    (hmax : len < 2 ^ 32 - 1) (hbyte : mem (2 ^ 32 - 4) = 13)
    (before : ∀ j < 2 ^ 32 - 4, mem j ≠ 13) :
    findHeaderTerminator mem len =
      if mem (2 ^ 32 - 4 + 1) = 10 ∧ mem (2 ^ 32 - 4 + 2) = 13 ∧ mem (2 ^ 32 - 4 + 3) = 10
      then some (2 ^ 32 - 4) else none := by
  have found : memchr mem 13 0 len = some (2 ^ 32 - 4) :=
    memchr_eq_some_iff.mpr ⟨Nat.zero_le _, by omega, hbyte, fun j _ hj => before j hj⟩
  have hrest : ∀ fuel, findHeaderTerminatorFrom mem fuel (2 ^ 32 - 4 + 1)
      (len - (2 ^ 32 - 4 - 0 + 1)) = none := by
    intro fuel
    cases fuel with
    | zero => rfl
    | succ fuel => rw [findHeaderTerminatorFrom, if_pos (by omega)]
  rw [findHeaderTerminator, findHeaderTerminatorFrom, if_neg (by omega), found]
  dsimp only
  rw [if_neg (by omega), hrest]

theorem Wraps.buffer_ne (wraps : Wraps s) (hp : p <+: s) (stale : Nat → UInt8) {j : Nat}
    (hj : j < p.length) (hfirst : j < 2 ^ 32 - 4) : buffer stale p j ≠ 13 := by
  have hbound := wraps.1
  obtain ⟨_, hbefore⟩ := (findIdx_eq (by omega)).mp wraps.2
  rw [buffer_of_lt hj, hp.getElem hj]
  simpa using hbefore j hfirst

theorem Wraps.buffer_eq (wraps : Wraps s) (hp : p <+: s) (stale : Nat → UInt8)
    (hlen : 2 ^ 32 - 4 < p.length) : buffer stale p (2 ^ 32 - 4) = 13 := by
  have hle := hp.length_le
  obtain ⟨hcr, _⟩ := (findIdx_eq (by omega)).mp wraps.2
  rw [buffer_of_lt hlen, hp.getElem hlen]
  simpa using hcr

/-- The bytes up to the wrapping CR are refused when the buffer holds the rest of a
blank line behind them; with one more byte and a blank buffer the parser asks for more. -/
theorem not_segmentationFree_of_wraps (hs : s.length < readCap)
    (wraps : Wraps s) : ¬ SegmentationFree readCap s := by
  have hlen := wraps.1
  have hd : (s.take (2 ^ 32 - 3)).length = 2 ^ 32 - 3 := by
    rw [length_take]
    omega
  have hpre : s.take (2 ^ 32 - 3) <+: s := take_prefix _ s
  generalize s.take (2 ^ 32 - 3) = d at hd hpre
  intro free
  let rest : Nat → UInt8 := fun i => if i = 2 ^ 32 - 4 + 2 then 13 else 10
  have holding : Holding readCap d { ControlConn.zero with readCap := readCap, readBuf := d } :=
    ⟨rfl, rfl, rfl⟩
  have holding' : Holding readCap s { ControlConn.zero with readCap := readCap, readBuf := s } :=
    ⟨rfl, rfl, rfl⟩
  have behind : ∀ i, d.length ≤ i → buffer rest d i = rest i := by
    intro i hi
    simp [buffer, hi]
  have found : findHeaderTerminator (buffer rest d) d.length = some (2 ^ 32 - 4) := by
    rw [findHeaderTerminator_wrapped (by omega) (by omega) (wraps.buffer_eq hpre rest (by omega))
      (fun j hj => wraps.buffer_ne hpre rest (by omega) hj), behind _ (by omega),
      behind _ (by omega), behind _ (by omega)]
    decide
  have refused : (controlHttpParserConsume rest
      { ControlConn.zero with readCap := readCap, readBuf := d }).1 = -1 := by
    have hline : memchr (buffer rest d) 13 0 d.length = some (2 ^ 32 - 4) :=
      memchr_eq_some_iff.mpr ⟨Nat.zero_le _, by omega, wraps.buffer_eq hpre rest (by omega),
        fun j _ hj => wraps.buffer_ne hpre rest (by omega) hj⟩
    rw [(consume_of_found holding found).1, parseRequest, parseRequestLine, hline]
    dsimp only
    rw [if_pos (.inl (by omega))]
  have asked : (controlHttpParserConsume (fun _ => 0)
      { ControlConn.zero with readCap := readCap, readBuf := s }).1 = 1 := by
    apply consume_of_not_found holding' hs
    rw [findHeaderTerminator_wrapped (by omega) (by omega) (wraps.buffer_eq prefix_rfl _ (by omega))
      (fun j hj => wraps.buffer_ne prefix_rfl _ (by omega) hj)]
    have hblank : buffer (fun _ => 0) s (2 ^ 32 - 4 + 2) = 0 := by
      simp [buffer, hlen]
    rw [hblank]
    simp
  have same := (free d s hpre prefix_rfl (by omega) rest _ holding (by rw [refused]; decide)
    (fun p hp hlt stale c holding => consume_of_no_cr holding (by omega)
      fun j hj => wraps.buffer_ne (hp.trans hpre) stale hj (by omega)) (fun _ => 0) _ holding').1
  rw [refused, asked] at same
  exact absurd same (by decide)

theorem segmentationFree_iff (hcap : readCap < 2 ^ 32) (hs : s.length < readCap) :
    SegmentationFree readCap s ↔ ¬ Wraps s := by
  constructor
  · intro free wraps
    exact not_segmentationFree_of_wraps hs wraps free
  · exact segmentationFree_of_not_wraps hcap hs

theorem segmentationFree_iff_short :
    SegmentationFree 8192 (ascii "GET / HTTP/1.1\r\n\r\n") ↔
      ¬ Wraps (ascii "GET / HTTP/1.1\r\n\r\n") :=
  segmentationFree_iff (by decide) (by decide)

/-- A CR behind `n` other bytes, and one byte behind it. -/
def lateReturn (n : Nat) : List UInt8 := List.replicate n 120 ++ [13, 120]

theorem lateReturn_length (n : Nat) : (lateReturn n).length = n + 2 := by
  simp [lateReturn]

theorem lateReturn_findIdx (n : Nat) : (lateReturn n).findIdx (· = 13) = n := by
  rw [findIdx_eq (by rw [lateReturn_length]; omega)]
  refine ⟨?_, ?_⟩
  · simp [lateReturn]
  · intro j hj
    simp [lateReturn, hj]

theorem lateReturn_breaks {n : Nat} (hn : n = 2 ^ 32 - 4) :
    (lateReturn n).length < 2 ^ 32 - 1 ∧ ¬ SegmentationFree (2 ^ 32 - 1) (lateReturn n) := by
  have hlen := lateReturn_length n
  have wraps : Wraps (lateReturn n) := ⟨by omega, by rw [lateReturn_findIdx, hn]⟩
  exact ⟨by omega, not_segmentationFree_of_wraps (by omega) wraps⟩

theorem late_return_not_segmentationFree :
    (lateReturn (2 ^ 32 - 4)).length < 2 ^ 32 - 1 ∧
      ¬ SegmentationFree (2 ^ 32 - 1) (lateReturn (2 ^ 32 - 4)) :=
  lateReturn_breaks rfl

end Segmentation

end Kith.Control
