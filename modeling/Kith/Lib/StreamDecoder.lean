import Mathlib.Data.List.Infix

/-!
# Decoders that read items off the front of a stream

A decoder looks at the bytes received so far and reports an item with its size,
that the bytes are bad, or that it needs more. What it has reported does not
change when more bytes arrive. Scanning applies it until it reports no item; the
items found do not depend on how the stream was cut into pieces.
-/

namespace StreamDecoder

open List

universe u v

inductive Verdict (α : Type u) where
  | more
  | bad
  | item (a : α) (size : Nat)
  deriving DecidableEq

@[ext]
structure Decoder (β : Type v) (α : Type u) where
  next : List β → Verdict α
  next_nil : next [] = .more
  size_pos : ∀ {l a k}, next l = .item a k → 0 < k
  size_le : ∀ {l a k}, next l = .item a k → k ≤ l.length
  item_stable : ∀ {l a k} (m : List β), next l = .item a k → next (l ++ m) = .item a k
  bad_stable : ∀ {l} (m : List β), next l = .bad → next (l ++ m) = .bad

/-- What scanning leaves: the items, the bytes behind them, and whether those are bad. -/
structure Scanned (β : Type v) (α : Type u) where
  items : List α
  rest : List β
  bad : Bool
  deriving DecidableEq

variable {β : Type v} {α : Type u} (d : Decoder β α) {l p : List β} {a : α} {ws : List (List β × α)}
    {k : Nat}

def scanFrom : Nat → List β → Scanned β α
  | 0, l => ⟨[], l, false⟩
  | fuel + 1, l =>
    match d.next l with
    | .more => ⟨[], l, false⟩
    | .bad => ⟨[], l, true⟩
    | .item a k =>
      let r := scanFrom fuel (l.drop k)
      ⟨a :: r.items, r.rest, r.bad⟩

def Decoder.scan (l : List β) : Scanned β α := scanFrom d (l.length + 1) l

variable {d}

theorem drop_shorter (found : d.next l = .item a k) : (l.drop k).length < l.length := by
  have pos := d.size_pos found
  have le := d.size_le found
  rw [length_drop]
  omega

theorem scanFrom_eq {fuel : Nat} (h : l.length < fuel) (fuel' : Nat) (h' : l.length < fuel') :
    scanFrom d fuel l = scanFrom d fuel' l := by
  induction fuel generalizing fuel' l with
  | zero => omega
  | succ fuel ih =>
    cases fuel' with
    | zero => omega
    | succ fuel' =>
      rw [scanFrom, scanFrom]
      cases found : d.next l with
      | more | bad => rfl
      | item a k =>
        have shorter := drop_shorter found
        simp only [ih (l := l.drop k) (by omega) fuel' (by omega)]

theorem scan_more (found : d.next l = .more) : d.scan l = ⟨[], l, false⟩ := by
  simp [Decoder.scan, scanFrom, found]

theorem scan_bad (found : d.next l = .bad) : d.scan l = ⟨[], l, true⟩ := by
  simp [Decoder.scan, scanFrom, found]

theorem scan_item (found : d.next l = .item a k) :
    d.scan l = ⟨a :: (d.scan (l.drop k)).items, (d.scan (l.drop k)).rest,
      (d.scan (l.drop k)).bad⟩ := by
  have shorter := drop_shorter found
  rw [Decoder.scan, scanFrom, found]
  simp only [Decoder.scan]
  rw [scanFrom_eq (by omega) ((l.drop k).length + 1) (by omega)]

theorem next_rest (l : List β) : d.next (d.scan l).rest =
    if (d.scan l).bad then .bad else .more := by
  induction hn : l.length using Nat.strong_induction_on generalizing l with
  | _ n ih =>
    cases found : d.next l with
    | more => simp [scan_more found, found]
    | bad => simp [scan_bad found, found]
    | item a k =>
      rw [scan_item found]
      exact ih _ (hn ▸ drop_shorter found) _ rfl

/-- Scanning a stream is scanning a first part, then what it left and the second part. -/
theorem scan_append (good : (d.scan l).bad = false) (m : List β) :
    d.scan (l ++ m) = ⟨(d.scan l).items ++ (d.scan ((d.scan l).rest ++ m)).items,
      (d.scan ((d.scan l).rest ++ m)).rest, (d.scan ((d.scan l).rest ++ m)).bad⟩ := by
  induction hn : l.length using Nat.strong_induction_on generalizing l with
  | _ n ih =>
    cases found : d.next l with
    | more => simp [scan_more found]
    | bad => simp [scan_bad found] at good
    | item a k =>
      have le := d.size_le found
      rw [scan_item found] at good ⊢
      rw [scan_item (d.item_stable m found), drop_append_of_le_length le,
        ih _ (hn ▸ drop_shorter found) good rfl]
      rfl

/-- A sequence of encoded items: each encoding decodes to its item and no more. -/
def Encoded (d : Decoder β α) (ws : List (List β × α)) : Prop :=
  ∀ w ∈ ws, d.next w.1 = .item w.2 w.1.length

def bytes (ws : List (List β × α)) : List β := (ws.map Prod.fst).flatten

theorem bytes_append (ws ws' : List (List β × α)) : bytes (ws ++ ws') = bytes ws ++ bytes ws' := by
  simp [bytes]

theorem next_initial {w : List β} (whole : d.next w = .item a w.length) (initial : p <+: w)
    (short : p.length < w.length) : d.next p = .more := by
  obtain ⟨t, rfl⟩ := initial
  cases found : d.next p with
  | more => rfl
  | bad =>
    rw [d.bad_stable t found] at whole
    cases whole
  | item b k =>
    have le := d.size_le found
    rw [d.item_stable t found] at whole
    cases whole
    omega

/-- Scanning an initial part of a stream of encoded items: the items that are
complete, and an initial part of the next one. -/
theorem scan_initial (encoded : Encoded d ws) (initial : p <+: bytes ws) :
    ∃ done todo rest, ws = done ++ todo ∧ p = bytes done ++ rest ∧
      d.scan p = ⟨done.map Prod.snd, rest, false⟩ ∧
      (rest = [] ∧ todo = [] ∨ ∃ w ∈ todo.head?, rest <+: w.1 ∧ rest.length < w.1.length) := by
  induction ws generalizing p with
  | nil =>
    obtain rfl : p = [] := prefix_nil.mp initial
    exact ⟨[], [], [], rfl, rfl, scan_more d.next_nil, .inl ⟨rfl, rfl⟩⟩
  | cons w ws ih =>
    have whole : d.next w.1 = .item w.2 w.1.length := encoded w mem_cons_self
    by_cases short : p.length < w.1.length
    · have inside : p <+: w.1 :=
        prefix_of_prefix_length_le initial (prefix_append ..) (le_of_lt short)
      exact ⟨[], w :: ws, p, rfl, rfl, scan_more (next_initial whole inside short),
        .inr ⟨w, rfl, inside, short⟩⟩
    · obtain ⟨q, rfl⟩ : w.1 <+: p :=
        prefix_of_prefix_length_le (prefix_append ..) initial (by omega)
      obtain ⟨done, todo, rest, rfl, rfl, scanned, ends⟩ :=
        ih (fun v hv => encoded v (mem_cons_of_mem w hv))
          ((prefix_append_right_inj w.1).mp initial)
      refine ⟨w :: done, todo, rest, rfl, by simp [bytes], ?_, ends⟩
      rw [scan_item (d.item_stable _ whole), drop_left, scanned]
      rfl

theorem scan_bytes (encoded : Encoded d ws) : d.scan (bytes ws) = ⟨ws.map Prod.snd, [], false⟩ := by
  obtain ⟨done, todo, rest, rfl, whole, scanned, ends⟩ :=
    scan_initial encoded (prefix_refl (bytes ws))
  rw [scanned]
  rcases ends with ⟨rfl, rfl⟩ | ⟨w, first, _, short⟩
  · simp
  · obtain ⟨todo, rfl⟩ := head?_eq_some_iff.mp first
    have length := congrArg length whole
    simp [bytes] at length
    omega

end StreamDecoder
