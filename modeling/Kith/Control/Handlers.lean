import Kith.Metrics.Prometheus

/-!
# The metrics route

The handler measures the text of the registry, writes the head that announces this
length, and renders once more behind it. Other threads record between the two
renderings, each of which holds the lock for itself.
-/

namespace Kith.Control

open Metrics

section Rejection

/-- `control_json_escape_route`: truncated where an escape would no longer fit. -/
def jsonEscapeRoute (outCap : Nat) : List UInt8 → List UInt8 → List UInt8
  | out, [] => out
  | out, c :: route =>
    if out.length + 2 < outCap then
      if c < 0x20 ∨ c > 0x7E then jsonEscapeRoute outCap out route
      else jsonEscapeRoute outCap (out ++ if c = 34 ∨ c = 92 then [92, c] else [c]) route
    else out

/-- What a handler leaves: the head and the body in the buffer, the length that the head
announces, and `resp->len`. -/
structure ResponseBuffer where
  head : List UInt8
  announced : Option Nat
  body : List UInt8
  len : Nat
  deriving DecidableEq

def printed (n : Nat) : List UInt8 := bPutU64 n.toUInt64

def overflowBody (route : List UInt8) (attempted cap : UInt32) : List UInt8 :=
  ascii "\x7b\"error\":\"response_too_large\",\"route\":\"" ++ jsonEscapeRoute 512 [] route ++
    ascii "\"" ++
    (if attempted ≠ 0 then ascii ",\"attempted\":" ++ printed attempted.toNat else []) ++
    ascii ",\"cap\":" ++ printed cap.toNat ++ ascii "\x7d"

/-- The answer of `kith_control_reject_overflow`, empty when it does not fit either. -/
def kithControlRejectOverflow (route : List UInt8) (attempted cap : UInt32) : ResponseBuffer :=
  let body := overflowBody route attempted cap
  let head := ascii "HTTP/1.1 500 Internal Server Error\r\nContent-Type: application/json\r\n" ++
    ascii "Content-Length: " ++ printed body.length ++ ascii "\r\n\r\n"
  if 640 ≤ body.length ∨ cap.toNat ≤ head.length + body.length then ⟨[], none, [], 0⟩
  else ⟨head, some body.length, body, head.length + body.length⟩

end Rejection

section Metrics

def metricsHead (needed : Nat) : List UInt8 :=
  ascii "HTTP/1.1 200 OK\r\nContent-Type: text/plain; version=0.0.4\r\nContent-Length: " ++
    printed needed ++ ascii "\r\n\r\n"

/-- The head and the measured text do not fit, or leave no byte behind the head. -/
def Overflows (needed : Nat) (cap : UInt32) : Prop :=
  cap.toNat ≤ (metricsHead needed).length ∨ cap.toNat < (metricsHead needed).length + needed

instance (needed : Nat) (cap : UInt32) : Decidable (Overflows needed cap) :=
  inferInstanceAs (Decidable (_ ∨ _))

/-- Other threads record between the two renderings. The counter of rejections goes up on the
way out of one. -/
def controlHandlerMetrics (m : Registry) (measured rendered : Bool) (between : List Recording)
    (cap : UInt32) (counted : Bool) : ResponseBuffer × Registry :=
  let needed := (kithMetricsRenderPrometheus m measured 0).used
  let later := recorded m between
  if Overflows needed cap then
    (kithControlRejectOverflow (ascii "/metrics") needed.toUInt32 cap,
      recorded later
        [⟨ascii "kith_control_response_overflow_total", [], .counterAdd 1, counted⟩])
  else
    let head := metricsHead needed
    let text := kithMetricsRenderPrometheus later rendered (cap.toNat - head.length)
    (⟨head, some needed, text.out, (head.length + text.used) % 4294967296⟩, later)

/-- The length stays within the buffer and what was announced is what was placed. -/
def ResponseBuffer.Fits (r : ResponseBuffer) (cap : UInt32) : Prop :=
  r.len ≤ cap.toNat ∧ ∀ n, r.announced = some n → n = r.body.length

instance ResponseBuffer.decidableFits (r : ResponseBuffer) (cap : UInt32) :
    Decidable (r.Fits cap) :=
  decidable_of_iff (r.len ≤ cap.toNat ∧ ∀ n ∈ r.announced, n = r.body.length) Iff.rfl

theorem kithControlRejectOverflow_fits (route : List UInt8) (attempted cap : UInt32) :
    (kithControlRejectOverflow route attempted cap).Fits cap := by
  rw [kithControlRejectOverflow]
  split
  · exact ⟨Nat.zero_le _, fun n is => nomatch is⟩
  · refine ⟨?_, fun n is => (Option.some.inj is).symm⟩
    dsimp only
    omega

variable (m : Registry) (measured rendered : Bool) (between : List Recording)

/-- How many bytes the handler measures, and how many it renders. -/
def neededLength : Nat := (kithRenderPrometheus m measured).length

def renderedLength : Nat := (kithRenderPrometheus (recorded m between) rendered).length

/-- The answer fits and announces its body exactly when it is a rejection, or the second
text is as long as the first. A text that is longer can also pass where the first one fills
the buffer to its end and the sum of the lengths wraps around 32 bits. -/
theorem metrics_response_fits_iff (cap : UInt32) (counted : Bool) :
    (controlHandlerMetrics m measured rendered between cap counted).1.Fits cap ↔
      Overflows (neededLength m measured) cap ∨
        neededLength m measured = renderedLength m rendered between ∨
        (metricsHead (neededLength m measured)).length + neededLength m measured = cap.toNat ∧
          neededLength m measured < renderedLength m rendered between ∧
          ((metricsHead (neededLength m measured)).length + renderedLength m rendered between) %
            4294967296 ≤ cap.toNat := by
  simp only [controlHandlerMetrics, kithMetricsRenderPrometheus_eq, neededLength, renderedLength]
  generalize (kithRenderPrometheus m measured).length = needed
  by_cases large : Overflows needed cap
  · rw [if_pos large]
    exact iff_of_true (kithControlRejectOverflow_fits (ascii "/metrics") _ cap) (.inl large)
  · rw [if_neg large, or_iff_right large]
    simp only [ResponseBuffer.Fits, Option.some.injEq, forall_eq', List.length_take]
    generalize (kithRenderPrometheus (recorded m between) rendered).length = later
    rw [Overflows] at large
    generalize (metricsHead needed).length = head at large ⊢
    omega

def requests (n : UInt64) : Recording := ⟨ascii "requests", [], .counterAdd n, true⟩

def nineRequests : Registry := recorded ⟨[], []⟩ [requests 9]

theorem metrics_response_fits_iff_quiet :
    (controlHandlerMetrics nineRequests true true [] 4096 true).1.Fits 4096 :=
  (metrics_response_fits_iff nineRequests true true [] 4096 true).mpr (.inr (.inl rfl))

/-- The tenth request is counted between the renderings: the body is one byte longer than
announced, and in a buffer that the measured text fills the length passes its end. -/
theorem tenth_request_unannounced :
    let r := (controlHandlerMetrics nineRequests true true [requests 1] 4096 true).1
    let full := (controlHandlerMetrics nineRequests true true [requests 1] 115 true).1
    r.announced = some 35 ∧ r.body.length = 36 ∧ ¬r.Fits 4096 ∧ full.len = 116 ∧
      ¬full.Fits 115 := by
  decide +kernel

end Metrics

end Kith.Control
