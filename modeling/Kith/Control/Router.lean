import Mathlib.Data.List.Basic

/-!
# Requests, routes and canned responses of the control plane

C strings are byte lists without their terminator. What a route handler writes
is not part of the model: a handler is any reply.
-/

namespace Kith.Control

def ascii (s : String) : List UInt8 := s.toList.map fun c => c.toNat.toUInt8

inductive Method where
  | get | post | put | delete | unknown
  deriving DecidableEq

structure Header where
  name : List UInt8
  value : List UInt8
  deriving DecidableEq

structure Request where
  method : Method
  path : List UInt8
  headers : List Header
  body : List UInt8
  deriving DecidableEq

/-- `kith_control_response_t`: the first `len` bytes of its buffer. -/
structure Response where
  bytes : List UInt8
  sse : Bool
  deriving DecidableEq

def Response.len (resp : Response) : Nat := resp.bytes.length

/-- What a route handler leaves behind. -/
structure Reply where
  rc : Int
  resp : Response
  deriving DecidableEq

section Headers

def toLower (b : UInt8) : UInt8 := if 65 ≤ b ∧ b ≤ 90 then b + 32 else b

/-- `ci_equal` over the first `n` bytes, stopping at the end of `a`. -/
def ciEqual : List UInt8 → List UInt8 → Nat → Bool
  | _, _, 0 => true
  | a, b, n + 1 =>
    if toLower (a.headD 0) ≠ toLower (b.headD 0) then false
    else if a.headD 0 = 0 then true
    else ciEqual a.tail b.tail n

def findHeaderValue (headers : List Header) (name : List UInt8) : Option (List UInt8) :=
  (headers.find? fun h => ciEqual h.name name name.length).map Header.value

def wantsWebsocket (request : Request) : Bool :=
  match findHeaderValue request.headers (ascii "upgrade") with
  | none => false
  | some value => ciEqual value (ascii "websocket") 10

end Headers

section Routes

/-- A route without its handler, which answers as the environment decides. -/
structure RouteEntry where
  method : List UInt8
  path : List UInt8
  python : Bool
  deriving DecidableEq

def methodString : Method → List UInt8
  | .get => ascii "GET"
  | .post => ascii "POST"
  | .put => ascii "PUT"
  | .delete => ascii "DELETE"
  | .unknown => ascii "UNKNOWN"

def isParam (rp : List UInt8) : Bool :=
  rp.headD 0 = 58 ∧ 97 ≤ rp.tail.headD 0 ∧ rp.tail.headD 0 ≤ 122

def urlEnds (ru : List UInt8) : Bool := ru.headD 0 = 0 ∨ ru.headD 0 = 63

/-- The loop of `match_path`; each round takes at least one byte of the pattern,
so the pattern's length bounds the rounds. -/
def matchPathFrom : Nat → List UInt8 → List UInt8 → Bool
  | 0, rp, ru => rp.isEmpty && urlEnds ru
  | fuel + 1, rp, ru =>
    if rp.isEmpty || urlEnds ru then rp.isEmpty && urlEnds ru
    else if isParam rp then
      matchPathFrom fuel (rp.dropWhile (· ≠ 47)) (ru.dropWhile fun b => b ≠ 47 ∧ b ≠ 63)
    else if rp.headD 0 ≠ ru.headD 0 then false
    else matchPathFrom fuel rp.tail ru.tail

def matchPath (routePath reqUrl : List UInt8) : Bool :=
  matchPathFrom routePath.length routePath reqUrl

def controlRouterMatch (routes : List RouteEntry) (request : Request) : Option RouteEntry :=
  routes.find? fun r => r.method == methodString request.method && matchPath r.path request.path

/-- A response of fixed text, or nothing when the buffer cannot take it with its
terminator. -/
def cannedResponse (status body : String) (cap : Nat) : List UInt8 :=
  let text :=
    ascii ("HTTP/1.1 " ++ status ++ "\r\nContent-Type: application/json\r\nContent-Length: "
      ++ toString body.length ++ "\r\n\r\n" ++ body)
  if cap ≤ text.length then [] else text

def controlRouterWrite404 : Nat → List UInt8 :=
  cannedResponse "404 Not Found" "\x7b\"error\":\"not_found\"\x7d"

def controlRouterWrite501 : Nat → List UInt8 :=
  cannedResponse "501 Not Implemented" "\x7b\"error\":\"not_implemented\"\x7d"

def controlRouterWrite503 : Nat → List UInt8 :=
  cannedResponse "503 Service Unavailable" "\x7b\"error\":\"unavailable\"\x7d"

/-- `deferred` is result 1: a route that must run on the worker pool. -/
inductive Dispatched where
  | answered (reply : Reply)
  | deferred
  deriving DecidableEq

/-- `reply` is what the handler answers if an inline route matches. -/
def controlRouterDispatch (routes : List RouteEntry) (cap : Nat) (request : Request)
    (reply : Reply) : Dispatched :=
  match controlRouterMatch routes request with
  | none => .answered ⟨0, ⟨controlRouterWrite404 cap, false⟩⟩
  | some route => if route.python then .deferred else .answered reply

end Routes

end Kith.Control
