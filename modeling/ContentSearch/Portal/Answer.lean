import ContentSearch.Portal.Error
import ContentSearch.Portal.Page

/-!
# What a portal's answer means

An answer is a status, perhaps a `Retry-After` header, and a body. Its verdict is a page of
results, the advice to try again, or an error. A portal may report an error with the status, or
inside the body of an answer whose status claims success; both are read alike.

There are two places where patience may be asked for, and they come at different times. The status
is looked at before the body, so a rate limit in the status leads to another attempt whatever the
body holds; a rate limit in the body can be told only when the body was read as JSON. Where no
attempt is left, either of them is an error like the others.

A body that no one can read as a page, or as an error, is an error of its own (`unreadable`). It
does not matter then how far the readers came.
-/

set_option autoImplicit false

namespace ContentSearch

structure Answer where
  status : Nat
  /-- The bytes of the `Retry-After` header, if there is one. -/
  retryAfter : Option (List UInt8)
  body : List UInt8
  deriving Repr, DecidableEq

inductive Verdict
  | success (page : Page)
  | retry (after : Option Nat)
  deriving Repr

/-- What the statuses are called that are no success. -/
def statusReasons : List (Nat × String) :=
  [(100, "Continue"), (101, "Switching Protocols"), (102, "Processing"),
   (300, "Multiple Choices"), (301, "Moved Permanently"), (302, "Found"), (303, "See Other"),
   (304, "Not Modified"), (307, "Temporary Redirect"), (308, "Permanent Redirect"),
   (400, "Bad Request"), (401, "Unauthorized"), (402, "Payment Required"), (403, "Forbidden"),
   (404, "Not Found"), (405, "Method Not Allowed"), (406, "Not Acceptable"),
   (407, "Proxy Authentication Required"), (408, "Request Timeout"), (409, "Conflict"),
   (410, "Gone"), (411, "Length Required"), (412, "Precondition Failed"),
   (413, "Payload Too Large"), (414, "URI Too Long"), (415, "Unsupported Media Type"),
   (416, "Range Not Satisfiable"), (417, "Expectation Failed"), (418, "I'm a teapot"),
   (421, "Misdirected Request"), (422, "Unprocessable Entity"), (423, "Locked"),
   (424, "Failed Dependency"), (426, "Upgrade Required"), (428, "Precondition Required"),
   (429, "Too Many Requests"), (431, "Request Header Fields Too Large"),
   (451, "Unavailable For Legal Reasons"), (500, "Internal Server Error"),
   (501, "Not Implemented"), (502, "Bad Gateway"), (503, "Service Unavailable"),
   (504, "Gateway Timeout"), (505, "HTTP Version Not Supported"),
   (506, "Variant Also Negotiates"), (507, "Insufficient Storage"), (508, "Loop Detected"),
   (510, "Not Extended"), (511, "Network Authentication Required")]

def statusReason (status : Nat) : String := (statusReasons.lookup status).getD "Unknown error"

/-- An error that a portal reports inside a body. -/
structure Complaint where
  code : Nat
  message : String
  deriving Repr, DecidableEq

namespace Complaint

/-- The names of a complaint's fields, in their order. -/
def fieldNames : List String := ["code", "message"]

/-- The code must be there; the message may be missing. -/
def ofFields? (es : Entries Json.Value) : Option Complaint :=
  match Json.requiredField? es "code" (Json.Value.asNat? (Nat.pow 2 16)),
    Json.field? es "message" "" Json.Value.asString? with
  | some code, some message => some ⟨code, message⟩
  | _, _ => none

def ofJson? (v : Json.Value) : Option Complaint := (v.record? fieldNames).bind ofFields?

end Complaint

namespace Answer

/-- The seconds of the `Retry-After` header, where it spells a number of 64 bits. Its bytes are
ASCII where they count: any other byte is no digit. -/
def retrySeconds (a : Answer) : Option Nat :=
  match a.retryAfter with
  | some bytes =>
    match Text.Decimal.read Text.Decimal.limit64 (bytes.map fun b => Char.ofNat b.toNat) with
    | .ok n => some n
    | .error _ => none
  | none => none

def isSuccess (a : Answer) : Bool := 200 ≤ a.status && a.status ≤ 299

def text (a : Answer) : String := String.ofList (Text.Utf8.readLossy a.body)

/-- An error or, where it is a rate limit and there are attempts left, the advice to retry. -/
def refuse (code : Nat) (message : String) (retryAfter : Option Nat) (mayRetry : Bool) :
    Except SearchError Verdict :=
  if code = 429 ∧ mayRetry then .ok (.retry retryAfter)
  else .error (.refused (Refusal.ofStatus code message retryAfter))

def judgeValue (v : Json.Value) (retryAfter : Option Nat) (mayRetry : Bool) :
    Except SearchError Verdict :=
  match v.get? "error" with
  | some e =>
    match Complaint.ofJson? e with
    | some c => refuse c.code c.message retryAfter mayRetry
    | none => .error .unreadable
  | none =>
    match Page.ofJson? v with
    | some p => .ok (.success p)
    | none => .error .unreadable

/-- **The verdict.** `attempt` retries were made before this answer, out of `maxRetries`. -/
def verdict (a : Answer) (attempt maxRetries : Nat) : Except SearchError Verdict :=
  let mayRetry := attempt < maxRetries
  if a.isSuccess then
    match Json.Value.parse? a.text with
    | some v => judgeValue v a.retrySeconds mayRetry
    | none => .error .unreadable
  else refuse a.status (Refusal.orElse a.text (statusReason a.status)) a.retrySeconds mayRetry

end Answer
end ContentSearch
