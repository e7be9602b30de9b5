import ContentSearch.Text.Decimal

/-!
# What can go wrong with a search

A search fails because the portal refuses it, because no portal is known, because the request is
lost, or because the answer is no page. Each failure carries its cause, and the exit status follows
from that.

The wording follows from it too, but for two kinds of failure. Why a request was lost is told by the
library that sent it, and why an answer is no page by the library that read it; what they say is
theirs to change, so the message of an error takes it as a parameter (`SearchError.message`).
-/

set_option autoImplicit false

namespace ContentSearch

/-- A refusal, by the portal or on the way to it. -/
inductive Refusal
  | http (status : Nat) (message : String)
  | auth (message : String)
  | rateLimited (retryAfter : Option Nat)
  | invalid (message : String)
  | network (message : String)
  deriving Repr, DecidableEq

namespace Refusal

/-- The message, or the text that stands in for an empty one. -/
def orElse (message fallback : String) : String := if message = "" then fallback else message

/-- **What a status or a portal's own error code means.** -/
def ofStatus (status : Nat) (message : String) (retryAfter : Option Nat) : Refusal :=
  if status = 401 ∨ status = 403 ∨ status = 498 ∨ status = 499 then
    .auth (orElse message "Authentication failed")
  else if status = 429 then .rateLimited retryAfter
  else if status = 400 then .invalid (orElse message "Bad request")
  else .http status message

def message : Refusal → String
  | .http status m => "HTTP error " ++ String.ofList (Text.Decimal.write status) ++ ": " ++ m
  | .auth m => "Auth error: " ++ m
  | .rateLimited (some n) =>
    "Rate limited, retry after " ++ String.ofList (Text.Decimal.write n) ++ " seconds"
  | .rateLimited none => "Rate limited"
  | .invalid m => "Validation error: " ++ m
  | .network m => "Network error: " ++ m

/-- The exit status of a program that fails with it. -/
def exitStatus : Refusal → Nat
  | .network _ => 3
  | .rateLimited _ => 4
  | _ => 2

end Refusal

/-- Why a request is lost. -/
inductive RequestFault
  /-- The address of the portal is no address. -/
  | badAddress
  /-- The address is one, and not of the web. -/
  | badScheme (url : String)
  /-- The connection ended without an answer. -/
  | dropped (url : String)
  /-- The answer has begun, and its body was not read to the end. -/
  | bodyLost (url : String)
  deriving Repr, DecidableEq

/-- The wording for a request that was sent in vain. -/
def RequestFault.sendingMessage (url : String) : String :=
  "error sending request for url (" ++ url ++ ")"

inductive SearchError
  | refused (r : Refusal)
  | missingEndpoint
  | request (f : RequestFault)
  | unreadable
  deriving Repr, DecidableEq

namespace SearchError

/-- What the libraries usually say of a request that is lost, and of an answer that is no page. -/
def usualWords : SearchError → String
  | .request .badAddress => "builder error"
  | .request (.badScheme url) => "builder error for url (" ++ url ++ ")"
  | .request (.dropped url) => RequestFault.sendingMessage url
  | .request (.bodyLost _) => "error decoding response body"
  | .unreadable => "the answer is not a page of results"
  | _ => ""

/-- The failure in words. Some of them may be those of a library. -/
def message (e : SearchError) (words : String := e.usualWords) : String :=
  match e with
  | .refused r => r.message
  | .missingEndpoint => "no search endpoint configured"
  | .request _ => "request failed: " ++ words
  | .unreadable => "invalid response: " ++ words

/-- The exit status of a program that fails with it. -/
def exitStatus : SearchError → Nat
  | .refused r => r.exitStatus
  | .request _ => 3
  | _ => 2

/-- A portal that could not be reached, or did not answer in time. -/
def unreachable (url : String) : SearchError :=
  .refused (.network (RequestFault.sendingMessage url))

end SearchError
end ContentSearch
