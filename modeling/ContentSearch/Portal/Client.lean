import ContentSearch.Portal.Answer
import ContentSearch.Portal.Retry
import ContentSearch.Query
import ContentSearch.Url.Reader

/-!
# Searching

A client sends the form of a query to a portal and makes a page out of what comes back. While the
portal asks for patience the client waits and sends the same request again, as often as its policy
allows.

A portal is known here by what it does: an origin, and for each request that reaches it, in their
order, what that request meets. So a search is a function. It answers with its outcome, with the
requests that were made (each with the pause before it), and with the portal as the search leaves
it. A request to another origin, and one that the portal has nothing left for, finds nobody.

What a request meets is one event, from its first byte to the last byte of the body. Redirections
are followed by the library that sends the request, so they are part of that event; and a
redirection that leads nowhere is met as a connection that ends without an answer.
-/

set_option autoImplicit false

namespace ContentSearch

/-- What a request meets. -/
inductive Encounter
  | answer (a : Answer)
  /-- An answer that breaks off, or comes to no end in time: its status and its header fields are
  there, and its body cannot be read. -/
  | cut (a : Answer)
  /-- No connection. -/
  | refused
  /-- No answer in time. -/
  | timedOut
  /-- A connection that ends without an answer. -/
  | dropped
  deriving Repr, DecidableEq

structure Portal where
  origin : Origin
  script : List Encounter

namespace Portal

def nowhere : Portal := ⟨⟨[], none, none⟩, []⟩

end Portal

structure Request where
  method : String
  /-- Path and query of the address. -/
  target : String
  contentType : String
  body : String
  deriving Repr, DecidableEq

/-- A request that reached the portal, and the pause before it. -/
structure Sent where
  request : Request
  pause : Duration
  deriving DecidableEq

/-- A client's settings. -/
structure Client where
  timeout : Duration
  policy : RetryPolicy
  deriving DecidableEq

def Client.standard : Client := ⟨.ofSeconds 30, .standard⟩

/-- What a search comes to. -/
structure Exchange where
  outcome : Except SearchError Page
  sent : List Sent
  portal : Portal

namespace Exchange

/-- A search that ends before anything was sent. -/
def unsent (e : SearchError) (portal : Portal) : Exchange := ⟨.error e, [], portal⟩

/-- The same exchange with one more request in front. -/
def after (s : Sent) (x : Exchange) : Exchange := { x with sent := s :: x.sent }

/-- What the last of the requests met that reached the portal, if one did. -/
def lastMet? (x : Exchange) (portal : Portal) : Option Encounter :=
  match x.sent.length with
  | 0 => none
  | n + 1 => portal.script[n]?

end Exchange

namespace Client

/-- The address that a query to an endpoint goes to. -/
def searchAddress (endpoint : String) : List Char :=
  Text.dropTrailing '/' endpoint.toList ++ "/search".toList

def requestOf (q : Query) (url : Url) : Request :=
  { method := "POST"
    target := String.ofList url.target
    contentType := "application/x-www-form-urlencoded"
    body := q.formBody }

/-- Sends the request, for the `attempt`-th time after the first, to a portal that has this much of
its script left. -/
def send (policy : RetryPolicy) (request : Request) (url : String) (origin : Origin) :
    Nat → Duration → List Encounter → Exchange
  | _, _, [] => .unsent (.unreachable url) ⟨origin, []⟩
  | attempt, pause, met :: rest =>
    let here : Sent := ⟨request, pause⟩
    match met with
    | .refused => ⟨.error (.unreachable url), [here], ⟨origin, rest⟩⟩
    | .timedOut => ⟨.error (.unreachable url), [here], ⟨origin, rest⟩⟩
    | .dropped => ⟨.error (.request (.dropped url)), [here], ⟨origin, rest⟩⟩
    | .cut a =>
      -- the status is looked at before the body
      if a.status = 429 ∧ attempt < policy.maxRetries then
        (send policy request url origin (attempt + 1) (policy.wait attempt a.retrySeconds)
          rest).after here
      else ⟨.error (.request (.bodyLost url)), [here], ⟨origin, rest⟩⟩
    | .answer a =>
      match a.verdict attempt policy.maxRetries with
      | .error e => ⟨.error e, [here], ⟨origin, rest⟩⟩
      | .ok (.success page) => ⟨.ok page, [here], ⟨origin, rest⟩⟩
      | .ok (.retry after) =>
        (send policy request url origin (attempt + 1) (policy.wait attempt after) rest).after here

def searchAt (client : Client) (q : Query) (address : List Char) (portal : Portal) : Exchange :=
  match Url.parse? address with
  | none => .unsent (.request .badAddress) portal
  | some url =>
    let name := String.ofList url.write
    if !url.isHttp then .unsent (.request (.badScheme name)) portal
    else if url.origin ≠ portal.origin then .unsent (.unreachable name) portal
    else send client.policy (requestOf q url) name portal.origin 0 .zero portal.script

/-- **Searching.** -/
def search (client : Client) (q : Query) (portal : Portal) : Exchange :=
  match q.connection.endpoint with
  | none => .unsent .missingEndpoint portal
  | some endpoint => searchAt client q (searchAddress endpoint) portal

end Client
end ContentSearch
