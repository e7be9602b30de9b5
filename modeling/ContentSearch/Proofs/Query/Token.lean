import ContentSearch.Program.Report
import ContentSearch.Proofs.Portal.RetryLaw
import ContentSearch.Proofs.Query.Parameters
import Mathlib.Data.List.Forall2

/-!
# The token of a query

Two queries may differ in nothing but their tokens. Tokens are *swapped* if one took the place of
the other: both are there and neither is empty, or they are the same. Choosing between tokens keeps
this (`Swapped.orElse`), because it only asks whether there is one and whether it is empty.

Of a query's token a report tells the presence alone (`Report.query_sameButToken`). The form has the
whole of it, in its last pair (**`Query.formPairs_eq_append`**), and a search is otherwise the
portal's doing, so two searches that differ in the token meet the same and send the same but for
that pair (**`Client.search_sameButToken`**).

No other pair of the form has the name of the last one (`Query.token_not_mem_openPairs`). So the
form without its token is the other pairs, all of them and in their order.
-/

set_option autoImplicit false

namespace ContentSearch

open Text

/-! ## Swapped tokens -/

/-- The second token is the first, or both are there and neither is empty. -/
inductive Swapped : Option String → Option String → Prop
  | same (t : Option String) : Swapped t t
  | changed {s t : String} (hs : s ≠ "") (ht : t ≠ "") : Swapped (some s) (some t)

/-- What is left of a token to choose from: an empty one is none. -/
theorem Swapped.nonEmpty {s t : Option String} (h : Swapped s t) :
    Swapped (nonEmpty s) (nonEmpty t) := by
  cases h with
  | same => exact .same _
  | changed hs ht =>
    rw [ContentSearch.nonEmpty, ContentSearch.nonEmpty, Option.filter_some_pos (by simpa using hs),
      Option.filter_some_pos (by simpa using ht)]
    exact .changed hs ht

theorem Swapped.orElse {s t s' t' : Option String} (h : Swapped s t) (h' : Swapped s' t') :
    Swapped (s.orElse fun _ => s') (t.orElse fun _ => t') := by
  cases h with
  | same s =>
    cases s with
    | none => exact h'
    | some s => exact .same _
  | changed hs ht => exact .changed hs ht

/-! ## Queries -/

namespace Query

/-- The token that a query is sent with. -/
def token (q : Query) : Option String := q.connection.credential.map Credential.secret

/-- The query without its token, for comparing. -/
def tokenless (q : Query) : Query :=
  { q with connection := { q.connection with credential := none } }

structure SameButToken (q r : Query) : Prop where
  rest : r.tokenless = q.tokenless
  token : Swapped q.token r.token

/-- The pairs of a form before the token. -/
def openPairs (q : Query) : List (String × String) := q.tokenless.formPairs

def tokenPair (t : Option String) : List (String × String) := t.toList.map fun s => ("token", s)

/-- **The token is the last pair of a form**, where there is one. -/
theorem formPairs_eq_append (q : Query) : q.formPairs = q.openPairs ++ tokenPair q.token := by
  obtain ⟨text, sort, page, counts, bbox, ⟨endpoint, credential⟩⟩ := q
  cases sort <;> cases counts <;> cases bbox <;> cases credential <;> rfl

theorem token_not_mem_openPairs (q : Query) : "token" ∉ Entries.names q.openPairs := by
  intro hmem
  obtain ⟨⟨_, v⟩, hpair, rfl⟩ := List.mem_map.mp hmem
  rw [openPairs, formPairs_eq] at hpair
  have hnone : ("token", some v) ∈ q.tokenless.parameters := Entries.mem_present.mp hpair
  simp [parameters, tokenless] at hnone

/-- The token of a compiled query: that of the call, or else that of the service. -/
theorem token_compile (filter : Filter) (options : Options) (service : Connection) :
    (compile filter options service).token
      = (nonEmpty (options.connection.credential.map Credential.secret)).orElse fun _ =>
          nonEmpty (service.credential.map Credential.secret) := by
  have husable : ∀ c : Option Credential,
      (Connection.usable c).map Credential.secret = nonEmpty (c.map Credential.secret) := by
    intro c
    rw [Connection.usable, nonEmpty, Option.filter_map]
    rfl
  show Option.map _ (Option.orElse _ _) = _
  rw [← husable, ← husable]
  cases Connection.usable options.connection.credential <;> rfl

theorem compile_sameButToken (filter : Filter) {options options' : Options}
    {service service' : Connection}
    (hoptions : { options' with connection := ⟨options'.connection.endpoint, none⟩ }
      = { options with connection := ⟨options.connection.endpoint, none⟩ })
    (hendpoint : service'.endpoint = service.endpoint)
    (hcall : Swapped (options.connection.credential.map Credential.secret)
      (options'.connection.credential.map Credential.secret))
    (hservice : Swapped (service.credential.map Credential.secret)
      (service'.credential.map Credential.secret)) :
    (compile filter options service).SameButToken (compile filter options' service') := by
  have htokenless : ∀ (o : Options) (s : Connection), (compile filter o s).tokenless
      = compile filter { o with connection := ⟨o.connection.endpoint, none⟩ } ⟨s.endpoint, none⟩ :=
    fun _ _ => rfl
  refine ⟨?_, ?_⟩
  · rw [htokenless, htokenless, hoptions, hendpoint]
  · rw [token_compile, token_compile]
    exact hcall.nonEmpty.orElse hservice.nonEmpty

end Query

/-! ## What is printed -/

theorem Report.queryText_eq (q : Query) :
    queryText q = queryText q.tokenless ++ lineOf "token" (fun _ => "(set)") q.token := by
  have hend : queryText q.tokenless ++ lineOf "token" (fun _ => "(set)") q.token
      = queryText q.tokenless ++ lineOf "token" (fun _ => "(set)") q.connection.credential := by
    rw [lineOf, Query.token, Option.elim_map]
    rfl
  rw [hend]
  unfold queryText
  rw [show lineOf "token" (fun _ => "(set)") q.tokenless.connection.credential = "" from rfl,
    String.append_empty]
  rfl

/-- **A report tells whether there is a token, and not which.** -/
theorem Report.query_sameButToken {q r : Query} (h : q.SameButToken r) (s : Style) :
    query s r = query s q := by
  have hset : lineOf "token" (fun _ => "(set)") r.token
      = lineOf "token" (fun _ => "(set)") q.token := by
    have htoken := h.token
    generalize q.token = t, r.token = u at htoken
    cases htoken <;> rfl
  have htoJson : ∀ q : Query, q.toJson = q.tokenless.toJson := fun _ => rfl
  have hjson : r.toJson = q.toJson := by rw [htoJson, htoJson q, h.rest]
  rw [query, query, queryText_eq, queryText_eq q, hset, h.rest, hjson]

/-! ## What is sent -/

/-- Requests that are the same up to the value of the last pair of their forms. -/
structure Request.SameButToken (r s : Request) : Prop where
  head : { s with body := r.body } = r
  body : ∃ (pairs : List (String × String)) (t u : Option String),
    "token" ∉ Entries.names pairs ∧ Swapped t u ∧
      r.body = String.ofList (Form.encode (pairs ++ Query.tokenPair t)) ∧
      s.body = String.ofList (Form.encode (pairs ++ Query.tokenPair u))

structure Sent.SameButToken (s t : Sent) : Prop where
  request : s.request.SameButToken t.request
  pause : t.pause = s.pause

structure Exchange.SameButToken (x y : Exchange) : Prop where
  outcome : y.outcome = x.outcome
  sent : List.Forall₂ Sent.SameButToken x.sent y.sent
  portal : y.portal = x.portal

theorem Exchange.SameButToken.lastMet? {x y : Exchange} (h : x.SameButToken y) (portal : Portal) :
    y.lastMet? portal = x.lastMet? portal := by
  unfold Exchange.lastMet?
  rw [h.sent.length_eq]

namespace Client

theorem requestOf_sameButToken {q r : Query} (h : q.SameButToken r) (url : Url) :
    (requestOf q url).SameButToken (requestOf r url) := by
  have hpairs : r.openPairs = q.openPairs := congrArg Query.formPairs h.rest
  refine ⟨rfl, q.openPairs, q.token, r.token, q.token_not_mem_openPairs, h.token, ?_, ?_⟩
  · rw [← q.formPairs_eq_append]
    rfl
  · rw [← hpairs, ← r.formPairs_eq_append]
    rfl

/-- **The portal's answers decide how a search goes on**, and what is sent is the same request each
time. -/
theorem send_sameButToken (policy : RetryPolicy) {r s : Request} (h : r.SameButToken s)
    (url : String) (origin : Origin) (attempt : Nat) (owed : Duration) (script : List Encounter) :
    (send policy r url origin attempt owed script).SameButToken
      (send policy s url origin attempt owed script) := by
  rw [send_eq, send_eq policy s]
  refine ⟨rfl, ?_, rfl⟩
  rw [List.forall₂_map_left_iff, List.forall₂_map_right_iff]
  exact List.forall₂_same.mpr fun i _ => ⟨h, rfl⟩

theorem search_sameButToken (client : Client) {q r : Query} (h : q.SameButToken r)
    (portal : Portal) : (client.search q portal).SameButToken (client.search r portal) := by
  have hblind : ∀ q : Query, route q portal = route q.tokenless portal := fun _ => rfl
  have hroute : route r portal = route q portal := by rw [hblind, hblind q, h.rest]
  rw [search_eq, search_eq, hroute]
  cases route q portal with
  | error e => exact ⟨rfl, .nil, rfl⟩
  | ok url => exact send_sameButToken _ (requestOf_sameButToken h url) _ _ _ _ _

end Client

end ContentSearch
