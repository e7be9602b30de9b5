import ContentSearch.Proofs.Portal.Verdict

/-!
# The retry law

A search sends one request over and over, and how often is decided by what the portal's script
begins with. With `k` rate-limited answers in front and `m` retries allowed, the request is repeated
`min k m` times; the pause before each repetition is the wait that the policy puts behind the
answer just met; and what the search comes to is what the last request met, read for itself. A
failed connection and an answer of any other kind end the search where they stand.

An answer whose body cannot be read comes in between. Its status is there, and a status may ask for
patience; so it is followed by a repetition like any other answer of that status. But where no
repetition is left, it is the body that would be read next, and the search ends with a lost request
and not with a rate limit (`RetryLaw.gaveUp`, **`Client.lost_for_all_its_patience`**).

The loop carries a counter and the pause that it owes, so the induction is over the script with
both at any value (**`Client.send_eq`**). What a maintainer wants to know is `RetryLaw`, and
**`Client.search_retryLaw`** says that every search follows it. A query that leads nowhere sends
nothing.
-/

set_option autoImplicit false

namespace ContentSearch

/-! ## What requests meet -/

/-- An answer that can be read is not a lost request, whatever it says. -/
theorem Answer.result_ne_request (a : Answer) (f : RequestFault) :
    a.result ≠ .error (.request f) := by
  unfold result
  split
  · split
    · exact nofun
    · split
      · split <;> exact nofun
      · split <;> exact nofun
  · exact nofun

namespace Encounter

/-- An answer that asks for patience, by its status or in its body. Of a body that cannot be read
nothing is known but the status. -/
def isRateLimited : Encounter → Bool
  | .answer a => a.isRateLimited
  | .cut a => a.status = 429
  | _ => false

def retrySeconds : Encounter → Option Nat
  | .answer a => a.retrySeconds
  | .cut a => a.retrySeconds
  | _ => none

/-- An answer whose body cannot be read. -/
def isCut : Encounter → Bool
  | .cut _ => true
  | _ => false

theorem isCut_iff {met : Encounter} : met.isCut ↔ ∃ a, met = .cut a := by
  cases met <;> simp [isCut]

/-- What a request comes to that meets this and is not sent again. -/
def outcome (url : String) : Encounter → Except SearchError Page
  | .answer a => a.result
  | .cut _ => .error (.request (.bodyLost url))
  | .refused => .error (.unreachable url)
  | .timedOut => .error (.unreachable url)
  | .dropped => .error (.request (.dropped url))

theorem outcome_eq_rateLimited_iff (url : String) (met : Encounter) (s : Option Nat) :
    met.outcome url = .error (.refused (.rateLimited s))
      ↔ met.isRateLimited ∧ met.isCut = false ∧ met.retrySeconds = s := by
  cases met with
  | answer a =>
    rw [outcome, a.result_eq_rateLimited_iff s]
    exact ⟨fun h => ⟨h.1, rfl, h.2⟩, fun h => ⟨h.1, h.2.2⟩⟩
  | cut a => simp [outcome, isCut]
  | refused => simp [outcome, isRateLimited, SearchError.unreachable]
  | timedOut => simp [outcome, isRateLimited, SearchError.unreachable]
  | dropped => simp [outcome, isRateLimited]

/-- A request is lost with its connection, or with the body of its answer. -/
theorem outcome_eq_request_iff (url : String) (met : Encounter) (f : RequestFault) :
    met.outcome url = .error (.request f)
      ↔ met = .dropped ∧ f = .dropped url ∨ met.isCut ∧ f = .bodyLost url := by
  cases met with
  | answer a => simp [outcome, isCut, a.result_ne_request f]
  | cut a => simp [outcome, isCut, eq_comm]
  | refused => simp [outcome, isCut, SearchError.unreachable]
  | timedOut => simp [outcome, isCut, SearchError.unreachable]
  | dropped => simp [outcome, isCut, eq_comm]

end Encounter

namespace Portal

/-- What the `i`-th request of a script meets. Behind the end of the script there is nobody. -/
def meets (script : List Encounter) (i : Nat) : Encounter := script[i]?.getD .refused

/-- How many rate-limited answers a script begins with. -/
def leading (script : List Encounter) : Nat := (script.takeWhile Encounter.isRateLimited).length

theorem leading_cons_of_pos {met : Encounter} (h : met.isRateLimited) (rest : List Encounter) :
    leading (met :: rest) = leading rest + 1 := by
  rw [leading, List.takeWhile_cons_of_pos h]
  rfl

theorem leading_cons_of_neg {met : Encounter} (h : ¬ met.isRateLimited) (rest : List Encounter) :
    leading (met :: rest) = 0 := by
  rw [leading, List.takeWhile_cons_of_neg h]
  rfl

theorem isRateLimited_of_lt_leading {script : List Encounter} {i : Nat} (h : i < leading script) :
    (meets script i).isRateLimited := by
  -- along the script, an answer and an index at a time
  induction script generalizing i with
  | nil => exact absurd h (Nat.not_lt_zero i)
  | cons met rest ih =>
    by_cases hmet : met.isRateLimited
    · cases i with
      | zero => exact hmet
      | succ i =>
        rw [leading_cons_of_pos hmet] at h
        exact ih (Nat.lt_of_succ_lt_succ h)
    · rw [leading_cons_of_neg hmet] at h
      exact absurd h (Nat.not_lt_zero i)

theorem not_isRateLimited_leading (script : List Encounter) :
    ¬ (meets script (leading script)).isRateLimited := by
  induction script with
  | nil => exact Bool.false_ne_true
  | cons met rest ih =>
    by_cases hmet : met.isRateLimited
    · rw [leading_cons_of_pos hmet]
      exact ih
    · rw [leading_cons_of_neg hmet]
      exact hmet

/-- How often a request is repeated: as often as it is asked for and allowed. -/
def repetitions (portal : Portal) (policy : RetryPolicy) : Nat :=
  min (leading portal.script) policy.maxRetries

end Portal

/-! ## The loop -/

namespace Client

open Portal

/-- The pause before the `i`-th of the requests that a loop still makes, if it has made `attempt`
retries and owes a pause. -/
def pauseBefore (policy : RetryPolicy) (attempt : Nat) (owed : Duration)
    (script : List Encounter) : Nat → Duration
  | 0 => owed
  | i + 1 => policy.wait (attempt + i) (meets script i).retrySeconds

theorem pauseBefore_cons (policy : RetryPolicy) (attempt : Nat) (owed : Duration) (met : Encounter)
    (rest : List Encounter) (i : Nat) :
    pauseBefore policy attempt owed (met :: rest) (i + 1)
      = pauseBefore policy (attempt + 1) (policy.wait attempt met.retrySeconds) rest i := by
  cases i with
  | zero => rfl
  | succ i =>
    show policy.wait (attempt + (i + 1)) _ = policy.wait (attempt + 1 + i) _
    rw [Nat.add_right_comm attempt 1 i]
    rfl

section
variable (policy : RetryPolicy) (request : Request) (url : String) (origin : Origin)

/-- **One turn of the loop**: it goes on if it is asked to be patient and may be, and otherwise it
ends with what was met. -/
theorem send_cons (attempt : Nat) (owed : Duration) (met : Encounter) (rest : List Encounter) :
    send policy request url origin attempt owed (met :: rest)
      = if met.isRateLimited ∧ attempt < policy.maxRetries then
          (send policy request url origin (attempt + 1) (policy.wait attempt met.retrySeconds)
            rest).after ⟨request, owed⟩
        else ⟨met.outcome url, [⟨request, owed⟩], ⟨origin, rest⟩⟩ := by
  -- Both kinds of answers can be sent after; the verdict on a complete one tells its retries from
  -- its results. No other encounter is.
  cases met with
  | answer a =>
    simp only [send, a.verdict_eq]
    by_cases hretry : a.isRateLimited ∧ attempt < policy.maxRetries
    · rw [if_pos hretry]
      exact (if_pos hretry).symm
    · rw [if_neg hretry]
      refine Eq.trans ?_ (if_neg hretry).symm
      show _ = (⟨a.result, [⟨request, owed⟩], ⟨origin, rest⟩⟩ : Exchange)
      cases a.result <;> rfl
  | cut a => simp only [send, Encounter.isRateLimited, Encounter.retrySeconds, Encounter.outcome,
      decide_eq_true_eq]
  | refused => rfl
  | timedOut => rfl
  | dropped => rfl

/-- **The whole loop.** It makes as many repetitions as it is asked for and still allowed. -/
theorem send_eq (attempt : Nat) (owed : Duration) (script : List Encounter) :
    send policy request url origin attempt owed script
      = { outcome := (meets script (min (leading script) (policy.maxRetries - attempt))).outcome url
          sent := (List.range (min (min (leading script) (policy.maxRetries - attempt) + 1)
              script.length)).map fun i => ⟨request, pauseBefore policy attempt owed script i⟩
          portal := ⟨origin,
            script.drop (min (leading script) (policy.maxRetries - attempt) + 1)⟩ } := by
  -- along the script, for every counter and every pause that is owed
  induction script generalizing attempt owed with
  | nil =>
    rw [send, List.drop_nil]
    rfl
  | cons met rest ih =>
    rw [send_cons]
    by_cases hretry : met.isRateLimited ∧ attempt < policy.maxRetries
    · obtain ⟨hmet, hlt⟩ := hretry
      rw [if_pos ⟨hmet, hlt⟩, ih, leading_cons_of_pos hmet]
      -- the repetitions behind this request are those of the rest, with one retry less to go
      have hrepeat : min (leading rest + 1) (policy.maxRetries - attempt)
          = min (leading rest) (policy.maxRetries - (attempt + 1)) + 1 := by omega
      rw [hrepeat, Exchange.after]
      generalize min (leading rest) (policy.maxRetries - (attempt + 1)) = n
      have hrange : min (n + 1 + 1) (met :: rest).length = min (n + 1) rest.length + 1 := by
        rw [List.length_cons, Nat.succ_min_succ]
      rw [hrange, List.range_succ_eq_map, List.map_cons, List.map_map, List.drop_succ_cons]
      congr 2
      refine List.map_congr_left fun i _ => ?_
      rw [Function.comp_apply, Nat.succ_eq_add_one, pauseBefore_cons]
    · have hrepeat : min (leading (met :: rest)) (policy.maxRetries - attempt) = 0 := by
        by_cases hmet : met.isRateLimited
        · have : ¬ attempt < policy.maxRetries := fun hlt => hretry ⟨hmet, hlt⟩
          omega
        · rw [leading_cons_of_neg hmet, Nat.zero_min]
      rw [if_neg hretry, hrepeat]
      have hrange : min (0 + 1) (met :: rest).length = 1 := by simp
      rw [hrange]
      rfl

/-! ## The counter -/

def bump? (n : Nat) : Option Nat := if n + 1 < Text.Decimal.limit32 then some (n + 1) else none

/-- `Client.send` with a counter of 32 bits: a retry that it cannot count comes to nothing. -/
def sendCounted : Nat → Duration → List Encounter → Option Exchange
  | attempt, owed, .answer a :: rest =>
    match a.verdict attempt policy.maxRetries with
    | .ok (.retry after) =>
      (bump? attempt).bind fun next =>
        (sendCounted next (policy.wait attempt after) rest).map (.after ⟨request, owed⟩)
    | _ => some (send policy request url origin attempt owed (.answer a :: rest))
  | attempt, owed, .cut a :: rest =>
    if a.status = 429 ∧ attempt < policy.maxRetries then
      (bump? attempt).bind fun next =>
        (sendCounted next (policy.wait attempt a.retrySeconds) rest).map (.after ⟨request, owed⟩)
    else some (send policy request url origin attempt owed (.cut a :: rest))
  | attempt, owed, script => some (send policy request url origin attempt owed script)

/-- **The counter never passes its width**, since a retry is made only below the number of retries
allowed, which is a number of that width. -/
theorem sendCounted_eq_send (h : policy.maxRetries < Text.Decimal.limit32) (attempt : Nat)
    (owed : Duration) (script : List Encounter) :
    sendCounted policy request url origin attempt owed script
      = some (send policy request url origin attempt owed script) := by
  -- along the script; the counter is below the bound wherever it moves
  induction script generalizing attempt owed with
  | nil => rfl
  | cons met rest ih =>
    cases met with
    | answer a =>
      rw [sendCounted, send_cons, a.verdict_eq]
      by_cases hretry : a.isRateLimited ∧ attempt < policy.maxRetries
      · -- the retry is below the number allowed, so the counter has room for it
        have hbump : bump? attempt = some (attempt + 1) := if_pos (by omega)
        rw [if_pos hretry]
        refine Eq.trans ?_ (congrArg some (if_pos hretry).symm)
        show (bump? attempt).bind _ = _
        rw [hbump, Option.bind_some, ih]
        rfl
      · rw [if_neg hretry]
        cases a.result <;> rfl
    | cut a =>
      rw [sendCounted, send]
      by_cases hretry : a.status = 429 ∧ attempt < policy.maxRetries
      · have hbump : bump? attempt = some (attempt + 1) := if_pos (by omega)
        rw [if_pos hretry, if_pos hretry, hbump, Option.bind_some, ih]
        rfl
      · rw [if_neg hretry, if_neg hretry]
    | refused => rfl
    | timedOut => rfl
    | dropped => rfl

end
end Client

/-! ## The law -/

/-- **What a search owes its portal and its caller**, once it knows where to send the request. -/
structure RetryLaw (policy : RetryPolicy) (request : Request) (url : String) (portal : Portal)
    (x : Exchange) : Prop where
  /-- One request and its repetitions, all alike, each behind the wait for the answer before it and
  the first behind none. A request that the portal has nothing left for does not reach it. -/
  sent : x.sent = (List.range (min (portal.repetitions policy + 1) portal.script.length)).map
    fun i => ⟨request, Client.pauseBefore policy 0 .zero portal.script i⟩
  /-- A request is repeated only behind a rate-limited answer. -/
  asked : ∀ i < portal.repetitions policy, (Portal.meets portal.script i).isRateLimited
  /-- What the last request met, read for itself, is the outcome. -/
  outcome : x.outcome = (Portal.meets portal.script (portal.repetitions policy)).outcome url
  /-- The search gives up exactly if it is asked for more patience than it has, in an answer that
  can be read, and says how long this last answer asked it to wait. -/
  gaveUp : ∀ s, x.outcome = .error (.refused (.rateLimited s)) ↔
    policy.maxRetries < Portal.leading portal.script
      ∧ (Portal.meets portal.script (portal.repetitions policy)).isCut = false
      ∧ (Portal.meets portal.script (portal.repetitions policy)).retrySeconds = s
  /-- The request is lost exactly if the connection of the last one ends without an answer, or the
  body of its answer cannot be read. -/
  lost : ∀ f, x.outcome = .error (.request f) ↔
    Portal.meets portal.script (portal.repetitions policy) = .dropped ∧ f = .dropped url ∨
      (Portal.meets portal.script (portal.repetitions policy)).isCut ∧ f = .bodyLost url
  /-- What it did not use of the script is still there. -/
  rest : x.portal = ⟨portal.origin, portal.script.drop (portal.repetitions policy + 1)⟩
  /-- Counting in 32 bits comes to the same. -/
  counted : policy.maxRetries < Text.Decimal.limit32 →
    Client.sendCounted policy request url portal.origin 0 .zero portal.script = some x

namespace Client

open Portal

/-- The last request of a search meets a rate-limited answer exactly if there are more of them than
the search may retry: the answer behind the leading ones is none. -/
theorem isRateLimited_last_iff (portal : Portal) (policy : RetryPolicy) :
    (meets portal.script (portal.repetitions policy)).isRateLimited
      ↔ policy.maxRetries < leading portal.script := by
  unfold repetitions
  constructor
  · intro h
    refine Nat.lt_of_not_le fun hle => ?_
    rw [Nat.min_eq_left hle] at h
    exact not_isRateLimited_leading portal.script h
  · intro h
    rw [Nat.min_eq_right (Nat.le_of_lt h)]
    exact isRateLimited_of_lt_leading h

theorem send_retryLaw (policy : RetryPolicy) (request : Request) (url : String) (portal : Portal) :
    RetryLaw policy request url portal
      (send policy request url portal.origin 0 .zero portal.script) := by
  have hsend := send_eq policy request url portal.origin 0 .zero portal.script
  -- the loop as a search enters it: nothing is counted yet, and no pause is owed
  have houtcome : (send policy request url portal.origin 0 .zero portal.script).outcome
      = (meets portal.script (portal.repetitions policy)).outcome url :=
    congrArg Exchange.outcome hsend
  exact
    { sent := congrArg Exchange.sent hsend
      asked := fun i hi => isRateLimited_of_lt_leading (Nat.lt_of_lt_of_le hi (Nat.min_le_left _ _))
      outcome := houtcome
      gaveUp := fun s => by
        rw [houtcome, Encounter.outcome_eq_rateLimited_iff, isRateLimited_last_iff]
      lost := fun f => by rw [houtcome, Encounter.outcome_eq_request_iff]
      rest := congrArg Exchange.portal hsend
      counted := fun h => sendCounted_eq_send policy request url portal.origin h 0 .zero _ }

/-- Where a query leads: to an address, or nowhere. -/
def route (q : Query) (portal : Portal) : Except SearchError Url :=
  match q.connection.endpoint with
  | none => .error .missingEndpoint
  | some endpoint =>
    match Url.parse? (searchAddress endpoint) with
    | none => .error (.request .badAddress)
    | some url =>
      if !url.isHttp then .error (.request (.badScheme (String.ofList url.write)))
      else if url.origin ≠ portal.origin then .error (.unreachable (String.ofList url.write))
      else .ok url

theorem route_of_no_address {q : Query} {portal : Portal} (endpoint : String)
    (hendpoint : q.connection.endpoint = some endpoint)
    (hparse : Url.parse? (searchAddress endpoint) = none) :
    route q portal = .error (.request .badAddress) := by
  unfold route
  rw [hendpoint]
  simp only [hparse]

theorem route_of_address {q : Query} {portal : Portal} {url : Url} (endpoint : String)
    (hendpoint : q.connection.endpoint = some endpoint)
    (hparse : Url.parse? (searchAddress endpoint) = some url) (hhttp : url.isHttp)
    (horigin : url.origin = portal.origin) : route q portal = .ok url := by
  unfold route
  rw [hendpoint]
  simp [hparse, hhttp, horigin]

theorem search_eq (client : Client) (q : Query) (portal : Portal) :
    client.search q portal
      = match route q portal with
        | .error e => .unsent e portal
        | .ok url => send client.policy (requestOf q url) (String.ofList url.write) portal.origin 0
            .zero portal.script := by
  unfold search searchAt route
  cases q.connection.endpoint with
  | none => rfl
  | some endpoint =>
    dsimp only
    cases Url.parse? (searchAddress endpoint) with
    | none => rfl
    | some url =>
      dsimp only
      split
      · rfl
      · split <;> rfl

/-! ## Searches -/

section
variable (client : Client) {q : Query} {portal : Portal}

theorem search_of_no_endpoint (h : q.connection.endpoint = none) :
    client.search q portal = .unsent .missingEndpoint portal := by
  rw [search, h]

/-- A query that leads nowhere sends nothing. -/
theorem search_astray {e : SearchError} (h : route q portal = .error e) :
    client.search q portal = .unsent e portal := by
  rw [search_eq, h]

/-- **A query that leads to an address** is sent there by the retry law. -/
theorem retryLaw_of_route {url : Url} (h : route q portal = .ok url) :
    RetryLaw client.policy (requestOf q url) (String.ofList url.write) portal
      (client.search q portal) := by
  rw [search_eq, h]
  exact send_retryLaw client.policy (requestOf q url) (String.ofList url.write) portal

end

/-- **Every search follows the retry law.** One without an endpoint sends nothing and says so, one
that leads nowhere sends nothing and says why, and every other keeps to `RetryLaw`, whatever the
portal answers and however many retries are allowed. -/
theorem search_retryLaw (client : Client) (q : Query) (portal : Portal) :
    (q.connection.endpoint = none → client.search q portal = .unsent .missingEndpoint portal) ∧
      (∀ e, route q portal = .error e → client.search q portal = .unsent e portal) ∧
        ∀ url, route q portal = .ok url →
          RetryLaw client.policy (requestOf q url) (String.ofList url.write) portal
            (client.search q portal) :=
  ⟨fun hnone => client.search_of_no_endpoint hnone, fun _ hroute => client.search_astray hroute,
    fun _ hroute => client.retryLaw_of_route hroute⟩

/-- A portal that asks for patience twice, the second time in an answer that breaks off, and then
drops the connection, and three queries: one finds it, one has an endpoint that is no address, and
one has none. -/
theorem search_retryLaw_sample :
    let portal : Portal := ⟨⟨"http".toList, some "portal.test".toList, none⟩,
      [.answer ⟨429, none, []⟩, .cut ⟨429, none, []⟩, .dropped, .refused]⟩
    let url : Url := ⟨portal.origin, "/search".toList, none, none⟩
    let query := fun endpoint => Query.compile .empty .unset ⟨endpoint, none⟩
    let x := Client.standard.search (query (some "http://portal.test/")) portal
    RetryLaw .standard (requestOf (query (some "http://portal.test/")) url)
        (String.ofList url.write) portal x ∧ x.sent.length = 3 ∧
      x.outcome = .error (.request (.dropped "http://portal.test/search")) ∧
      Client.standard.search (query (some "portal")) portal
        = .unsent (.request .badAddress) portal ∧
      Client.standard.search (query none) portal = .unsent .missingEndpoint portal := by
  intro portal url query x
  have hroute : route (query (some "http://portal.test/")) portal = .ok url :=
    route_of_address "http://portal.test/" (by decide) (by decide +kernel) rfl rfl
  have hastray : route (query (some "portal")) portal = .error (.request .badAddress) :=
    route_of_no_address "portal" (by decide) (by decide +kernel)
  have hlaw :=
    (search_retryLaw .standard (query (some "http://portal.test/")) portal).2.2 url hroute
  refine ⟨hlaw, ?_, (hlaw.lost _).mpr (.inl ⟨by decide, by decide⟩),
    (search_retryLaw .standard (query (some "portal")) portal).2.1 _ hastray,
    (search_retryLaw .standard (query none) portal).1 (by decide)⟩
  -- two answers ask for patience, so there are three requests
  rw [hlaw.sent, List.length_map, List.length_range]
  decide

/-- **Where the retry law ends.** An endpoint that is no address is never asked, not even once; and
a search that meets one answer with status 429, and has no retry left, does not say that it was
rate-limited if that answer breaks off. -/
theorem lost_for_all_its_patience :
    let portal : Portal := ⟨⟨"http".toList, some "portal.test".toList, none⟩,
      [.cut ⟨429, none, []⟩]⟩
    let client : Client :=
      { Client.standard with policy := { RetryPolicy.standard with maxRetries := 0 } }
    let query := fun endpoint => Query.compile .empty .unset ⟨some endpoint, none⟩
    let x := client.search (query "http://portal.test/") portal
    (client.search (query "foo") portal).sent = [] ∧
      client.policy.maxRetries < Portal.leading portal.script ∧
      x.sent.length = 1 ∧
      x.outcome = .error (.request (.bodyLost "http://portal.test/search")) := by
  intro portal client query x
  let url : Url := ⟨portal.origin, "/search".toList, none, none⟩
  have hroute : route (query "http://portal.test/") portal = .ok url :=
    route_of_address "http://portal.test/" (by decide) (by decide +kernel) rfl rfl
  have hastray : route (query "foo") portal = .error (.request .badAddress) :=
    route_of_no_address "foo" (by decide) (by decide +kernel)
  have hwrite : String.ofList url.write = "http://portal.test/search" := by decide
  have hx : x = send client.policy (requestOf (query "http://portal.test/") url)
      (String.ofList url.write) portal.origin 0 .zero portal.script := by
    show client.search _ portal = _
    rw [search_eq, hroute]
  rw [search_eq, hastray, hx, hwrite]
  exact ⟨rfl, by decide, rfl, rfl⟩

end Client
end ContentSearch
