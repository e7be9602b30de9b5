import ContentSearch.Proofs.Program.Failure

/-!
# Codes and statuses

Whoever runs the program from another program can look at the status that it ends with, or at the
code in the error that it prints. Both are read off the same failure, each from a table of its own.
The tables go together for every failure but one: a request that is *lost*, because its endpoint is
no address of the web, because the connection ends without an answer or because the body of the
answer cannot be read, has the status of network trouble, and the code of a portal that answered
with an error (**`ProgramError.mem_statuses`**).

So a code tells the status wherever no request was lost. Whether one is lost can be said without
looking at the failure: it is where the search leads to, or what the last of its requests meets
(**`Client.loses_iff`**). With that, two failing runs that report the same code end with the same
status exactly if both lose their requests or neither does (**`Execution.code_tells_status`**).

Every way for a run to end with an error is gone through once, in `Invocation.run_local`: whatever
is no search fails without a portal. What is left is a search that has its query, and its error is
that of the client (`Invocation.isLost_iff_loses`).

A status does not tell the code. It tells the kind: what no portal has a part in, what a portal
refused, what the network did, and the rate limit (`ProgramError.exitStatus_eq_one_iff` and the
three beside it).
-/

set_option autoImplicit false

namespace ContentSearch

/-! ## The tables -/

namespace ProgramError

/-- A request that did not get through, or got no answer that can be read. -/
def IsLost (e : ProgramError) : Prop := ∃ f met, e = .search (.request f) met

/-- The codes of failures that no portal has a part in. -/
def localCodes : List String := ["CONFIG_ERROR", "FILTER_ERROR", "IO_ERROR", "JSON_ERROR"]

/-- The codes of failures that a portal has a part in, other than those of the network and of its
rate limit. -/
def portalCodes : List String := ["MISSING_PORTAL", "AUTH_ERROR", "INVALID_QUERY", "API_ERROR"]

/-- Every code, with the status that goes with it. -/
def statuses : List (String × Nat) :=
  localCodes.map (·, 1) ++ portalCodes.map (·, 2) ++ [("NETWORK_ERROR", 3), ("RATE_LIMITED", 4)]

theorem statuses_agree :
    ∀ p ∈ statuses, (p.2 = 1 ↔ p.1 ∈ localCodes) ∧ (p.2 = 2 ↔ p.1 ∈ portalCodes)
      ∧ (p.2 = 3 ↔ p.1 = "NETWORK_ERROR") ∧ (p.2 = 4 ↔ p.1 = "RATE_LIMITED") := by
  decide

theorem statuses_functional : ∀ p ∈ statuses, ∀ q ∈ statuses, p.1 = q.1 → p.2 = q.2 := by
  decide

theorem code_of_isLost {e : ProgramError} (h : e.IsLost) : e.code = "API_ERROR" := by
  obtain ⟨f, met, rfl⟩ := h
  rfl

theorem exitStatus_of_isLost {e : ProgramError} (h : e.IsLost) : e.exitStatus = 3 := by
  obtain ⟨f, met, rfl⟩ := h
  rfl

/-- **Code and status of a failure go together**, unless a request was lost. -/
theorem mem_statuses {e : ProgramError} (h : ¬ e.IsLost) : (e.code, e.exitStatus) ∈ statuses := by
  -- one case for each line of the table, and one that is not in it
  cases e with
  | search e met =>
    cases e with
    | refused r =>
      cases r <;> simp [statuses, localCodes, portalCodes, code, searchCode, exitStatus,
        SearchError.exitStatus, Refusal.exitStatus]
    | missingEndpoint => simp [statuses, localCodes, portalCodes, code, searchCode, exitStatus,
        SearchError.exitStatus]
    | request f => exact absurd ⟨f, met, rfl⟩ h
    | unreadable => simp [statuses, localCodes, portalCodes, code, searchCode, exitStatus,
        SearchError.exitStatus]
  | settings e => simp [statuses, localCodes, code, exitStatus]
  | filter e => simp [statuses, localCodes, code, exitStatus]
  | input f => simp [statuses, localCodes, code, exitStatus]

section
variable {e e' : ProgramError}

theorem exitStatus_eq_one_iff (e : ProgramError) : e.exitStatus = 1 ↔ e.code ∈ localCodes := by
  by_cases hlost : e.IsLost
  · rw [exitStatus_of_isLost hlost, code_of_isLost hlost]
    decide
  · exact (statuses_agree _ (mem_statuses hlost)).1

theorem exitStatus_eq_two_iff (e : ProgramError) :
    e.exitStatus = 2 ↔ e.code ∈ portalCodes ∧ ¬ e.IsLost := by
  by_cases hlost : e.IsLost
  · rw [exitStatus_of_isLost hlost]
    exact ⟨fun h => absurd h (by decide), fun h => absurd hlost h.2⟩
  · rw [(statuses_agree _ (mem_statuses hlost)).2.1]
    exact ⟨fun h => ⟨h, hlost⟩, fun h => h.1⟩

theorem exitStatus_eq_three_iff (e : ProgramError) :
    e.exitStatus = 3 ↔ e.code = "NETWORK_ERROR" ∨ e.IsLost := by
  by_cases hlost : e.IsLost
  · exact ⟨fun _ => .inr hlost, fun _ => exitStatus_of_isLost hlost⟩
  · rw [(statuses_agree _ (mem_statuses hlost)).2.2.1]
    exact ⟨.inl, fun h => h.resolve_right hlost⟩

theorem exitStatus_eq_four_iff (e : ProgramError) : e.exitStatus = 4 ↔ e.code = "RATE_LIMITED" := by
  by_cases hlost : e.IsLost
  · rw [exitStatus_of_isLost hlost, code_of_isLost hlost]
    decide
  · exact (statuses_agree _ (mem_statuses hlost)).2.2.2

/-- A lost request lends its code to failures of another status. -/
theorem exitStatus_ne_of_isLost (hlost : e.IsLost) (hlost' : ¬ e'.IsLost)
    (hcode : e.code = e'.code) : e.exitStatus ≠ e'.exitStatus := by
  intro hsame
  rw [exitStatus_of_isLost hlost] at hsame
  -- the only other code with this status is that of the network, and it is not the code at hand
  have hnetwork : e'.code = "NETWORK_ERROR" :=
    ((exitStatus_eq_three_iff e').mp hsame.symm).resolve_right hlost'
  rw [code_of_isLost hlost, hnetwork] at hcode
  exact absurd hcode (by decide)

/-- **Failures with the same code** have the same status exactly if they are alike in whether a
request was lost. -/
theorem exitStatus_eq_iff (hcode : e.code = e'.code) :
    e.exitStatus = e'.exitStatus ↔ (e.IsLost ↔ e'.IsLost) := by
  by_cases hlost : e.IsLost
  · by_cases hlost' : e'.IsLost
    · have hsame : e.exitStatus = e'.exitStatus := by
        rw [exitStatus_of_isLost hlost, exitStatus_of_isLost hlost']
      exact ⟨fun _ => ⟨fun _ => hlost', fun _ => hlost⟩, fun _ => hsame⟩
    · exact ⟨fun h => absurd h (exitStatus_ne_of_isLost hlost hlost' hcode),
        fun h => absurd (h.mp hlost) hlost'⟩
  · by_cases hlost' : e'.IsLost
    · exact ⟨fun h => absurd h.symm (exitStatus_ne_of_isLost hlost' hlost hcode.symm),
        fun h => absurd (h.mpr hlost') hlost⟩
    · have hsame : e.exitStatus = e'.exitStatus :=
        statuses_functional _ (mem_statuses hlost) _ (mem_statuses hlost') hcode
      exact ⟨fun _ => ⟨fun h => absurd h hlost, fun h => absurd h hlost'⟩, fun _ => hsame⟩

end
end ProgramError

/-! ## Lost requests -/

namespace Client

/-- A search that loses its request: the endpoint is no address, or none of the web, or the
connection of the last of its requests ends without an answer, or the body of the last answer cannot
be read. -/
inductive Loses (client : Client) (q : Query) (portal : Portal) : Prop
  | astray {endpoint : String} (hendpoint : q.connection.endpoint = some endpoint)
      (haddress : ∀ url, Url.parse? (searchAddress endpoint) = some url → url.isHttp = false)
  | dropped {url : Url} (hroute : route q portal = .ok url)
      (hmet : Portal.meets portal.script (portal.repetitions client.policy) = .dropped)
  | cut {url : Url} (hroute : route q portal = .ok url) {a : Answer}
      (hmet : Portal.meets portal.script (portal.repetitions client.policy) = .cut a)

/-- A query leads to no address of the web exactly if its endpoint is none. -/
theorem route_eq_request_iff (q : Query) (portal : Portal) :
    (∃ f, route q portal = .error (.request f)) ↔
      ∃ endpoint, q.connection.endpoint = some endpoint ∧
        ∀ url, Url.parse? (searchAddress endpoint) = some url → url.isHttp = false := by
  unfold route
  cases q.connection.endpoint with
  | none => exact ⟨nofun, nofun⟩
  | some endpoint =>
    dsimp only
    cases hparse : Url.parse? (searchAddress endpoint) with
    | none => exact ⟨fun _ => ⟨endpoint, rfl, fun url hurl => by simp [hparse] at hurl⟩,
        fun _ => ⟨_, rfl⟩⟩
    | some url =>
      dsimp only
      -- an address of the web may still be another portal's, which loses no request
      by_cases hhttp : url.isHttp = false
      · rw [if_pos (by simp [hhttp])]
        refine ⟨fun _ => ⟨endpoint, rfl, fun url' hurl => ?_⟩, fun _ => ⟨_, rfl⟩⟩
        rw [hparse] at hurl
        exact Option.some.inj hurl ▸ hhttp
      · rw [if_neg (by simpa using hhttp)]
        constructor
        · rintro ⟨f, hf⟩
          split at hf <;> cases hf
        · rintro ⟨endpoint', hendpoint, haddress⟩
          cases hendpoint
          exact absurd (haddress url hparse) hhttp

/-- **A search ends with a lost request exactly if it loses one.** -/
theorem loses_iff (client : Client) (q : Query) (portal : Portal) :
    client.Loses q portal ↔ ∃ f, (client.search q portal).outcome = .error (.request f) := by
  -- Nothing is sent on a route that leads astray; on any other one the retry law says which last
  -- encounters lose a request.
  constructor
  · rintro (⟨hendpoint, haddress⟩ | ⟨hroute, hmet⟩ | ⟨hroute, hmet⟩)
    · obtain ⟨f, hf⟩ := (route_eq_request_iff q portal).mpr ⟨_, hendpoint, haddress⟩
      rw [client.search_astray hf]
      exact ⟨f, rfl⟩
    · rw [(client.retryLaw_of_route hroute).outcome, hmet]
      exact ⟨_, rfl⟩
    · rw [(client.retryLaw_of_route hroute).outcome, hmet]
      exact ⟨_, rfl⟩
  · rintro ⟨f, hf⟩
    cases hroute : route q portal with
    | error e =>
      rw [client.search_astray hroute] at hf
      cases hf
      obtain ⟨endpoint, hendpoint, haddress⟩ := (route_eq_request_iff q portal).mp ⟨f, hroute⟩
      exact .astray hendpoint haddress
    | ok url =>
      rcases ((client.retryLaw_of_route hroute).lost f).mp hf with ⟨hmet, -⟩ | ⟨hcut, -⟩
      · exact .dropped hroute hmet
      · obtain ⟨a, hmet⟩ := Encounter.isCut_iff.mp hcut
        exact .cut hroute hmet

/-- A search whose first request is not asked for patience is over with it. -/
theorem search_of_first (client : Client) {q : Query} {portal : Portal} {url : Url}
    (hroute : route q portal = .ok url) {met : Encounter} {rest : List Encounter}
    (hscript : portal.script = met :: rest) (hmet : ¬ met.isRateLimited) :
    client.search q portal = ⟨met.outcome (String.ofList url.write), [⟨requestOf q url, .zero⟩],
      ⟨portal.origin, rest⟩⟩ := by
  rw [search_eq, hroute]
  dsimp only
  rw [hscript, send_cons, if_neg fun h => hmet h.1]

end Client

/-! ## Runs -/

namespace ProgramError

theorem settings_local (e : SettingsError) : (settings e).code ∈ localCodes := by
  simp [code, localCodes]

theorem filter_local (e : FilterError) : (filter e).code ∈ localCodes := by
  simp [code, localCodes]

theorem input_local (f : FileFault) : (input f).code ∈ localCodes := by
  simp [code, localCodes]

theorem not_isLost_of_local {e : ProgramError} (h : e.code ∈ localCodes) : ¬ e.IsLost := by
  intro hlost
  rw [code_of_isLost hlost] at h
  exact absurd h (by decide)

end ProgramError

section
variable {around : Surroundings} {e : ProgramError}

theorem Surroundings.settingsPath_local (h : around.settingsPath = .error e) :
    e.code ∈ ProgramError.localCodes := by
  unfold settingsPath at h
  split at h
  · cases h
  · cases h
    exact ProgramError.settings_local _

theorem Surroundings.filterText_local {path : String} (h : around.filterText path = .error e) :
    e.code ∈ ProgramError.localCodes := by
  unfold filterText at h
  split at h
  · split at h
    · cases h
    · cases h
      exact ProgramError.input_local _
  · split at h
    · cases h
    · cases h
      exact ProgramError.filter_local _

theorem Surroundings.filterAt_local {path : Option String} (h : around.filterAt path = .error e) :
    e.code ∈ ProgramError.localCodes := by
  unfold filterAt at h
  split at h
  · cases h
  · split at h
    · rename_i htext
      cases h
      exact filterText_local htext
    · split at h
      · cases h
      · cases h
        exact ProgramError.filter_local _

theorem QueryArguments.compiled_local {q : QueryArguments} {i : Invocation}
    (h : q.compiled i around = .error e) : e.code ∈ ProgramError.localCodes := by
  unfold compiled at h
  split at h
  · cases h
    exact ProgramError.settings_local _
  · split at h
    · rename_i hfilter
      cases h
      exact Surroundings.filterAt_local hfilter
    · cases h

end

namespace Invocation

variable {i : Invocation} {around : Surroundings} {e : ProgramError}

/-- An invocation that loses the request of its search. -/
def Loses (i : Invocation) (around : Surroundings) : Prop :=
  ∃ args query settings, i.task = .search args ∧ args.compiled i around = .ok (query, settings) ∧
    settings.client.Loses query around.portal

theorem loses_iff_of_search {q : QueryArguments} (htask : i.task = .search q) :
    i.Loses around ↔ ∃ query settings, q.compiled i around = .ok (query, settings) ∧
      settings.client.Loses query around.portal := by
  constructor
  · rintro ⟨q', query, settings, htask', hcompiled, hlost⟩
    cases htask.symm.trans htask'
    exact ⟨query, settings, hcompiled, hlost⟩
  · rintro ⟨query, settings, hcompiled, hlost⟩
    exact ⟨q, query, settings, htask, hcompiled, hlost⟩

/-- **No portal has a part in what is no search.** -/
theorem run_local (hother : ∀ q, i.task ≠ .search q) (h : (i.run around).outcome = .error e) :
    e.code ∈ ProgramError.localCodes := by
  unfold run at h
  -- task by task: the error comes from the settings file, from the filter or from a file that is
  -- read
  cases htask : i.task with
  | search q => exact absurd htask (hother q)
  | compile q =>
    rw [htask] at h
    dsimp only [runCompile, Run.quietly] at h
    split at h
    · rename_i hcompiled
      cases h
      exact QueryArguments.compiled_local hcompiled
    · cases h
  | showSettings =>
    rw [htask] at h
    dsimp only [runShow, Run.quietly] at h
    split at h
    · rename_i hpath
      cases h
      exact Surroundings.settingsPath_local hpath
    · split at h
      · cases h
        exact ProgramError.settings_local _
      · cases h
  | showSettingsPath =>
    rw [htask] at h
    dsimp only [Run.quietly] at h
    split at h
    · rename_i hpath
      cases h
      exact Surroundings.settingsPath_local hpath
    · cases h
  | changeSetting key value =>
    rw [htask] at h
    dsimp only [runChange] at h
    split at h
    · rename_i hpath
      cases h
      exact Surroundings.settingsPath_local hpath
    · dsimp only at h
      split at h
      · cases h
      · cases h
        exact ProgramError.settings_local _
  | _ =>
    rw [htask] at h
    cases h

/-- **A run fails with a lost request exactly if it loses one.** -/
theorem isLost_iff_loses (h : (i.run around).outcome = .error e) : e.IsLost ↔ i.Loses around := by
  -- A search fails before there is a query, or as its client does. What is no search cannot lose
  -- one.
  by_cases hsearch : ∃ q, i.task = .search q
  · obtain ⟨q, htask⟩ := hsearch
    rw [loses_iff_of_search htask]
    cases hcompiled : q.compiled i around with
    | error e' =>
      -- the run ends before there is a query
      rw [run_search_error htask hcompiled] at h
      cases h
      have hnot := ProgramError.not_isLost_of_local (QueryArguments.compiled_local hcompiled)
      refine ⟨fun hlost => absurd hlost hnot, ?_⟩
      rintro ⟨query, settings, hfound, -⟩
      cases hfound
    | ok found =>
      obtain ⟨query, settings⟩ := found
      rw [run_search htask hcompiled] at h
      dsimp only at h
      split at h
      · cases h
      · rename_i hfailed
        cases h
        constructor
        · rintro ⟨f, met, hf⟩
          cases hf
          exact ⟨query, settings, rfl, (Client.loses_iff ..).mpr ⟨f, hfailed⟩⟩
        · rintro ⟨query', settings', hfound, hlost⟩
          cases hfound
          obtain ⟨f, hf⟩ := (Client.loses_iff ..).mp hlost
          rw [hfailed] at hf
          cases hf
          exact ⟨f, _, rfl⟩
  · have hlocal := run_local (fun q htask => hsearch ⟨q, htask⟩) h
    refine ⟨fun hlost => absurd hlost (ProgramError.not_isLost_of_local hlocal), ?_⟩
    rintro ⟨q, -, -, htask, -⟩
    exact absurd ⟨q, htask⟩ hsearch

end Invocation

/-! ## Executions -/

/-- A failing program: its command line leads to a run, and that ends with an error. -/
structure Execution.Fails (words : List String) (around : Surroundings) (i : Invocation)
    (e : ProgramError) : Prop where
  words : Invocation.ofWords around.environment words = .ok i
  outcome : (i.run around).outcome = .error e

/-- What the status and the code of a failing program say of it. -/
structure Execution.Coded (i : Invocation) (around : Surroundings) (e : ProgramError)
    (x : Execution) : Prop where
  /-- The code is what the program reports, where it is asked for JSON. -/
  reported : i.json = true → ∃ message, Json.Value.parse? x.ending.errorOutput
    = some (.object [("error", .object [("code", .string e.code), ("message", .string message)])])
  known : e.code ∈ ProgramError.statuses.map Prod.fst
  /-- Code and status stand in the table together, unless a request was lost. -/
  together : (e.code, x.ending.status) ∈ ProgramError.statuses ↔ ¬ i.Loses around
  inOurselves : x.ending.status = 1 ↔ e.code ∈ ProgramError.localCodes
  atThePortal : x.ending.status = 2 ↔ e.code ∈ ProgramError.portalCodes ∧ ¬ i.Loses around
  onTheWay : x.ending.status = 3 ↔ e.code = "NETWORK_ERROR" ∨ i.Loses around
  rateLimited : x.ending.status = 4 ↔ e.code = "RATE_LIMITED"
  lost : i.Loses around → e.code = "API_ERROR"

theorem Execution.Fails.ending {words : List String} {around : Surroundings} {i : Invocation}
    {e : ProgramError} (h : Fails words around i e) :
    (ofWords words around).ending = .ofOutcome around.wording i.json (.error e) := by
  rw [ofWords_eq h.words, h.outcome]

theorem Execution.Fails.coded {words : List String} {around : Surroundings} {i : Invocation}
    {e : ProgramError} (h : Fails words around i e) : Coded i around e (ofWords words around) := by
  have hloses : e.IsLost ↔ i.Loses around := Invocation.isLost_iff_loses h.outcome
  have hstatus : (ofWords words around).ending.status = e.exitStatus := by
    rw [h.ending]
    rfl
  refine
    { reported := fun hjson => ⟨e.message around.wording, ?_⟩
      known := ?_
      together := ?_
      inOurselves := by rw [hstatus, e.exitStatus_eq_one_iff]
      atThePortal := by rw [hstatus, e.exitStatus_eq_two_iff, hloses]
      onTheWay := by rw [hstatus, e.exitStatus_eq_three_iff, hloses]
      rateLimited := by rw [hstatus, e.exitStatus_eq_four_iff]
      lost := fun hlost => ProgramError.code_of_isLost (hloses.mpr hlost) }
  · rw [h.ending, hjson]
    exact (Ending.parse?_failureText around.wording e).2
  · by_cases hlost : e.IsLost
    · rw [ProgramError.code_of_isLost hlost]
      decide
    · exact List.mem_map_of_mem (ProgramError.mem_statuses hlost)
  · -- a lost request is the only failure that stands outside the table
    rw [hstatus, ← hloses]
    refine ⟨fun htable hlost => ?_, ProgramError.mem_statuses⟩
    rw [ProgramError.code_of_isLost hlost, ProgramError.exitStatus_of_isLost hlost] at htable
    exact absurd htable (by decide)

/-- Surroundings with a portal that has this in store for the requests of a program. -/
def Surroundings.facing (script : List Encounter) : Surroundings :=
  ⟨[("HS_CONFIG", "settings"), ("HS_PORTAL", "http://portal.test")], none, .empty, [],
    ⟨⟨"http".toList, some "portal.test".toList, none⟩, script⟩, .usual⟩

/-- A search in such surroundings fails as its only request does. -/
theorem Execution.fails_facing (met : Encounter) (hmet : ¬ met.isRateLimited) {e : SearchError}
    (he : met.outcome "http://portal.test/search" = .error e) :
    Fails ["search", "--json"] (.facing [met])
      ⟨false, false, true, false, some "http://portal.test", none,
        .search ⟨none, none, none, none, none, none, none⟩⟩ (.search e (some met)) := by
  let args : QueryArguments := ⟨none, none, none, none, none, none, none⟩
  let i : Invocation :=
    ⟨false, false, true, false, some "http://portal.test", none, .search args⟩
  let url : Url := ⟨⟨"http".toList, some "portal.test".toList, none⟩, "/search".toList, none, none⟩
  let query : Query := Query.compile .empty (args.options i) .unset
  have hcompiled : args.compiled i (.facing [met]) = .ok (query, .unset) := by rfl
  have hroute : Client.route query (Surroundings.facing [met]).portal = .ok url :=
    Client.route_of_address "http://portal.test" (by decide) (by decide +kernel) rfl rfl
  have hwrite : String.ofList url.write = "http://portal.test/search" := by decide
  have hsearch := Client.search_of_first (Settings.client .unset) hroute rfl hmet
  rw [hwrite, he] at hsearch
  refine ⟨by rfl, ?_⟩
  rw [Invocation.run_search rfl hcompiled, hsearch]
  rfl

/-- **The code of a failing program tells its status**, and the status tells the kind of the code,
exactly if no request is lost. Two failing programs that report the same code end with the same
status exactly if both lose their requests or neither does. -/
theorem Execution.code_tells_status {words : List String} {around : Surroundings} {i : Invocation}
    {e : ProgramError} (h : Fails words around i e) :
    Coded i around e (ofWords words around) ∧
      ∀ words' around' i' e', Fails words' around' i' e' → e.code = e'.code →
        ((ofWords words around).ending.status = (ofWords words' around').ending.status ↔
          (i.Loses around ↔ i'.Loses around')) := by
  refine ⟨h.coded, ?_⟩
  intro words' around' i' e' h' hcode
  rw [h.ending, h'.ending, ← Invocation.isLost_iff_loses h.outcome,
    ← Invocation.isLost_iff_loses h'.outcome]
  exact ProgramError.exitStatus_eq_iff hcode

/-- An answer with an error, and one that breaks off: they have one code, and the second loses a
request. -/
theorem Execution.code_tells_status_sample :
    ∃ i e e', Fails ["search", "--json"] (.facing [.answer ⟨500, none, []⟩]) i e ∧
      Fails ["search", "--json"] (.facing [.cut ⟨200, none, []⟩]) i e' ∧ e.code = e'.code ∧
      Coded i (.facing [.answer ⟨500, none, []⟩]) e
        (ofWords ["search", "--json"] (.facing [.answer ⟨500, none, []⟩])) ∧
      i.Loses (.facing [.cut ⟨200, none, []⟩]) ∧ ¬ i.Loses (.facing [.answer ⟨500, none, []⟩]) ∧
      (ofWords ["search", "--json"] (.facing [.answer ⟨500, none, []⟩])).ending.status
        ≠ (ofWords ["search", "--json"] (.facing [.cut ⟨200, none, []⟩])).ending.status := by
  have hanswered := fails_facing (.answer ⟨500, none, []⟩) (by decide) (by rfl)
  have hcut := fails_facing (.cut ⟨200, none, []⟩) (by decide) (by rfl)
  obtain ⟨hcoded, hsame⟩ := code_tells_status hanswered
  have hlost := (Invocation.isLost_iff_loses hcut.outcome).mp ⟨_, _, rfl⟩
  have hkept := (Invocation.isLost_iff_loses hanswered.outcome).not.mp nofun
  refine ⟨_, _, _, hanswered, hcut, rfl, hcoded, hlost, hkept, ?_⟩
  -- by the theorem, the statuses agree only if both requests are lost or none is
  rw [Ne, hsame _ _ _ _ hcut rfl]
  exact fun h => hkept (h.mpr hlost)

/-- **`API_ERROR` has two statuses**: that of a portal that answered with an error, and that of a
connection that ended without an answer. -/
theorem Execution.one_code_two_statuses :
    ∃ i e e', Fails ["search", "--json"] (.facing [.answer ⟨500, none, []⟩]) i e ∧
      Fails ["search", "--json"] (.facing [.dropped]) i e' ∧
      e.code = "API_ERROR" ∧ e'.code = "API_ERROR" ∧
      (ofWords ["search", "--json"] (.facing [.answer ⟨500, none, []⟩])).ending.status = 2 ∧
      (ofWords ["search", "--json"] (.facing [.dropped])).ending.status = 3 := by
  have hanswered := fails_facing (.answer ⟨500, none, []⟩) (by decide) (by rfl)
  have hdropped := fails_facing .dropped (by decide) (by rfl)
  refine ⟨_, _, _, hanswered, hdropped, rfl, rfl, ?_, ?_⟩
  · rw [hanswered.ending]
    rfl
  · rw [hdropped.ending]
    rfl

end ContentSearch
