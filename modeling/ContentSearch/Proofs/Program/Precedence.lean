import ContentSearch.Proofs.Program.Codes
import ContentSearch.Proofs.Program.TokenSecrecy
import ContentSearch.Proofs.Text.Blank

/-!
# Which portal, which token

The portal and the token of a query have three sources each: the words of the command line, the
environment, and the settings file. The words come before the environment, and what the two come to
comes before the file if it is not empty (`Connection.chosen`). An empty word is a word: it hides
the environment, and then the file has its turn.

The three are read in different places, and the choice is made in two steps, the first with the
command line and the second with the query. **`Execution.connection_precedence`** puts them together
and follows the two to where they go: the token has no part in the choice of a portal nor the portal
in that of a token, all requests go to one address of the portal that was chosen, and each of them
has the token that was chosen or none.

None of this asks whether the portal that was chosen is one. A text that is no address is chosen
like any other, and the search ends with it; it does not fall back on the next source.
-/

set_option autoImplicit false

namespace ContentSearch

open Text CommandLine

/-- What is chosen among a word, the environment and the settings. -/
def Connection.chosen (word environment setting : Option String) : Option String :=
  ((word.or environment).filter (· ≠ "")).or (setting.filter (· ≠ ""))

/-! ## Searches -/

/-- What a search makes of the connection of its query. -/
structure Client.Follows (client : Client) (q : Query) (portal : Portal) (x : Exchange) : Prop where
  /-- Without an endpoint there is no request. -/
  nowhere : q.connection.endpoint = none → x.sent = [] ∧ x.outcome = .error .missingEndpoint
  /-- The address is the endpoint without slashes at its end, and `/search`. A request that reaches
  the portal was sent to it there. -/
  address : ∀ endpoint, q.connection.endpoint = some endpoint → ∃ base n,
    endpoint.toList = base ++ List.replicate n '/' ∧ base.getLast? ≠ some '/' ∧
      x = client.searchAt q (base ++ "/search".toList) portal ∧
        ∀ s ∈ x.sent, ∃ url, Url.parse? (base ++ "/search".toList) = some url ∧ url.isHttp ∧
          url.origin = portal.origin ∧ s.request.target = String.ofList url.target
  /-- A request has the token of the query as its only one, and none if there is none. -/
  token : ∀ s ∈ x.sent, (Form.decode s.request.body.toList).filter (·.1 = "token")
    = q.token.toList.map ("token", ·)

namespace Client

theorem route_eq_ok {q : Query} {portal : Portal} {url : Url} (h : route q portal = .ok url) :
    ∃ endpoint, q.connection.endpoint = some endpoint ∧
      Url.parse? (searchAddress endpoint) = some url ∧ url.isHttp ∧
        url.origin = portal.origin := by
  unfold route at h
  split at h
  · cases h
  · rename_i endpoint hendpoint
    split at h
    · cases h
    · rename_i url' hparse
      split at h
      · cases h
      · rename_i hhttp
        split at h
        · cases h
        · rename_i horigin
          cases h
          exact ⟨endpoint, hendpoint, hparse, by simpa using hhttp, Decidable.of_not_not horigin⟩

/-- **Every request that reaches the portal** is the one request of the query, at its address. -/
theorem route_of_mem_sent {client : Client} {q : Query} {portal : Portal} {s : Sent}
    (h : s ∈ (client.search q portal).sent) :
    ∃ url, route q portal = .ok url ∧ s.request = requestOf q url := by
  cases hroute : route q portal with
  | error e =>
    rw [client.search_astray hroute] at h
    cases h
  | ok url =>
    refine ⟨url, rfl, ?_⟩
    rw [(client.retryLaw_of_route hroute).sent] at h
    obtain ⟨k, -, rfl⟩ := List.mem_map.mp h
    rfl

theorem filter_token_formBody (q : Query) :
    (Form.decode q.formBody.toList).filter (·.1 = "token") = q.token.toList.map ("token", ·) := by
  rw [Entries.filter_name q.nodup_decode_formBody, Query.find?_decode_formBody]
  rfl

theorem search_follows (client : Client) (q : Query) (portal : Portal) :
    client.Follows q portal (client.search q portal) := by
  -- Without an endpoint nothing is sent. Otherwise every request is that of the route.
  refine ⟨fun hnone => ?_, fun endpoint hendpoint => ?_, fun s hs => ?_⟩
  · rw [client.search_of_no_endpoint hnone]
    exact ⟨rfl, rfl⟩
  · obtain ⟨n, hsplit, hlast⟩ := exists_dropTrailing '/' endpoint.toList
    refine ⟨dropTrailing '/' endpoint.toList, n, hsplit, hlast, ?_, fun s hs => ?_⟩
    · rw [search, hendpoint]
      rfl
    · obtain ⟨url, hroute, hrequest⟩ := route_of_mem_sent hs
      obtain ⟨endpoint', hendpoint', hparse, hhttp, horigin⟩ := route_eq_ok hroute
      cases hendpoint.symm.trans hendpoint'
      exact ⟨url, hparse, hhttp, horigin, by rw [hrequest]; rfl⟩
  · obtain ⟨url, -, hrequest⟩ := route_of_mem_sent hs
    rw [hrequest]
    exact filter_token_formBody q

end Client

/-! ## Queries -/

theorem Query.endpoint_compile (filter : Filter) (options : Options) (service : Connection) :
    (compile filter options service).connection.endpoint
      = (options.connection.endpoint.filter (· ≠ "")).or (service.endpoint.filter (· ≠ "")) :=
  Option.orElse_eq_or

/-- The portal and the token of a compiled query are chosen each on its own. -/
theorem QueryArguments.chosen_of_compiled {words : List String} {around : Surroundings}
    {i : Invocation} {q : QueryArguments} {query : Query} {settings : Settings}
    (hwords : Invocation.ofWords around.environment words = .ok i)
    (hquery : q.compiled i around = .ok (query, settings)) :
    query.connection.endpoint = Connection.chosen (spoken? "portal" words)
        (around.environment.lookup "HS_PORTAL") settings.portal ∧
      query.token = Connection.chosen (spoken? "token" words)
        (around.environment.lookup "HS_TOKEN") settings.token := by
  obtain ⟨-, f, -, rfl⟩ := compiled_eq_ok hquery
  obtain ⟨hportal, htoken⟩ := Invocation.spoken_of_ofWords hwords
  -- a credential is the text in it
  have hsecret : ∀ t : Option String, (t.map Credential.mk).map Credential.secret = t := by
    intro t
    cases t <;> rfl
  refine ⟨?_, ?_⟩
  · rw [Query.endpoint_compile]
    show (i.portal.filter _).or _ = _
    rw [hportal]
    rfl
  · rw [Query.token_compile, Option.orElse_eq_or]
    show (nonEmpty ((i.token.map Credential.mk).map Credential.secret)).or
      (nonEmpty ((settings.token.map Credential.mk).map Credential.secret)) = _
    rw [hsecret, hsecret, htoken]
    rfl

/-! ## The program -/

/-- A compilation that has its query prints it, and sends nothing. -/
theorem Execution.ofWords_compile {words : List String} {around : Surroundings} {i : Invocation}
    (hwords : Invocation.ofWords around.environment words = .ok i) {q : QueryArguments}
    (htask : i.task = .compile q) {query : Query} {settings : Settings}
    (hquery : q.compiled i around = .ok (query, settings)) :
    (ofWords words around).ending
        = ⟨0, Report.query (Style.ofInvocation i around.environment) query, ""⟩ ∧
      (ofWords words around).sent = [] := by
  have hrun : i.run around
      = .quietly around (.ok (Report.query (Style.ofInvocation i around.environment) query)) := by
    unfold Invocation.run
    rw [htask]
    dsimp only
    rw [Invocation.runCompile, hquery]
  rw [ofWords_eq hwords, hrun]
  exact ⟨rfl, rfl⟩

/-- **The words before the environment, and both before the settings**, for the portal and for the
token alike and each on its own, in every program that comes to have a query. A compilation prints
that query. A search sends it to the address of its endpoint and nowhere else, always with its
token, and fails with a code of its own where there is no endpoint, before anything is sent. -/
theorem Execution.connection_precedence :
    ∀ words around i q query settings, Invocation.ofWords around.environment words = .ok i →
      i.task.query? = some q → q.compiled i around = .ok (query, settings) →
        around.settings = .ok settings ∧
        query.connection.endpoint = Connection.chosen (spoken? "portal" words)
          (around.environment.lookup "HS_PORTAL") settings.portal ∧
        query.token = Connection.chosen (spoken? "token" words)
          (around.environment.lookup "HS_TOKEN") settings.token ∧
        (i.task = .compile q → (ofWords words around).ending
            = ⟨0, Report.query (Style.ofInvocation i around.environment) query, ""⟩ ∧
          (ofWords words around).sent = []) ∧
        (i.task = .search q →
          settings.client.Follows query around.portal
            (settings.client.search query around.portal) ∧
          (ofWords words around).sent = (settings.client.search query around.portal).sent ∧
          (query.connection.endpoint = none → (ofWords words around).sent = [] ∧
            ∃ e, Fails words around i e ∧ e.code = "MISSING_PORTAL")) := by
  intro words around i q query settings hwords htask hquery
  obtain ⟨hendpoint, htoken⟩ := QueryArguments.chosen_of_compiled hwords hquery
  refine ⟨(QueryArguments.compiled_eq_ok hquery).1, hendpoint, htoken,
    fun hcompile => ofWords_compile hwords hcompile hquery, fun hsearch => ?_⟩
  have hfollows := Client.search_follows settings.client query around.portal
  have hsent := sent_of_search hwords hsearch hquery
  refine ⟨hfollows, hsent, fun hnone => ?_⟩
  obtain ⟨hnothing, houtcome⟩ := hfollows.nowhere hnone
  -- an error without any last encounter, as nothing was sent
  refine ⟨hsent.trans hnothing, .search .missingEndpoint, ⟨hwords, ?_⟩, rfl⟩
  rw [Invocation.run_search hsearch hquery, houtcome, Exchange.lastMet?, hnothing]
  rfl

/-- A portal from the words, which hides that of the environment, and a token from the settings, as
the environment's is empty. Without the settings, the words and the environment there is neither. -/
theorem Execution.connection_precedence_sample :
    let portal : Portal := ⟨⟨"http".toList, some "portal.test".toList, none⟩, [.dropped]⟩
    let around : Surroundings :=
      ⟨[("HS_CONFIG", "settings"), ("HS_PORTAL", "http://other.test"), ("HS_TOKEN", "")], none,
        ⟨[(["settings"], .file (Utf8.encode "token = \"kept\"\n".toList))]⟩, [], portal, .usual⟩
    let bare : Surroundings := ⟨[("HS_CONFIG", "settings")], none, .empty, [], portal, .usual⟩
    let words := ["--portal", "http://first.test", "search", "--portal=http://portal.test//"]
    (ofWords words around).sent.map (·.request.target) = ["/search"] ∧
      (∀ s ∈ (ofWords words around).sent,
        (Form.decode s.request.body.toList).filter (·.1 = "token") = [("token", "kept")]) ∧
      (ofWords ["search"] bare).sent = [] ∧
      ∃ i e, Fails ["search"] bare i e ∧ e.code = "MISSING_PORTAL" := by
  intro portal around bare words
  let q : QueryArguments := ⟨none, none, none, none, none, none, none⟩
  let i : Invocation :=
    ⟨false, false, false, false, some "http://portal.test//", some "", .search q⟩
  let settings : Settings := ⟨none, some "kept", none, none⟩
  let query := Query.compile .empty (q.options i) settings.service
  have hwords : Invocation.ofWords around.environment words = .ok i := by cbv
  have hread : Toml.read? "token = \"kept\"\n" = some [("token", .string "kept")] := by cbv
  have htext : around.files.readText "settings" = .ok "token = \"kept\"\n" := by cbv
  have hload : around.settings = .ok settings := by
    show Settings.load around.files "settings" = .ok settings
    rw [Settings.load, if_pos (by decide), htext]
    dsimp only
    rw [Settings.parse, hread]
    rfl
  have hcompiled : q.compiled i around = .ok (query, settings) := by
    rw [QueryArguments.compiled, hload]
    rfl
  -- first the search with everything around it
  obtain ⟨-, -, htoken, -, hsearch⟩ :=
    connection_precedence words around i q query settings hwords rfl hcompiled
  obtain ⟨hfollows, hsent, -⟩ := hsearch rfl
  have hkept : query.token = some "kept" := htoken.trans (by decide)
  have htarget : (settings.client.search query around.portal).sent.map (·.request.target)
      = ["/search"] := by decide +kernel
  let j : Invocation := ⟨false, false, false, false, none, none, .search q⟩
  -- and then the one with nothing
  have hwords' : Invocation.ofWords bare.environment ["search"] = .ok j := by cbv
  have hcompiled' : q.compiled j bare
      = .ok (Query.compile .empty (q.options j) Settings.unset.service, Settings.unset) := by rfl
  obtain ⟨-, hendpoint, -, -, hsearch'⟩ :=
    connection_precedence ["search"] bare j q _ _ hwords' rfl hcompiled'
  obtain ⟨-, -, hmissing⟩ := hsearch' rfl
  obtain ⟨hnothing, e, hfails⟩ := hmissing (hendpoint.trans (by decide))
  refine ⟨by rw [hsent, htarget], fun s hs => ?_, hnothing, j, e, hfails⟩
  rw [hfollows.token s (hsent ▸ hs), hkept]
  rfl

end ContentSearch
