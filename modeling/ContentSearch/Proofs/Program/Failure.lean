import ContentSearch.Program.Ending
import ContentSearch.Proofs.Files
import ContentSearch.Proofs.Json.Parsed
import ContentSearch.Proofs.Json.Pretty
import ContentSearch.Proofs.Portal.RetryLaw
import Mathlib

/-!
# A failing run has no effect

A run can fail at many points: the settings may be unreadable, the filter may be no JSON, the portal
may refuse after several retries, the file may not be written. At none of them has anything been
printed, and nothing has been done to a file. The one trace of a failure is a directory, made for a
settings file that was then not written; so what is said of the files is that the failing run
*extends* them (`Files.Extends`): each is as it was, and there is no other.

What a failure prints as JSON is one object with one member, an object of a code and a message. The
message is quoted from wherever it comes, the portal's own words and those of the libraries
included, and is read back as it is (**`Ending.parse?_failureText`**).
**`Execution.failure_without_effect`** puts it all together.

Each function on the way has one lemma that says what it leaves of the files where it fails
(`Settings.save_error_extends`, `Settings.update_error_extends`), and the one for the run is their
chain (`Invocation.run_error_extends`). In the other direction, a run that has sent something must
have got through everything that comes before (**`Invocation.run_sent`**); so where the failure lies
before it, the portal has no part in it.
-/

set_option autoImplicit false

namespace ContentSearch

/-! ## Statuses -/

theorem Refusal.exitStatus_mem (r : Refusal) : r.exitStatus ∈ [2, 3, 4] := by
  cases r <;> simp [exitStatus]

theorem SearchError.exitStatus_mem (e : SearchError) : e.exitStatus ∈ [2, 3, 4] := by
  cases e with
  | refused r => exact r.exitStatus_mem
  | missingEndpoint => simp [exitStatus]
  | request f => simp [exitStatus]
  | unreadable => simp [exitStatus]

theorem ProgramError.exitStatus_mem (e : ProgramError) : e.exitStatus ∈ [1, 2, 3, 4] := by
  cases e with
  | search e => exact List.mem_cons_of_mem 1 e.exitStatus_mem
  | settings e => exact List.mem_cons_self
  | filter e => exact List.mem_cons_self
  | input f => exact List.mem_cons_self

theorem ProgramError.exitStatus_ne_zero (e : ProgramError) : e.exitStatus ≠ 0 := by
  intro hzero
  have hmem := e.exitStatus_mem
  rw [hzero] at hmem
  exact absurd hmem (by decide)

/-- The status of an ending tells whether there was an error. -/
theorem Ending.status_ofOutcome_eq_zero_iff {w : Wording} {json : Bool}
    {outcome : Except ProgramError String} :
    (ofOutcome w json outcome).status = 0 ↔ ∃ output, outcome = .ok output := by
  cases outcome with
  | ok output => exact ⟨fun _ => ⟨output, rfl⟩, fun _ => rfl⟩
  | error e => exact ⟨fun h => absurd h e.exitStatus_ne_zero, nofun⟩

/-! ## The error as JSON -/

/-- **A failure is one object that holds its code and its message**, whatever characters they are
made of, and no name stands in it twice. -/
theorem Ending.parse?_failureText (w : Wording) (e : ProgramError) :
    Json.Document.parse? (failureText w true e)
        = some (.object [(some "error", .object
            [(some "code", .scalar (.string (some e.code))),
             (some "message", .scalar (.string (some (e.message w))))])]) ∧
      Json.Value.parse? (failureText w true e)
        = some (Report.failureJson e.code (e.message w)) := by
  have hdocument : Json.Document.parse? (failureText w true e)
      = some (Report.failureJson e.code (e.message w)).document :=
    Json.Document.parse?_renderPretty _
  have hvalue : Json.Value.parse? (failureText w true e)
      = (Report.failureJson e.code (e.message w)).document.toValue? Json.maxDepth := by
    have hread : Json.Value.parse? (failureText w true e)
        = (Json.Document.parse? (failureText w true e)).bind
            (Json.Document.toValue? Json.maxDepth) := rfl
    rw [hread, hdocument, Option.bind_some]
  -- a reader sorts the members, and a code stands before a message already
  have hsorted : (Report.failureJson e.code (e.message w)).sorted
      = Report.failureJson e.code (e.message w) := by
    have hless : ¬ ("message" < "code") := by decide
    have hne : ¬ ("message" = "code") := by decide
    simp only [Report.failureJson, Json.Value.sorted, Json.Value.sortedMembers, Entries.insertAll,
      List.foldl_cons, List.foldl_nil, Entries.insert, if_neg hless, if_neg hne]
  refine ⟨hdocument, ?_⟩
  rw [hvalue, Json.Value.toValue?_document Json.maxDepth _ rfl, hsorted]

/-! ## The settings file -/

namespace Settings

variable {fs gs : Files} {path : String} {e : SettingsError}

theorem save_error_extends {s : Settings} (h : s.save fs path = (.error e, gs)) :
    fs.Extends gs := by
  unfold save at h
  have hextends := Files.makeWay_extends fs path
  cases hmade : fs.makeWay path with
  | mk result fs₁ =>
    rw [hmade] at h hextends
    cases result with
    | error f =>
      -- some directories may have been made, and a file was in the way of the others
      obtain ⟨-, rfl⟩ := Prod.mk.inj h
      exact hextends
    | ok _ =>
      dsimp only at h
      -- A number that has no place in the file is found next. After that the file itself could not
      -- be written.
      cases htext : s.write? with
      | none =>
        rw [htext] at h
        obtain ⟨-, rfl⟩ := Prod.mk.inj h
        exact hextends
      | some text =>
        rw [htext] at h
        dsimp only at h
        cases hwritten : fs₁.write path (Text.Utf8.encode text) with
        | error f =>
          rw [hwritten] at h
          obtain ⟨-, rfl⟩ := Prod.mk.inj h
          exact hextends
        | ok fs₂ =>
          rw [hwritten] at h
          cases (Prod.mk.inj h).1

/-- **A change that fails writes nothing.** -/
theorem update_error_extends {key value : String}
    (h : update fs path key value = (.error e, gs)) : fs.Extends gs := by
  unfold update at h
  -- Before the settings are saved, no file is touched at all.
  cases hload : load fs path with
  | error e' =>
    rw [hload] at h
    obtain ⟨-, rfl⟩ := Prod.mk.inj h
    exact .refl fs
  | ok s =>
    rw [hload] at h
    dsimp only at h
    cases hchange : s.change key value with
    | error e' =>
      rw [hchange] at h
      obtain ⟨-, rfl⟩ := Prod.mk.inj h
      exact .refl fs
    | ok s' =>
      rw [hchange] at h
      exact save_error_extends h

end Settings

/-! ## Runs -/

/-- What is needed before a query is there. -/
theorem QueryArguments.compiled_eq_ok {q : QueryArguments} {i : Invocation} {around : Surroundings}
    {query : Query} {settings : Settings} (h : q.compiled i around = .ok (query, settings)) :
    around.settings = .ok settings ∧ ∃ f, around.filterAt q.filter = .ok f ∧
      query = Query.compile (q.applyTerms f) (q.options i) settings.service := by
  unfold compiled at h
  cases hsettings : around.settings with
  | error e =>
    rw [hsettings] at h
    cases h
  | ok s =>
    rw [hsettings] at h
    dsimp only at h
    cases hfilter : around.filterAt q.filter with
    | error e =>
      rw [hfilter] at h
      cases h
    | ok f =>
      rw [hfilter] at h
      obtain ⟨hquery, rfl⟩ := Prod.mk.inj (Except.ok.inj h)
      exact ⟨rfl, f, rfl, hquery.symm⟩

namespace Invocation

variable {i : Invocation} {around : Surroundings}

/-- A search that has its query is what its client makes of it. -/
theorem run_search {q : QueryArguments} (htask : i.task = .search q) {query : Query}
    {settings : Settings} (hquery : q.compiled i around = .ok (query, settings)) :
    i.run around =
      { outcome := match (settings.client.search query around.portal).outcome with
          | .ok p => .ok (Report.page (Style.ofInvocation i around.environment) p)
          | .error e => .error (.search e
              ((settings.client.search query around.portal).lastMet? around.portal))
        sent := (settings.client.search query around.portal).sent
        files := around.files
        portal := (settings.client.search query around.portal).portal } := by
  unfold run
  rw [htask]
  dsimp only
  unfold runSearch
  generalize q.compiled i around = found at hquery
  subst hquery
  rfl

/-- A search that has no query is over. -/
theorem run_search_error {q : QueryArguments} (htask : i.task = .search q) {e : ProgramError}
    (hquery : q.compiled i around = .error e) : i.run around = .quietly around (.error e) := by
  unfold run
  rw [htask]
  dsimp only
  rw [runSearch, hquery]

/-- A change of settings that has its path is what comes of the file there. -/
theorem run_changeSetting {key value path : String} (htask : i.task = .changeSetting key value)
    (hpath : around.settingsPath = .ok path) :
    i.run around =
      { outcome := match (Settings.update around.files path key value).1 with
          | .ok () => .ok (Report.changed (Style.ofInvocation i around.environment) key)
          | .error e => .error (.settings e)
        sent := []
        files := (Settings.update around.files path key value).2
        portal := around.portal } := by
  unfold run
  rw [htask]
  dsimp only
  unfold runChange
  generalize around.settingsPath = place at hpath
  subst hpath
  rfl

theorem runSearch_files (i : Invocation) (q : QueryArguments) (style : Style)
    (around : Surroundings) : (i.runSearch q style around).files = around.files := by
  unfold runSearch
  cases q.compiled i around <;> rfl

theorem runChange_error_extends {key value : String} {style : Style} {e : ProgramError}
    (h : (runChange key value style around).outcome = .error e) :
    around.files.Extends (runChange key value style around).files := by
  unfold runChange at h ⊢
  generalize around.settingsPath = place at h ⊢
  cases place with
  | error e' => exact .refl _
  | ok path =>
    dsimp only at h ⊢
    cases hupdate : Settings.update around.files path key value with
    | mk result files =>
      rw [hupdate] at h
      cases result with
      | ok _ => cases h
      | error e' => exact Settings.update_error_extends hupdate

/-- **Only a change of settings touches a file.** -/
theorem run_files (h : ∀ key value, i.task ≠ .changeSetting key value) :
    (i.run around).files = around.files := by
  unfold run
  cases htask : i.task with
  | search q => exact runSearch_files i q _ around
  | changeSetting key value => exact absurd htask (h key value)
  | _ => rfl

theorem changes_of_not_extends (h : ¬ around.files.Extends (i.run around).files) :
    ∃ key value, i.task = .changeSetting key value := by
  by_contra hother
  refine h ?_
  rw [run_files fun key value htask => hother ⟨key, value, htask⟩]
  exact .refl _

theorem run_error_extends {e : ProgramError} (h : (i.run around).outcome = .error e) :
    around.files.Extends (i.run around).files := by
  -- only a change of settings could have done more, and a change that fails did not
  by_contra hwritten
  obtain ⟨key, value, htask⟩ := changes_of_not_extends hwritten
  refine hwritten ?_
  unfold run at h ⊢
  rw [htask] at h ⊢
  exact runChange_error_extends h

/-- **Only a search sends anything**, and not before it has settings, a filter and an endpoint. -/
theorem run_sent (h : (i.run around).sent ≠ []) :
    ∃ q settings f endpoint, i.task = .search q ∧ around.settings = .ok settings ∧
      around.filterAt q.filter = .ok f ∧
      (Query.compile (q.applyTerms f) (q.options i) settings.service).connection.endpoint
        = some endpoint := by
  unfold run at h
  cases htask : i.task with
  | search q =>
    rw [htask] at h
    dsimp only at h
    unfold runSearch at h
    -- A search sends nothing before it has a query, and nothing to a query without an endpoint.
    cases hcompiled : q.compiled i around with
    | error e =>
      rw [hcompiled] at h
      exact absurd rfl h
    | ok found =>
      obtain ⟨query, settings⟩ := found
      rw [hcompiled] at h
      dsimp only at h
      obtain ⟨hsettings, f, hfilter, rfl⟩ := QueryArguments.compiled_eq_ok hcompiled
      generalize hquery : Query.compile (q.applyTerms f) (q.options i) settings.service = query at h
      cases hendpoint : query.connection.endpoint with
      | none =>
        rw [settings.client.search_of_no_endpoint hendpoint] at h
        exact absurd rfl h
      | some endpoint =>
        exact ⟨q, settings, f, endpoint, rfl, hsettings, hfilter, by rw [hquery, hendpoint]⟩
  | changeSetting key value =>
    rw [htask] at h
    dsimp only at h
    unfold runChange at h
    generalize around.settingsPath = place at h
    cases place <;> exact absurd rfl h
  | _ =>
    rw [htask] at h
    exact absurd rfl h

end Invocation

/-! ## Executions -/

/-- What a program owes whoever runs it, if its command line leads to a run. -/
structure Execution.Orderly (i : Invocation) (around : Surroundings) (x : Execution) : Prop where
  /-- The status tells whether the run came to its end. -/
  status : x.ending.status = 0 ↔ ∃ output, (i.run around).outcome = .ok output
  /-- A failing run prints nothing, ends with one of four statuses, and leaves every file as it was
  and no other file. -/
  failure : ∀ e, (i.run around).outcome = .error e →
    x.ending.output = "" ∧ x.ending.status = e.exitStatus ∧ x.ending.status ∈ [1, 2, 3, 4] ∧
      around.files.Extends x.files
  /-- So what a file held, that of the settings or any other, is what is read from it still. -/
  read : ∀ e, (i.run around).outcome = .error e → ∀ path bytes,
    around.files.readBytes path = .ok bytes → x.files.readBytes path = .ok bytes
  /-- Its error is one object of a code and a message, where JSON is asked for. -/
  json : i.json = true → ∀ e, (i.run around).outcome = .error e →
    Json.Document.parse? x.ending.errorOutput
        = some (.object [(some "error", .object
            [(some "code", .scalar (.string (some e.code))),
             (some "message", .scalar (.string (some (e.message around.wording))))])]) ∧
      Json.Value.parse? x.ending.errorOutput = some (.object [("error", .object
        [("code", .string e.code), ("message", .string (e.message around.wording))])])
  /-- Only a change of settings writes to a file, and only if it succeeds. -/
  written : ¬ around.files.Extends x.files →
    (∃ key value, i.task = .changeSetting key value) ∧ x.ending.status = 0
  unchanged : (∀ key value, i.task ≠ .changeSetting key value) → x.files = around.files
  /-- Nothing is sent but by a search, with settings, a filter and an endpoint at hand. -/
  sent : x.sent ≠ [] → ∃ q settings f endpoint, i.task = .search q ∧
    around.settings = .ok settings ∧ around.filterAt q.filter = .ok f ∧
      (Query.compile (q.applyTerms f) (q.options i) settings.service).connection.endpoint
        = some endpoint

/-- **A failing run has no partial effect**, and a run that needs nothing from the portal or the
files leaves them alone. This holds of every command line that leads to a run, in all
surroundings. -/
theorem Execution.failure_without_effect {words : List String} {around : Surroundings}
    {i : Invocation} (hwords : Invocation.ofWords around.environment words = .ok i) :
    Orderly i around (ofWords words around) := by
  rw [ofWords_eq hwords]
  refine
    { status := Ending.status_ofOutcome_eq_zero_iff
      failure := fun e he => ?_
      read := fun e he path bytes => (Invocation.run_error_extends he).readBytes
      json := fun hjson e he => ?_
      written := fun hwritten => ⟨Invocation.changes_of_not_extends hwritten, ?_⟩
      unchanged := Invocation.run_files
      sent := Invocation.run_sent }
  · refine ⟨?_, ?_, ?_, Invocation.run_error_extends he⟩
    · rw [he]
      rfl
    · rw [he]
      rfl
    · rw [he]
      exact e.exitStatus_mem
  · rw [he, hjson]
    exact Ending.parse?_failureText around.wording e
  · -- had the run failed, it would have written nothing
    refine Ending.status_ofOutcome_eq_zero_iff.mpr ?_
    cases houtcome : (i.run around).outcome with
    | ok output => exact ⟨output, rfl⟩
    | error e => exact absurd (Invocation.run_error_extends houtcome) hwritten

/-- A change to a setting that there is none of, under a name with quotes and a line break, and a
search without a portal. -/
theorem Execution.failure_without_effect_sample :
    let around : Surroundings := ⟨[("HS_CONFIG", "settings")], none, .empty, [], .nowhere, .usual⟩
    let x := ofWords ["config", "set", "--json", "no \"luck\"\n", "red"] around
    let y := ofWords ["search"] around
    x.ending.status = 1 ∧ around.files.Extends x.files ∧ x.ending.output = "" ∧
      Json.Value.parse? x.ending.errorOutput = some (.object [("error", .object
        [("code", .string "CONFIG_ERROR"),
         ("message", .string ("configuration error: Unknown config key: no \"luck\"\n "
            ++ "(expected portal, token, client.timeout_secs, client.max_retries)"))])]) ∧
      y.ending.status = 2 ∧ y.files = around.files := by
  intro around x y
  let q : QueryArguments := ⟨none, none, none, none, none, none, none⟩
  let i : Invocation :=
    ⟨false, false, true, false, none, none, .changeSetting "no \"luck\"\n" "red"⟩
  let j : Invocation := ⟨false, false, false, false, none, none, .search q⟩
  have hi : Invocation.ofWords around.environment
      ["config", "set", "--json", "no \"luck\"\n", "red"] = .ok i := by cbv
  have hj : Invocation.ofWords around.environment ["search"] = .ok j := by cbv
  have hload : Settings.load .empty "settings" = .ok .unset := by
    rw [Settings.load, if_neg (by decide)]
  have hunknown : (i.run around).outcome
      = .error (.settings (.unknownKey "no \"luck\"\n")) := by
    have hupdate : Settings.update .empty "settings" "no \"luck\"\n" "red"
        = (.error (.unknownKey "no \"luck\"\n"), .empty) := by
      rw [Settings.update, hload]
      rfl
    rw [Invocation.run_changeSetting rfl rfl, hupdate]
  have hlost : (j.run around).outcome = .error (.search .missingEndpoint) := by
    have hcompiled : q.compiled j around
        = .ok (Query.compile .empty (q.options j) Settings.unset.service, .unset) := by
      rw [QueryArguments.compiled, show around.settings = .ok .unset from hload]
      rfl
    rw [Invocation.run_search rfl hcompiled]
    rfl
  have hx := failure_without_effect hi
  have hy := failure_without_effect hj
  obtain ⟨houtput, hstatus, -, hextends⟩ := hx.failure _ hunknown
  obtain ⟨-, hstatus', -, -⟩ := hy.failure _ hlost
  refine ⟨hstatus, hextends, houtput, (hx.json rfl _ hunknown).2, hstatus',
    hy.unchanged fun key value htask => ?_⟩
  cases htask

end ContentSearch
