import ContentSearch.CommandLine.Invocation
import ContentSearch.Program.Error
import ContentSearch.Program.Report

/-!
# Running a task

A run sees the environment, the files, its input and the portal. It ends with a report or an error,
and leaves files and a portal behind; everything that it sent is part of its result too. Only a
change of settings touches a file, and only a search sends anything. A run that fails prints
nothing.

The steps of a run have an order that can be seen. The settings are read before the filter, and the
filter before anything is sent; so where several things are wrong, the settings are told first, and
a search that is refused had both of the others in order. The commands on cursors look at neither.

Time has no part here but as the pause that stands before a request, and a run has the files to
itself: nobody else changes them between reading and writing.
-/

set_option autoImplicit false

namespace ContentSearch

/-- What a run sees. -/
structure Surroundings where
  environment : Environment
  /-- The home of the account that the program runs under. -/
  accountHome : Option String
  files : Files
  input : List UInt8
  portal : Portal
  /-- The words of the libraries that the program is made with. -/
  wording : Wording := .usual

structure Run where
  outcome : Except ProgramError String
  sent : List Sent
  files : Files
  portal : Portal

namespace Run

def quietly (around : Surroundings) (outcome : Except ProgramError String) : Run :=
  ⟨outcome, [], around.files, around.portal⟩

end Run

namespace Surroundings

def settingsPath (around : Surroundings) : Except ProgramError String :=
  match Settings.path around.environment around.accountHome with
  | .ok path => .ok path
  | .error e => .error (.settings e)

/-- The settings of the file that the environment leads to. -/
def settings (around : Surroundings) : Except SettingsError Settings :=
  match Settings.path around.environment around.accountHome with
  | .ok path => Settings.load around.files path
  | .error e => .error e

def filterText (around : Surroundings) (path : String) : Except ProgramError String :=
  if Path.isStandardInput path then
    match Files.textOf around.input with
    | .ok text => .ok text
    | .error f => .error (.input f)
  else
    match around.files.readText path with
    | .ok text => .ok text
    | .error f => .error (.filter (.unreadable path f))

def filterAt (around : Surroundings) : Option String → Except ProgramError Filter
  | none => .ok .empty
  | some path =>
    match around.filterText path with
    | .error e => .error e
    | .ok text =>
      match Filter.parse? text with
      | some f => .ok f
      | none => .error (.filter (.malformed text))

end Surroundings

namespace QueryArguments

/-- The filter of a query. Terms of its own take the place of those in the filter that was read. -/
def applyTerms (q : QueryArguments) (f : Filter) : Filter :=
  match q.terms with
  | some t => f.insert "terms" (.scalar t)
  | none => f

def options (q : QueryArguments) (i : Invocation) : Options :=
  { page := q.page
    sortField := q.sortField
    sortOrder := q.sortOrder
    aggregations := q.aggregations
    bbox := q.bbox
    connection := ⟨i.portal, i.token.map Credential.mk⟩ }

/-- The query, and the settings that it was made with. -/
def compiled (q : QueryArguments) (i : Invocation) (around : Surroundings) :
    Except ProgramError (Query × Settings) :=
  match around.settings with
  | .error e => .error (.settings e)
  | .ok settings =>
    match around.filterAt q.filter with
    | .error e => .error e
    | .ok f => .ok (Query.compile (q.applyTerms f) (q.options i) settings.service, settings)

end QueryArguments

def Settings.client (s : Settings) : Client :=
  { timeout := s.timeoutSecs.elim Client.standard.timeout Duration.ofSeconds
    policy := { RetryPolicy.standard with
      maxRetries := s.maxRetries.getD RetryPolicy.standard.maxRetries } }

namespace Invocation

def runCompile (i : Invocation) (q : QueryArguments) (style : Style) (around : Surroundings) :
    Run :=
  .quietly around
    (match q.compiled i around with
    | .error e => .error e
    | .ok (query, _) => .ok (Report.query style query))

def runSearch (i : Invocation) (q : QueryArguments) (style : Style) (around : Surroundings) :
    Run :=
  match q.compiled i around with
  | .error e => .quietly around (.error e)
  | .ok (query, settings) =>
    let x := settings.client.search query around.portal
    { outcome := match x.outcome with
        | .ok p => .ok (Report.page style p)
        | .error e => .error (.search e (x.lastMet? around.portal))
      sent := x.sent
      files := around.files
      portal := x.portal }

def runShow (style : Style) (around : Surroundings) : Run :=
  .quietly around
    (match around.settingsPath with
    | .error e => .error e
    | .ok path =>
      match Settings.load around.files path with
      | .error e => .error (.settings e)
      | .ok s => .ok (Report.settings style path (around.files.contains path) s))

def runChange (key value : String) (style : Style) (around : Surroundings) : Run :=
  match around.settingsPath with
  | .error e => .quietly around (.error e)
  | .ok path =>
    let (result, files) := Settings.update around.files path key value
    { outcome := match result with
        | .ok () => .ok (Report.changed style key)
        | .error e => .error (.settings e)
      sent := []
      files := files
      portal := around.portal }

/-- **Runs an invocation.** -/
def run (i : Invocation) (around : Surroundings) : Run :=
  let style := Style.ofInvocation i around.environment
  match i.task with
  | .compile q => i.runCompile q style around
  | .search q => i.runSearch q style around
  | .encodeCursor c => .quietly around (.ok (Report.cursorToken style c))
  | .decodeCursor token => .quietly around (.ok (Report.cursorParts style (.decode (some token))))
  | .advanceCursor token =>
    .quietly around (.ok (Report.cursorToken style (Cursor.decode (some token)).next))
  | .showSettings => runShow style around
  | .showSettingsPath =>
    .quietly around
      (match around.settingsPath with
      | .error e => .error e
      | .ok path => .ok (Report.settingsPath style path))
  | .changeSetting key value => runChange key value style around
  | .completions shell => .quietly around (.ok (around.wording.completions shell))

end Invocation
end ContentSearch
