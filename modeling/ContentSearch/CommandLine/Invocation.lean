import ContentSearch.CommandLine.Level
import ContentSearch.Settings.File

/-!
# Invocations

What a command line asks for: one task, and the options that every task has. Those may be given at
any level. A flag counts wherever it stands; of several values the innermost one counts, and an
environment variable only if there is no value at all.

The levels come in from the innermost outwards, and this is the only place where they meet. What a
level was given is not checked again; an operand that must be there is there, or the level would not
have been finished (`Level.finish`).
-/

set_option autoImplicit false

namespace ContentSearch

/-- What a query is made of, beside the settings. -/
structure QueryArguments where
  /-- The path of a filter. -/
  filter : Option String
  terms : Option String
  page : Option String
  sortField : Option String
  sortOrder : Option SortOrder
  aggregations : Option String
  bbox : Option String
  deriving Repr, DecidableEq

inductive Task
  | compile (q : QueryArguments)
  | search (q : QueryArguments)
  | encodeCursor (c : Cursor)
  | decodeCursor (token : String)
  | advanceCursor (token : String)
  | showSettings
  | showSettingsPath
  | changeSetting (key value : String)
  | completions (shell : CommandLine.Shell)
  deriving Repr, DecidableEq

structure Invocation where
  verbose : Bool
  quiet : Bool
  json : Bool
  noColor : Bool
  portal : Option String
  token : Option String
  task : Task
  deriving Repr, DecidableEq

namespace CommandLine

def Level.value? (l : Level) (a : Argument) : Option String := l.taken.lookup a

/-- The value of an argument that must have been given. -/
def Level.value (l : Level) (a : Argument) : String := (l.value? a).getD ""

def Level.query (l : Level) : QueryArguments :=
  { filter := l.value? .filter
    terms := l.value? .terms
    page := l.value? .page
    sortField := l.value? .sortField
    sortOrder := (l.value? .sortOrder).bind SortOrder.ofName?
    aggregations := l.value? .aggregations
    bbox := l.value? .bbox }

/-- The cursor that a level describes; each part has a default. -/
def Level.cursor (l : Level) : Cursor :=
  { start := ((l.value? .start).bind Argument.positive?).getD Cursor.first.start
    size := ((l.value? .size).bind Argument.positive?).getD Cursor.first.size }

/-- The task of a level, unless the level leads on to others. -/
def Level.task? (l : Level) : Option Task :=
  match l.command with
  | .compile => some (.compile l.query)
  | .search => some (.search l.query)
  | .cursorEncode => some (.encodeCursor l.cursor)
  | .cursorDecode => some (.decodeCursor (l.value .cursor))
  | .cursorNext => some (.advanceCursor (l.value .cursor))
  | .configShow => some .showSettings
  | .configPath => some .showSettingsPath
  | .configSet => some (.changeSetting (l.value .key) (l.value .value))
  | .completions => ((l.value? .shell).bind Shell.ofName?).map .completions
  | .top | .cursor | .config | .help => none

/-- The values of the environment that stand in for options. -/
def standIns (environment : Environment) : List (Argument × String) :=
  Argument.everywhere.filterMap fun a =>
    (a.standIn?.bind fun name => environment.lookup name).map fun v => (a, v)

/-- The invocation of the levels, the innermost first. -/
def invocation? (standIns : List (Argument × String)) (l : Level) (outer : List Level) :
    Option Invocation :=
  let levels := l :: outer
  let flag (a : Argument) : Bool := levels.any (·.has a)
  let value (a : Argument) : Option String :=
    (levels.findSome? (·.value? a)).orElse fun _ => standIns.lookup a
  l.task?.map fun task =>
    { verbose := flag .verbose
      quiet := flag .quiet
      json := flag .json
      noColor := flag .noColor
      portal := value .portal
      token := value .token
      task }

end CommandLine

/-- **What a command line asks for**, in an environment. -/
def Invocation.ofWords (environment : Environment) (words : List String) :
    Except CommandLine.Stop Invocation :=
  let standIns := CommandLine.standIns environment
  match CommandLine.readLevels standIns words with
  | .error e => .error e
  | .ok (l, outer) =>
    match CommandLine.invocation? standIns l outer with
    | some i => .ok i
    | none => .error (.fault .missingCommand)

/-- **A command line asks for something** if its levels are accepted and the innermost one has a
task. -/
theorem Invocation.ofWords_eq_ok_iff {environment : Environment} {words : List String}
    {i : Invocation} :
    ofWords environment words = .ok i ↔
      ∃ l outer, CommandLine.readLevels (CommandLine.standIns environment) words = .ok (l, outer) ∧
        CommandLine.invocation? (CommandLine.standIns environment) l outer = some i := by
  rw [ofWords]
  constructor
  · intro h
    split at h
    · cases h
    · rename_i l outer hlevels
      split at h
      · rename_i hi
        cases h
        exact ⟨l, outer, hlevels, hi⟩
      · cases h
  · rintro ⟨l, outer, hlevels, hi⟩
    rw [hlevels]
    dsimp only
    rw [hi]

end ContentSearch
