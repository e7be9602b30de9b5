import ContentSearch.CommandLine.Invocation
import ContentSearch.Json.Printer
import ContentSearch.Portal.Page

/-!
# Reports

What the program prints when it succeeds. There are two forms of every report, one for people and
one in JSON; a quiet run leaves the former out, but for answers that consist of nothing else.

The names and the order of members, the blanks and the line ends are those that are printed. A JSON
report is laid out on many lines, but for the path of the settings and the confirmation of a change,
which are short and stand on one. Of a secret a report has a mask or the word that it is set
(`queryText`, `settingsText`); a query as JSON does not mention it at all.
-/

set_option autoImplicit false

namespace ContentSearch

/-- How a run wants its reports. -/
structure Style where
  json : Bool
  colored : Bool
  quiet : Bool
  deriving Repr, DecidableEq

namespace Style

/-- The style that an invocation asks for. A variable `NO_COLOR`, whatever its value, turns colors
off. -/
def ofInvocation (i : Invocation) (environment : Environment) : Style :=
  { json := i.json
    colored := !i.noColor && (environment.lookup "NO_COLOR").isNone
    quiet := i.quiet }

/-- A report in the form that is asked for, and none where people are not to be disturbed. -/
def report (s : Style) (json human : String) : String :=
  if s.json then json else if s.quiet then "" else human

def answer (s : Style) (json human : String) : String := if s.json then json else human

/-- A heading, bold and green where there are colors, and an empty line. -/
def heading (s : Style) (text : String) : String :=
  (if s.colored then "\x1b[1m\x1b[32m" ++ text ++ "\x1b[39m\x1b[0m" else text) ++ "\n\n"

end Style

namespace Report

def line (name value : String) : String := name ++ ": " ++ value ++ "\n"

def lineOf {α : Type} (name : String) (write : α → String) (value : Option α) : String :=
  value.elim "" fun v => line name (write v)

def decimal (n : Nat) : String := String.ofList (Text.Decimal.write n)

def pretty (v : Json.Value) : String := v.renderPretty ++ "\n"

def compact (v : Json.Value) : String := v.render ++ "\n"

/-! ## Queries -/

/-- A query for people. That there is a credential is told, and not which. -/
def queryText (q : Query) : String :=
  line "q" q.text
    ++ line "start" (decimal q.page.start)
    ++ line "num" (decimal q.page.size)
    ++ lineOf "sort" (fun s => s.field ++ " " ++ s.order.name) q.sort
    ++ lineOf "countFields" (fun c => c.fields ++ " (countSize " ++ decimal Counts.size ++ ")")
      q.counts
    ++ lineOf "bbox" id q.bbox
    ++ lineOf "portal" id q.connection.endpoint
    ++ lineOf "token" (fun _ => "(set)") q.connection.credential

def query (s : Style) (q : Query) : String := s.report (pretty q.toJson) (queryText q)

/-! ## Pages -/

/-- The text under a name, empty where there is none. -/
def textOf (result : Json.Value) (name : String) : String :=
  ((result.get? name).bind Json.Value.asString?).getD ""

def resultLine (result : Json.Value) : String :=
  textOf result "id" ++ "  " ++ textOf result "title" ++ "  [" ++ textOf result "type" ++ "]\n"

def nextToken (p : Page) : Option String := p.next?.map Cursor.token

def pageJson (p : Page) : Json.Value :=
  .object
    [("aggregations", p.aggregations.getD .null), ("next_page", .ofOption (nextToken p)),
     ("num", .nat p.size), ("results", .array p.results), ("start", .int p.start),
     ("total", .nat p.total)]

def pageText (s : Style) (p : Page) : String :=
  s.heading (decimal p.total ++ " results")
    ++ String.join (p.results.map resultLine)
    ++ (nextToken p).elim "" fun token => "\nNext page: --page " ++ token ++ "\n"

def page (s : Style) (p : Page) : String := s.report (pretty (pageJson p)) (pageText s p)

/-! ## Cursors -/

def cursorJson (c : Cursor) : Json.Value :=
  .object [("cursor", .string c.token), ("num", .nat c.size), ("start", .nat c.start)]

def cursorToken (s : Style) (c : Cursor) : String :=
  s.answer (pretty (cursorJson c)) (c.token ++ "\n")

def cursorParts (s : Style) (c : Cursor) : String :=
  s.answer (pretty (cursorJson c)) (line "start" (decimal c.start) ++ line "num" (decimal c.size))

/-! ## Settings -/

def settingsPath (s : Style) (path : String) : String :=
  s.answer (compact (.object [("path", .string path)])) (path ++ "\n")

def clientJson (settings : Settings) : Json.Value :=
  .object
    ((settings.maxRetries.elim [] fun n => [("max_retries", .nat n)])
      ++ settings.timeoutSecs.elim [] fun n => [("timeout_secs", .nat n)])

def settingsJson (path : String) (there : Bool) (settings : Settings) : Json.Value :=
  .object
    [("client", clientJson settings), ("exists", .bool there), ("path", .string path),
     ("portal", .ofOption settings.portal),
     ("token", .ofOption (settings.token.map Settings.maskToken))]

def settingsText (s : Style) (path : String) (there : Bool) (settings : Settings) : String :=
  s.heading "Configuration"
    ++ line "File" path
    ++ line "Exists" (if there then "true" else "false")
    ++ "\n"
    ++ line "  portal" (settings.portal.getD "(not set)")
    ++ line "  token" ((settings.token.map Settings.maskToken).getD "(not set)")
    ++ lineOf "  client.timeout_secs" decimal settings.timeoutSecs
    ++ lineOf "  client.max_retries" decimal settings.maxRetries

def settings (s : Style) (path : String) (there : Bool) (settings : Settings) : String :=
  s.report (pretty (settingsJson path there settings)) (settingsText s path there settings)

def changed (s : Style) (key : String) : String :=
  s.report (compact (.object [("key", .string key), ("status", .string "success")]))
    ("Set " ++ key ++ "\n")

/-! ## Failures -/

def failureJson (code message : String) : Json.Value :=
  .object [("error", .object [("code", .string code), ("message", .string message)])]

end Report
end ContentSearch
