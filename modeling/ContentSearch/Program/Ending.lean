import ContentSearch.Program.Run

/-!
# The program as a process

Arguments in; an exit status and two streams of text out. A report goes to the first stream and an
error to the second, as JSON where JSON is asked for. A command line that leads to no run ends the
process at once: with help or the version on the first stream, or with its fault on the second.

The status and the two streams are all that is said of a process. The lines of a log go to the
second stream while a run goes on, where somebody asks for them; they have a form of their own and
no part here. A command line that leads to no run has seen neither files nor portal, and leaves both
as they were.
-/

set_option autoImplicit false

namespace ContentSearch

/-- How a process ends. -/
structure Ending where
  status : Nat
  output : String
  errorOutput : String
  deriving Repr, DecidableEq

namespace Ending

/-- The end of a process whose command line leads to no run. -/
def ofStop (around : Surroundings) (words : List String) : CommandLine.Stop → Ending
  | .help c => ⟨0, around.wording.help around.environment c, ""⟩
  | .version c => ⟨0, c.versionText, ""⟩
  | .fault f => ⟨2, "", around.wording.usage words f⟩

def failureText (w : Wording) (json : Bool) (e : ProgramError) : String :=
  if json then Report.pretty (Report.failureJson e.code (e.message w))
  else "Error: " ++ e.message w ++ "\n"

/-- The end of a process whose run came to an outcome. -/
def ofOutcome (w : Wording) (json : Bool) : Except ProgramError String → Ending
  | .ok output => ⟨0, output, ""⟩
  | .error e => ⟨e.exitStatus, "", failureText w json e⟩

end Ending

/-- How a process ends, and what it leaves behind. -/
structure Execution where
  ending : Ending
  sent : List Sent
  files : Files
  portal : Portal

/-- **The program.** -/
def Execution.ofWords (words : List String) (around : Surroundings) : Execution :=
  match Invocation.ofWords around.environment words with
  | .error stop => ⟨.ofStop around words stop, [], around.files, around.portal⟩
  | .ok i =>
    let r := i.run around
    ⟨.ofOutcome around.wording i.json r.outcome, r.sent, r.files, r.portal⟩

/-- **A command line that asks for something** ends as the run of it does. -/
theorem Execution.ofWords_eq {words : List String} {around : Surroundings} {i : Invocation}
    (hwords : Invocation.ofWords around.environment words = .ok i) :
    ofWords words around = ⟨.ofOutcome around.wording i.json (i.run around).outcome,
      (i.run around).sent, (i.run around).files, (i.run around).portal⟩ := by
  rw [ofWords, hwords]

end ContentSearch
