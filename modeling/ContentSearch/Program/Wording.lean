import ContentSearch.CommandLine.Level
import ContentSearch.Portal.Client
import ContentSearch.Settings.File

/-!
# The words of the libraries

Not every text that the program prints is its own. What is wrong with a document or with a JSON
text, and why a request was lost, is told by the library that noticed; the command line is explained
by the library that reads it, and that library also writes the scripts for completion. The program
passes such texts on as they are.

So they are a parameter of the program, and what is proved of it holds in whatever words. Each of
them is a function of what its library is given: an error in a document may quote the document, and
the help for a command may name the variables of the environment that stand in for its options.
-/

set_option autoImplicit false

namespace ContentSearch

structure Wording where
  /-- What is wrong with a text that is no settings document. -/
  document : String → String
  /-- Why there is no document for settings. -/
  settings : Settings → String
  /-- What is wrong with a text that is not JSON. -/
  json : String → String
  /-- Why a search failed whose last request met this, if it was sent at all. -/
  search : SearchError → Option Encounter → String
  help : Environment → CommandLine.Command → String
  /-- What is wrong with the words of a command line, which has this fault. -/
  usage : List String → CommandLine.UsageFault → String
  completions : CommandLine.Shell → String

/-- Words for where it does not matter which. -/
def Wording.usual : Wording where
  document _ := "no settings document"
  settings _ := "number out of range"
  json _ := "the text is not JSON"
  search e _ := e.usualWords
  help _ c := "Usage: " ++ " ".intercalate c.words ++ "\n"
  usage _ _ := "error\n"
  completions shell := shell.name ++ "\n"

end ContentSearch
