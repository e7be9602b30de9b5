import ContentSearch.Program.Wording

/-!
# How the program fails

A run fails with the search, with the settings, with the filter or with its input. Each failure has
a message for people, a code for programs, and an exit status. The latter two come from tables of
their own, and they part over a request that is lost on its way: its status is its own, and its code
is that of any other error of the portal.

A message ends with the words of a library where it was a library that failed. An error carries what
those words are about: the text that could not be read, the settings that could not be written, what
the last request met.
-/

set_option autoImplicit false

namespace ContentSearch

inductive FilterError
  | unreadable (path : String) (f : FileFault)
  | malformed (text : String := "")
  deriving Repr, DecidableEq

namespace FilterError

def message (e : FilterError) (words : String) : String :=
  match e with
  | .unreadable path f => "Failed to read " ++ path ++ ": " ++ f.message
  | .malformed _ => "Invalid filter JSON: " ++ words

end FilterError

inductive ProgramError
  /-- A search that failed, and what the last of its requests met. -/
  | search (e : SearchError) (met : Option Encounter := none)
  | settings (e : SettingsError)
  | filter (e : FilterError)
  | input (f : FileFault)
  deriving Repr, DecidableEq

namespace ProgramError

/-- What a library has to say of the failure, if one has. -/
def libraryWords (w : Wording) : ProgramError → String
  | .search e met => w.search e met
  | .settings (.fault (.malformed text)) => w.document text
  | .settings (.unwritable s) => w.settings s
  | .filter (.malformed text) => w.json text
  | _ => ""

def message (e : ProgramError) (w : Wording := .usual) : String :=
  match e with
  | .search f _ => "API error: " ++ f.message (e.libraryWords w)
  | .settings f => "configuration error: " ++ f.message (e.libraryWords w)
  | .filter f => "filter error: " ++ f.message (e.libraryWords w)
  | .input f => "I/O error: " ++ f.message

def searchCode : SearchError → String
  | .missingEndpoint => "MISSING_PORTAL"
  | .refused (.auth _) => "AUTH_ERROR"
  | .refused (.rateLimited _) => "RATE_LIMITED"
  | .refused (.invalid _) => "INVALID_QUERY"
  | .refused (.network _) => "NETWORK_ERROR"
  | .refused (.http _ _) => "API_ERROR"
  | .request _ => "API_ERROR"
  | .unreadable => "API_ERROR"

/-- A name for the failure that does not change with its details. -/
def code : ProgramError → String
  | .search e _ => searchCode e
  | .settings _ => "CONFIG_ERROR"
  | .filter _ => "FILTER_ERROR"
  | .input _ => "IO_ERROR"

/-- The exit status of a program that fails with it. -/
def exitStatus : ProgramError → Nat
  | .search e _ => e.exitStatus
  | _ => 1

end ProgramError
end ContentSearch
