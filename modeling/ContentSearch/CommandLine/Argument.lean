import ContentSearch.Query

/-!
# The arguments of the command line

What can be said on a command line: options with their long and short spelling, operands, and what
each of them takes for a value. Which command takes which of them is the matter of `Command`.

What a value must be is checked by one function for all arguments (`fault?`), and the check comes
late, when the argument is settled. Most take any text, the empty one included. Two of them have a
variable of the environment that stands in where no word gives a value.
-/

set_option autoImplicit false

namespace ContentSearch.CommandLine

/-- What is wrong with a command line. -/
inductive UsageFault
  /-- Words where a command needs one more word to say what it is to do. -/
  | missingCommand
  /-- The same, where there are no options either. -/
  | nothingAsked
  | unknownCommand
  /-- An option that is not known here, or a word too many. -/
  | unknownArgument
  /-- An option given twice, or two that exclude each other. -/
  | conflict
  /-- An option without its value. -/
  | missingValue
  /-- A value that is none of those that there are. -/
  | badChoice
  /-- A value that does not read as what it should be. -/
  | badValue
  /-- A value for an option that takes none. -/
  | surplusValue
  | missingOperand
  deriving Repr, DecidableEq

/-- The shells that there are completions for. -/
inductive Shell
  | bash
  | zsh
  | fish
  | powershell
  deriving Repr, DecidableEq

namespace Shell

def name : Shell → String
  | .bash => "bash"
  | .zsh => "zsh"
  | .fish => "fish"
  | .powershell => "powershell"

def all : List Shell := [.bash, .zsh, .fish, .powershell]

def ofName? (s : String) : Option Shell := all.find? (·.name = s)

end Shell

inductive Argument
  | help
  | version
  | verbose
  | quiet
  | json
  | noColor
  | portal
  | token
  | filter
  | terms
  | page
  | sortField
  | sortOrder
  | aggregations
  | bbox
  | start
  | size
  | cursor
  | key
  | value
  | shell
  deriving Repr, DecidableEq

namespace Argument

/-- The spelling behind two dashes; operands have none. -/
def long? : Argument → Option String
  | .help => some "help"
  | .version => some "version"
  | .verbose => some "verbose"
  | .quiet => some "quiet"
  | .json => some "json"
  | .noColor => some "no-color"
  | .portal => some "portal"
  | .token => some "token"
  | .filter => some "filter"
  | .terms => some "terms"
  | .page => some "page"
  | .sortField => some "sort-field"
  | .sortOrder => some "sort-order"
  | .aggregations => some "aggregations"
  | .bbox => some "bbox"
  | .start => some "start"
  | .size => some "num"
  | _ => none

def short? : Argument → Option Char
  | .help => some 'h'
  | .version => some 'V'
  | .verbose => some 'v'
  | .quiet => some 'q'
  | .filter => some 'f'
  | .terms => some 't'
  | _ => none

def isFlag : Argument → Bool
  | .help | .version | .verbose | .quiet | .json | .noColor => true
  | _ => false

def positive? (s : String) : Option Nat :=
  match Text.Decimal.read Text.Decimal.limit32 s.toList with
  | .ok n => if 1 ≤ n then some n else none
  | .error _ => none

def fault? (a : Argument) (v : String) : Option UsageFault :=
  match a with
  | .filter => if v = "" then some .badChoice else none
  | .sortOrder => if (SortOrder.ofName? v).isNone then some .badValue else none
  | .start => if (positive? v).isNone then some .badValue else none
  | .size => if (positive? v).isNone then some .badValue else none
  | .shell => if (Shell.ofName? v).isNone then some .badChoice else none
  | _ => none

def everywhere : List Argument :=
  [.help, .version, .verbose, .quiet, .json, .noColor, .portal, .token]

def ofQuery : List Argument :=
  [.filter, .terms, .page, .sortField, .sortOrder, .aggregations, .bbox]

/-- The environment variable that stands in for an option. -/
def standIn? : Argument → Option String
  | .portal => some "HS_PORTAL"
  | .token => some "HS_TOKEN"
  | _ => none

end Argument
end ContentSearch.CommandLine
