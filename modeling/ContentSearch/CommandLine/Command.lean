import ContentSearch.CommandLine.Argument

/-!
# The commands

The commands form a tree. A command either leads on to others or does something itself; the former
take no operands, the latter have no commands below them. Every command that leads on also answers
to `help`, followed by the names of the commands that help is wanted for.

The table has the two short names as well, and a command has the same reading under either. How a
command is described to a reader is no matter of this module; the library that reads command lines
words it (`Wording`).
-/

set_option autoImplicit false

namespace ContentSearch.CommandLine

inductive Command
  | top
  | compile
  | search
  | cursor
  | cursorEncode
  | cursorDecode
  | cursorNext
  | config
  | configShow
  | configPath
  | configSet
  | completions
  /-- What `help` itself is when help is wanted for it. -/
  | help
  deriving Repr, DecidableEq

namespace Command

/-- The names of the commands below a command, other than `help`. -/
def children : Command → List (String × Command)
  | .top =>
    [("compile", .compile), ("c", .compile), ("search", .search), ("s", .search),
     ("cursor", .cursor), ("config", .config), ("completions", .completions)]
  | .cursor => [("encode", .cursorEncode), ("decode", .cursorDecode), ("next", .cursorNext)]
  | .config => [("show", .configShow), ("path", .configPath), ("set", .configSet)]
  | _ => []

def isGroup (c : Command) : Bool := !c.children.isEmpty

def child? (c : Command) (name : String) : Option Command :=
  if c.isGroup ∧ name = "help" then some .help else c.children.lookup name

def operands : Command → List Argument
  | .cursorDecode => [.cursor]
  | .cursorNext => [.cursor]
  | .configSet => [.key, .value]
  | .completions => [.shell]
  | _ => []

def ownOptions : Command → List Argument
  | .compile => Argument.ofQuery
  | .search => Argument.ofQuery
  | .cursorEncode => [.start, .size]
  | _ => []

def options (c : Command) : List Argument := Argument.everywhere ++ c.ownOptions

def long? (c : Command) (name : String) : Option Argument :=
  c.options.find? (·.long? = some name)

def short? (c : Command) (letter : Char) : Option Argument :=
  c.options.find? (·.short? = some letter)

/-- The words that lead to the command, the program's own name first. -/
def words : Command → List String
  | .top => ["hs"]
  | .compile => ["hs", "compile"]
  | .search => ["hs", "search"]
  | .cursor => ["hs", "cursor"]
  | .cursorEncode => ["hs", "cursor", "encode"]
  | .cursorDecode => ["hs", "cursor", "decode"]
  | .cursorNext => ["hs", "cursor", "next"]
  | .config => ["hs", "config"]
  | .configShow => ["hs", "config", "show"]
  | .configPath => ["hs", "config", "path"]
  | .configSet => ["hs", "config", "set"]
  | .completions => ["hs", "completions"]
  | .help => ["hs", "help"]

/-- The version of the program, under the name of the command. -/
def versionText (c : Command) : String := "-".intercalate c.words ++ " 0.1.0\n"

end Command
end ContentSearch.CommandLine
