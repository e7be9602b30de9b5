import ContentSearch.Text.Pieces
import ContentSearch.Text.Utf8

/-!
# Files

The files that a run can see: what stands at each place of a tree of directories, seen from the
working directory. A path is followed name by name, and each name but the last must lead through a
directory; where it does not, the fault says what was in the way.

A place is the list of names on the way to it. The names of an absolute path start with an empty
one, so that the root has a place of its own beside the working directory; where below the root the
working directory lies is not known. The directories around the working directory are reached by
`..` alone, once for each, and they are always there.

Two paths are one file if they lead to one place, however they are spelled. There are no links, so
going into a directory and back leads to where it started.

What can be done to files is done as a whole or not at all, with one exception: the directories on a
way are made one by one, and where that ends half way, those that were made stay. A disk that fills
up, a file that is half written and rights that are missing have no part here.
-/

set_option autoImplicit false

namespace ContentSearch

/-- Why a file cannot be read or written. -/
inductive FileFault
  | notFound
  | alreadyExists
  | notDirectory
  | isDirectory
  /-- The bytes are there and spell no text. -/
  | notText
  deriving Repr, DecidableEq

namespace FileFault

def message : FileFault → String
  | .notFound => "No such file or directory (os error 2)"
  | .alreadyExists => "File exists (os error 17)"
  | .notDirectory => "Not a directory (os error 20)"
  | .isDirectory => "Is a directory (os error 21)"
  | .notText => "stream did not contain valid UTF-8"

end FileFault

/-! ## Paths -/

/-- The names of a path between its slashes. -/
structure Path where
  absolute : Bool
  /-- The names in their order; none is empty. -/
  names : List String
  /-- Whether a slash stands behind the last name. -/
  closed : Bool
  deriving Repr, DecidableEq

namespace Path

def ofString (path : String) : Path :=
  let s := path.toList
  { absolute := s.head? = some '/'
    names := ((Text.pieces (· = '/') s).filter (· ≠ [])).map String.ofList
    closed := s.getLast? = some '/' }

/-- The names that count: a `.` does only at the very front. -/
def components (p : Path) : List String :=
  match p.names with
  | [] => []
  | n :: r =>
    if n = "." ∧ p.absolute then r.filter (· ≠ ".") else n :: r.filter (· ≠ ".")

/-- The directory that a path lies in, if it has a last name. -/
def parent? (p : Path) : Option Path :=
  match p.components with
  | [] => none
  | ns => some ⟨p.absolute, ns.dropLast, false⟩

def isStandardInput (path : String) : Bool :=
  let p := ofString path
  !p.absolute && p.components = ["-"]

def join (path name : String) : String :=
  if path = "" ∨ path.toList.getLast? = some '/' then path ++ name else path ++ "/" ++ name

end Path

/-! ## The tree -/

/-- The names on the way to a place. -/
abbrev Place := List String

inductive FileEntry
  | file (bytes : List UInt8)
  | directory
  deriving Repr, DecidableEq

structure Files where
  entries : List (Place × FileEntry)
  deriving Repr, DecidableEq

namespace Files

def empty : Files := ⟨[]⟩

/-- The place of the root, seen beside the working directory. -/
def root : Place := [""]

/-- The working directory and those around it, up to the root. -/
def isFixed (place : Place) : Bool := place.all (· = "..") || place = root

def entry? (fs : Files) (place : Place) : Option FileEntry :=
  if isFixed place then some .directory else fs.entries.lookup place

/-- Puts an entry at a place, instead of one that stands there. -/
def put (fs : Files) (place : Place) (e : FileEntry) : Files :=
  ⟨(place, e) :: fs.entries.filter fun x => x.1 ≠ place⟩

/-- The place that a name leads to. There is nothing above the root. -/
def move (place : Place) (name : String) : Place :=
  if name = "." then place
  else if name = ".." then
    if place = root then root
    else if isFixed place then place ++ [".."]
    else place.dropLast
  else place ++ [name]

/-- Follows names from a place; every place that is left must be a directory. -/
def walk (fs : Files) (place : Place) : List String → Except FileFault Place
  | [] => .ok place
  | name :: r =>
    match fs.entry? place with
    | none => .error .notFound
    | some (.file _) => .error .notDirectory
    | some .directory => walk fs (move place name) r

def startOf (p : Path) : Place := if p.absolute then root else []

/-- The place of a path. A slash at the end asks for a directory. -/
def resolve (fs : Files) (p : Path) : Except FileFault Place :=
  if p.names = [] ∧ ¬p.absolute then .error .notFound
  else fs.walk (startOf p) (if p.closed then p.names ++ ["."] else p.names)

def readBytes (fs : Files) (path : String) : Except FileFault (List UInt8) :=
  match fs.resolve (.ofString path) with
  | .error e => .error e
  | .ok place =>
    match fs.entry? place with
    | none => .error .notFound
    | some .directory => .error .isDirectory
    | some (.file bytes) => .ok bytes

def textOf (bytes : List UInt8) : Except FileFault String :=
  match Text.Utf8.read? bytes with
  | some s => .ok (String.ofList s)
  | none => .error .notText

def readText (fs : Files) (path : String) : Except FileFault String :=
  match fs.readBytes path with
  | .ok bytes => textOf bytes
  | .error e => .error e

def contains (fs : Files) (path : String) : Bool :=
  match fs.resolve (.ofString path) with
  | .ok place => (fs.entry? place).isSome
  | .error _ => false

/-- Makes the directories on a way that are missing: what comes of it, and the files afterwards. The
last directory is tried first, and those before it only if one of them is missing; so a file that is
in the way of others is noticed as such, unless something was `made` before it. -/
def makeDirectories (fs : Files) (made : Bool) (place : Place) :
    List String → Except FileFault Unit × Files
  | [] => (.ok (), fs)
  | name :: r =>
    let next := move place name
    match fs.entry? next with
    | some .directory => makeDirectories fs made next r
    | some (.file _) => (.error (if made ∨ r = [] then .alreadyExists else .notDirectory), fs)
    | none => makeDirectories (fs.put next .directory) true next r

/-- Makes the directory that a path lies in, and those around it: what comes of it, and the files
afterwards. -/
def makeWay (fs : Files) (path : String) : Except FileFault Unit × Files :=
  match (Path.ofString path).parent? with
  | none => (.ok (), fs)
  | some p => fs.makeDirectories false (startOf p) p.names

/-- The files once the directory was made that a path lies in. -/
def makeParent (fs : Files) (path : String) : Except FileFault Files :=
  match fs.makeWay path with
  | (.ok (), fs) => .ok fs
  | (.error f, _) => .error f

def write (fs : Files) (path : String) (bytes : List UInt8) : Except FileFault Files :=
  let p := Path.ofString path
  match p.names.getLast? with
  | none => .error (if p.absolute then .isDirectory else .notFound)
  | some name =>
    match fs.walk (startOf p) p.names.dropLast with
    | .error e => .error e
    | .ok dir =>
      match fs.entry? dir with
      | none => .error .notFound
      | some (.file _) => .error .notDirectory
      | some .directory =>
        if p.closed ∨ name = "." ∨ name = ".." then .error .isDirectory
        else if fs.entry? (dir ++ [name]) = some .directory then .error .isDirectory
        else .ok (fs.put (dir ++ [name]) (.file bytes))

end Files
end ContentSearch
