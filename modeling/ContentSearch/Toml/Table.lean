import ContentSearch.Keyed

/-!
# TOML tables

What a TOML text says, and the rules by which its statements add up.

A table knows how it came to be, because that decides who may add to it later:

* a table with a *header* of its own takes pairs only under that header;
* a table *implied* by a longer header may still get a header of its own, once;
* a *dotted* table, made by the dots of a key, grows by more such keys and gets no header;
* an *inline* table is complete as it stands.

A key that is already taken is an error everywhere, so no statement overrides another.
-/

set_option autoImplicit false

namespace ContentSearch.Toml

/-- How a table came to be. -/
inductive Origin
  | header
  | implied
  | dotted
  | inline
  deriving Repr, DecidableEq

inductive Node
  | string (s : String)
  | integer (n : Int)
  | float (text : List Char)
  | boolean (b : Bool)
  | dateTime (text : List Char)
  | array (items : List Node)
  | table (origin : Origin) (entries : List (String × Node))
  /-- Tables of the same name, each with a header of its own, the last one first. -/
  | tables (elements : List (List (String × Node)))
  deriving Repr

def Node.asString? : Node → Option String
  | .string s => some s
  | _ => none

def Node.asInteger? : Node → Option Int
  | .integer n => some n
  | _ => none

/-- What is done to the table that a path leads to. -/
abbrev Change := Origin → Entries Node → Option (Entries Node)

/-- Changes the table at the end of a path. With `dots` the path is the front of a dotted key, else
it is the front of a header; tables on the way that are not there yet are made accordingly. -/
def descend (dots : Bool) (change : Change) : List String → Change
  | [], origin, es => change origin es
  | k :: ks, _, es =>
    match es.find? k with
    | none =>
      let origin := if dots then Origin.dotted else Origin.implied
      (descend dots change ks origin []).map fun child => es.insert k (.table origin child)
    | some (.table origin child) =>
      if origin = .inline ∨ (dots ∧ origin = .header) then none
      else (descend dots change ks origin child).map fun child => es.insert k (.table origin child)
    | some (.tables (last :: front)) =>
      (descend dots change ks .header last).map fun last => es.insert k (.tables (last :: front))
    | some _ => none

/-- Adds a value under a key that is not taken. -/
def addValue (k : String) (v : Node) : Change := fun _ es =>
  if (es.find? k).isSome then none else some (es.insert k v)

/-- Adds a pair to a table. The key's last part goes to a table of dots, if there are dots. -/
def addPair (path : List String) (v : Node) (es : Entries Node) : Option (Entries Node) :=
  match path.reverse with
  | [] => none
  | k :: front =>
    let dots := front.reverse
    descend true
      (fun origin es => if dots ≠ [] ∧ origin ≠ .dotted then none else addValue k v origin es)
      dots .header es

/-- Gives the table at a path its header. -/
def addHeader (path : List String) (es : Entries Node) : Option (Entries Node) :=
  match path.reverse with
  | [] => none
  | k :: front =>
    descend false
      (fun _ es =>
        match es.find? k with
        | none => some (es.insert k (.table .header []))
        | some (.table .implied child) => some (es.insert k (.table .header child))
        | some _ => none)
      front.reverse .header es

/-- Adds another table to the tables at a path. -/
def addElement (path : List String) (es : Entries Node) : Option (Entries Node) :=
  match path.reverse with
  | [] => none
  | k :: front =>
    descend false
      (fun _ es =>
        match es.find? k with
        | none => some (es.insert k (.tables [[]]))
        | some (.tables elements) => some (es.insert k (.tables ([] :: elements)))
        | some _ => none)
      front.reverse .header es

/-! ## Statements -/

inductive Statement
  | pair (path : List String) (v : Node)
  | header (path : List String)
  | element (path : List String)
  deriving Repr

/-- The tables so far, and the path of the last header. -/
structure State where
  entries : Entries Node
  place : List String

/-- Adds a statement. A pair belongs to the table of the last header. -/
def State.add (s : State) : Statement → Option State
  | .header path => (addHeader path s.entries).map fun es => ⟨es, path⟩
  | .element path => (addElement path s.entries).map fun es => ⟨es, path⟩
  | .pair path v =>
    (descend false (fun _ es => addPair path v es) s.place .header s.entries).map fun es =>
      { s with entries := es }

def ofStatements? (statements : List Statement) : Option (Entries Node) :=
  (statements.foldlM State.add ⟨[], []⟩).map State.entries

end ContentSearch.Toml
