import ContentSearch.Toml.Quoted
import ContentSearch.Toml.Scalar

/-!
# Reading TOML

A document is a list of statements, one to a line: pairs of a key and a value, headers of tables,
and headers of elements in a list of tables. Comments and empty lines are no statements. What the
statements add up to is `ofStatements?`'s matter.

Arrays may go over several lines and end with a comma; inline tables may do neither. Values may lie
in each other only so deep, and keys have only so many parts (`deepest`). The recursion through
values is bounded by the length of the text too: every two calls take at least one character.
-/

set_option autoImplicit false

namespace ContentSearch.Toml

/-- How deep arrays and inline tables may lie in each other, and how many parts a key may have. -/
def deepest : Nat := 79

/-! ## Blanks and line ends -/

def skipBlanks (s : List Char) : List Char := s.dropWhile fun c => c = ' ' || c = '\t'

/-- The text without the comment at its front, if there is one. -/
def skipComment : List Char → List Char
  | '#' :: r => r.dropWhile Quoted.isVisible
  | r => r

/-- What follows the end of the line, where nothing but blanks and a comment are left on it. -/
def lineEnd? (s : List Char) : Option (List Char) :=
  match skipComment (skipBlanks s) with
  | [] => some []
  | '\n' :: r => some r
  | '\r' :: '\n' :: r => some r
  | _ => none

/-- The text without the blanks, comments and line ends at its front. A comment must end with its
line. -/
def skipLines? : Nat → List Char → Option (List Char)
  | 0, _ => none
  | fuel + 1, s =>
    match skipBlanks s with
    | '#' :: r => (lineEnd? ('#' :: r)).bind (skipLines? fuel)
    | '\n' :: r => skipLines? fuel r
    | '\r' :: '\n' :: r => skipLines? fuel r
    | r => some r

/-! ## Keys -/

def isBareKeyChar (c : Char) : Bool := c.isAlphanum || c = '_' || c = '-'

def simpleKey? (s : List Char) : Option (String × List Char) :=
  match s with
  | '"' :: r => (Quoted.basic? r).map fun p => (String.ofList p.1, p.2)
  | '\x27' :: r => (Quoted.literal? r).map fun p => (String.ofList p.1, p.2)
  | s =>
    match s.takeWhile isBareKeyChar with
    | [] => none
    | name => some (String.ofList name, s.dropWhile isBareKeyChar)

/-- The parts of a key between its dots, and what follows it and the blanks behind it. -/
def keyParts? : Nat → List Char → Option (List String × List Char)
  | 0, _ => none
  | fuel + 1, s =>
    match simpleKey? (skipBlanks s) with
    | none => none
    | some (name, r) =>
      match skipBlanks r with
      | '.' :: r => (keyParts? fuel r).map fun p => (name :: p.1, p.2)
      | r => some ([name], r)

/-- A key of not too many parts, and what follows it and the blanks behind it. -/
def key? (s : List Char) : Option (List String × List Char) :=
  (keyParts? (s.length + 1) s).filter fun p => p.1.length ≤ deepest

/-! ## Values -/

mutual

/-- A value in which no more than `room` others lie in each other, and what follows it. -/
def value? : Nat → Nat → List Char → Option (Node × List Char)
  | _, 0, _ => none
  | room, fuel + 1, s =>
    match s with
    | '"' :: _ => (Quoted.any? s).map fun p => (.string (String.ofList p.1), p.2)
    | '\x27' :: _ => (Quoted.any? s).map fun p => (.string (String.ofList p.1), p.2)
    | '[' :: r =>
      if room = 0 then none else (items? (room - 1) fuel r).map fun p => (.array p.1, p.2)
    | '\x7b' :: r => if room = 0 then none else inlineTable? (room - 1) fuel r
    | s => wordValue? s

/-- The items of an array up to its end, and what follows it. -/
def items? : Nat → Nat → List Char → Option (List Node × List Char)
  | _, 0, _ => none
  | room, fuel + 1, s =>
    match skipLines? (s.length + 1) s with
    | none => none
    | some (']' :: r) => some ([], r)
    | some s =>
      match value? room fuel s with
      | none => none
      | some (v, r) =>
        match skipLines? (r.length + 1) r with
        | some (',' :: r) => (items? room fuel r).map fun p => (v :: p.1, p.2)
        | some (']' :: r) => some ([v], r)
        | _ => none

/-- An inline table up to its end, and what follows it. -/
def inlineTable? : Nat → Nat → List Char → Option (Node × List Char)
  | _, 0, _ => none
  | room, fuel + 1, s =>
    match skipBlanks s with
    | '\x7d' :: r => some (.table .inline [], r)
    | s =>
      match pairs? room fuel s with
      | none => none
      | some (pairs, r) =>
        (pairs.foldlM (fun es p => addPair p.1 p.2 es) []).map fun es => (.table .inline es, r)

/-- The pairs of an inline table up to its end, at least one, and what follows it. -/
def pairs? : Nat → Nat → List Char → Option (List (List String × Node) × List Char)
  | _, 0, _ => none
  | room, fuel + 1, s =>
    match key? s with
    | some (path, '=' :: r) =>
      match value? room fuel (skipBlanks r) with
      | none => none
      | some (v, r) =>
        match skipBlanks r with
        | ',' :: r => (pairs? room fuel r).map fun p => ((path, v) :: p.1, p.2)
        | '\x7d' :: r => some ([(path, v)], r)
        | _ => none
    | _ => none

end

/-! ## Statements -/

/-- The statement at the front, and what follows it on its line. -/
def statement? (s : List Char) : Option (Statement × List Char) :=
  match s with
  | '[' :: '[' :: r =>
    match key? r with
    | some (path, ']' :: ']' :: r) => some (.element path, r)
    | _ => none
  | '[' :: r =>
    match key? r with
    | some (path, ']' :: r) => some (.header path, r)
    | _ => none
  | s =>
    match key? s with
    | some (path, '=' :: r) =>
      (value? deepest (2 * r.length + 2) (skipBlanks r)).map fun p => (.pair path p.1, p.2)
    | _ => none

def statements? : Nat → List Char → Option (List Statement)
  | 0, _ => none
  | fuel + 1, s =>
    match skipBlanks s with
    | [] => some []
    | '\n' :: r => statements? fuel r
    | '\r' :: '\n' :: r => statements? fuel r
    | '#' :: r => (lineEnd? ('#' :: r)).bind (statements? fuel)
    | s =>
      match statement? s with
      | none => none
      | some (st, r) =>
        match lineEnd? r with
        | none => none
        | some r => (statements? fuel r).map (st :: ·)

/-- **The entries of a document.** A byte order mark in front of it does not count. -/
def read? (text : String) : Option (Entries Node) :=
  let s := match text.toList with
    | '\ufeff' :: r => r
    | s => s
  (statements? (s.length + 1) s).bind ofStatements?

end ContentSearch.Toml
