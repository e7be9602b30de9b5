import ContentSearch.Json.Document

/-!
# Records

A record is read from an object by the names of its fields. Members with other names do not matter:
from a text, not even their strings and numbers have to mean anything. A field given twice is an
error where the text is at hand, and cannot happen in a value. An array is read as the fields in
their order, the last ones left out if it is short; a longer one is no record.

Both readers answer with the fields that are there. Whether one may be missing, and what type it
has, is for the record's own reader to say.

Reading a field decides what it is allowed to be. `requiredField?` and `field?` put the two
questions together, is it there and is it of its type, and the latter has the default for a field
that is not; neither falls back on a default where the field is there and is of another type.
-/

set_option autoImplicit false

namespace ContentSearch.Json

/-- Pairs names with values as far as both go; more values than names is an error. -/
def alongside? {α : Type} (names : List String) (values : List α) : Option (Entries α) :=
  if values.length ≤ names.length then some (names.zip values) else none

/-- The fields among the members, each at most once. Every name must spell a text. -/
def Document.fields? (names : List String) : List (Option String × Document) →
    Option (Entries Value)
  | [] => some []
  | (none, _) :: _ => none
  | (some k, d) :: r =>
    if k ∈ names then
      match d.toValue? (maxDepth - 1), Document.fields? names r with
      | some v, some es => if (es.find? k).isSome then none else some ((k, v) :: es)
      | _, _ => none
    else Document.fields? names r

def Document.record? (names : List String) : Document → Option (Entries Value)
  | .object members => Document.fields? names members
  | .array items =>
    match Document.toValues? (maxDepth - 1) items with
    | some vs => alongside? names vs
    | none => none
  | .scalar _ => none

def Value.record? (names : List String) : Value → Option (Entries Value)
  | .object members => some (members.filter fun e => e.1 ∈ names)
  | .array items => alongside? names items
  | _ => none

/-- A field that may be missing: `default` stands in for it, and one that is there must be read. -/
def field? {α : Type} (es : Entries Value) (name : String) (default : α)
    (read : Value → Option α) : Option α :=
  match es.find? name with
  | none => some default
  | some v => read v

def requiredField? {α : Type} (es : Entries Value) (name : String) (read : Value → Option α) :
    Option α :=
  (es.find? name).bind read

end ContentSearch.Json
