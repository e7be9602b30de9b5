/-!
# Fields

The fields that a content query knows, in the order in which a query names them, and how each one
writes a term.

The table is closed, and its order is the order of the clauses in every query, whatever order a
filter was built in. A kind says what a field takes: a range field takes nothing but ranges, and all
others take everything but these. Quoting goes with the kind alone; nothing looks at the term.
-/

set_option autoImplicit false

namespace ContentSearch

/-- What a field takes. -/
inductive FieldKind
  /-- Free search terms, written without the field's name. -/
  | terms
  /-- Text, written in quotes. -/
  | text
  /-- A single word, written bare. -/
  | token
  /-- A range of numbers. -/
  | range
  deriving Repr, DecidableEq

namespace FieldKind

def name : FieldKind → String
  | .terms => "Terms"
  | .text => "Text"
  | .token => "Token"
  | .range => "Range"

end FieldKind

structure Field where
  name : String
  kind : FieldKind
  deriving Repr, DecidableEq

namespace Field

/-- **The fields**, in the order of their clauses. -/
def all : List Field :=
  [⟨"terms", .terms⟩, ⟨"owner", .token⟩, ⟨"created", .range⟩, ⟨"modified", .range⟩,
   ⟨"title", .text⟩, ⟨"typekeywords", .text⟩, ⟨"tags", .text⟩, ⟨"type", .text⟩,
   ⟨"access", .token⟩, ⟨"culture", .token⟩, ⟨"categories", .text⟩, ⟨"orgid", .token⟩,
   ⟨"id", .token⟩]

def find? (name : String) : Option Field := all.find? (·.name = name)

def quoted (f : Field) : Bool := f.kind = .text

def label (f : Field) : String :=
  if f.kind = .terms then "" else f.name ++ ": "

/-- A term in the field's spelling. Nothing is escaped: the query language has no escapes. -/
def spell (f : Field) (term : String) : String :=
  if f.quoted then "\"" ++ term ++ "\"" else term

end Field
end ContentSearch
