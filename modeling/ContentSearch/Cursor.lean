import ContentSearch.Json.Printer
import ContentSearch.Json.Record
import ContentSearch.Text.Base64
import ContentSearch.Text.Blank

/-!
# Page cursors

A cursor says where a page starts and how many results it has. Outside the program it is an opaque
token: the Base64 spelling of a small JSON object.

Reading a token never fails. Whatever is not the token of a cursor with a start and a size of at
least one is the cursor of the first page.

A cursor need not be a good one: a start or a size of zero can be written out, and is then read as
the first page. Stepping keeps the size and stops at the greatest start, where it gives the same
page again. Which cursors can come about at all is said among the proofs (`Held`).
-/

set_option autoImplicit false

namespace ContentSearch

structure Cursor where
  /-- The first result of the page, counted from one. -/
  start : Nat
  /-- The number of results on a page. -/
  size : Nat
  deriving Repr, DecidableEq

namespace Cursor

def first : Cursor := ⟨1, 10⟩

/-- The greatest start and size. -/
def most : Nat := Text.Decimal.limit32 - 1

/-- The names of a cursor's fields, in their order. -/
def fieldNames : List String := ["start", "num"]

def toJson (c : Cursor) : Json.Value :=
  .object [("start", .nat c.start), ("num", .nat c.size)]

def token (c : Cursor) : String :=
  String.ofList (Text.Base64.encode (Text.Utf8.encode c.toJson.compact))

/-- A cursor from the fields that a document has. Both must be there. -/
def ofFields? (es : Entries Json.Value) : Option Cursor :=
  match Json.requiredField? es "start" (Json.Value.asNat? Text.Decimal.limit32),
    Json.requiredField? es "num" (Json.Value.asNat? Text.Decimal.limit32) with
  | some start, some size => some ⟨start, size⟩
  | _, _ => none

def isValid (c : Cursor) : Bool := 1 ≤ c.start && 1 ≤ c.size

/-- The cursor that bytes of JSON spell, if it names a page. -/
def ofBytes? (bytes : List UInt8) : Option Cursor :=
  match (Json.Document.ofBytes? bytes).bind (Json.Document.record? fieldNames) with
  | some es =>
    match ofFields? es with
    | some c => if c.isValid then some c else none
    | none => none
  | none => none

/-- The cursor of a token, blanks around it aside. -/
def ofToken? (token : String) : Option Cursor :=
  (Text.Base64.decode? (Text.trimBlanks token.toList)).bind ofBytes?

/-- **The cursor that a token stands for**: the first page, unless the token says otherwise. -/
def decode : Option String → Cursor
  | none => first
  | some token => (ofToken? token).getD first

/-- The page behind this one. The start stops at the greatest number it can hold. -/
def next (c : Cursor) : Cursor := ⟨min (c.start + c.size) most, c.size⟩

end Cursor
end ContentSearch
