import ContentSearch.Cursor

/-!
# Pages of results

What a portal answers to a query: how many results there are, which of them these are, where the
next page starts, and the results themselves, which are passed on as they are.

Every field may be missing and has a default, a page without any being the empty page. A field that
is there must have its type and fit its range, for a page is read as a whole or not at all. The
start of the next page is what the portal says; it is not computed from the others, and only a
number that a cursor can hold leads anywhere (`next?`).
-/

set_option autoImplicit false

namespace ContentSearch

structure Page where
  total : Nat
  start : Int
  size : Nat
  /-- The start of the next page; not positive where there is none. -/
  nextStart : Int
  results : List Json.Value
  aggregations : Option Json.Value
  deriving Repr

namespace Page

/-- The names of a page's fields, in their order. -/
def fieldNames : List String := ["total", "start", "num", "nextStart", "results", "aggregations"]

/-- A field that may be null, which is the same as missing. -/
def nullable (v : Json.Value) : Option (Option Json.Value) :=
  match v with
  | .null => some none
  | v => some (some v)

/-- A page from the fields that are there. Each may be missing, and none may be of another type. -/
def ofFields? (es : Entries Json.Value) : Option Page := do
  let total ← Json.field? es "total" 0 (Json.Value.asNat? Text.Decimal.limit64)
  let start ← Json.field? es "start" 0 Json.Value.asInt64?
  let size ← Json.field? es "num" 0 (Json.Value.asNat? Text.Decimal.limit32)
  let nextStart ← Json.field? es "nextStart" (-1) Json.Value.asInt64?
  let results ← Json.field? es "results" [] Json.Value.asArray?
  let aggregations ← Json.field? es "aggregations" none nullable
  return { total, start, size, nextStart, results, aggregations }

def ofDocument? (d : Json.Document) : Option Page := (d.record? fieldNames).bind ofFields?

def ofJson? (v : Json.Value) : Option Page := (v.record? fieldNames).bind ofFields?

def parse? (text : String) : Option Page := (Json.Document.parse? text).bind ofDocument?

/-- The page as JSON; aggregations only if there are any. -/
def toJson (p : Page) : Json.Value :=
  .object
    ([("total", .nat p.total), ("start", .int p.start), ("num", .nat p.size),
      ("nextStart", .int p.nextStart), ("results", .array p.results)]
      ++ match p.aggregations with
        | some a => [("aggregations", a)]
        | none => [])

/-- The cursor of the next page, if the portal names one that a cursor can hold. A page without a
size is followed by one of the usual size. -/
def next? (p : Page) : Option Cursor :=
  if 1 ≤ p.nextStart ∧ p.nextStart ≤ Cursor.most then
    some ⟨p.nextStart.toNat, if 0 < p.size then p.size else Cursor.first.size⟩
  else none

end Page
end ContentSearch
