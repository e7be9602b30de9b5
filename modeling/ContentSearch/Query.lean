import ContentSearch.Connection
import ContentSearch.Cursor
import ContentSearch.Filter.Basic
import ContentSearch.Text.Form

/-!
# Queries

A query is a filter put together with the options of a call: the query text, a sort order, a page,
counts by field, a bounding box and a connection. Compiling never fails; an option that cannot be
used is left out. As JSON a query shows everything but its credential, and what is absent is not
there at all.

The two written forms differ in more than the credential. The form has the address nowhere, since
that is where it goes, and it has a member that says in which format the portal is to answer; JSON
keeps the page and the counts in an object of their own. Either has the number of counts only where
there is something to count by.
-/

set_option autoImplicit false

namespace ContentSearch

inductive SortOrder
  | asc
  | desc
  deriving Repr, DecidableEq

namespace SortOrder

def name : SortOrder → String
  | .asc => "asc"
  | .desc => "desc"

/-- The order with this name, in any mixture of ASCII cases. -/
def ofName? (s : String) : Option SortOrder :=
  let lower := s.toList.map Char.toLower
  if lower = ['a', 's', 'c'] then some .asc
  else if lower = ['d', 'e', 's', 'c'] then some .desc
  else none

/-- The order with exactly this name. -/
def ofExactName? (s : String) : Option SortOrder :=
  if s = "asc" then some .asc else if s = "desc" then some .desc else none

def unknownMessage (s : String) : String :=
  "invalid sort order: " ++ s ++ " (expected asc or desc)"

end SortOrder

/-- The options of a call. -/
structure Options where
  page : Option String
  sortField : Option String
  sortOrder : Option SortOrder
  aggregations : Option String
  bbox : Option String
  connection : Connection
  deriving DecidableEq

def Options.unset : Options := ⟨none, none, none, none, none, .unset⟩

/-- A field and a direction; a sort without one of the two is none. -/
structure Sorting where
  field : String
  order : SortOrder
  deriving Repr, DecidableEq

/-- The fields to count by. -/
structure Counts where
  fields : String
  deriving Repr, DecidableEq

def Counts.size : Nat := 200

structure Query where
  text : String
  sort : Option Sorting
  page : Cursor
  counts : Option Counts
  bbox : Option String
  connection : Connection
  deriving DecidableEq

namespace Query

/-- A sort, where both of its parts are there. -/
def sortOf? (field : Option String) (order : Option SortOrder) : Option Sorting :=
  match nonEmpty field, order with
  | some f, some o => some ⟨f, o⟩
  | _, _ => none

/-- **Compiling.** -/
def compile (filter : Filter) (options : Options) (service : Connection) : Query :=
  { text := filter.toQuery
    sort := sortOf? options.sortField options.sortOrder
    page := Cursor.decode options.page
    counts := (nonEmpty options.aggregations).map Counts.mk
    bbox := nonEmpty options.bbox
    connection := options.connection.resolve service }

/-- A member that is there only if its value is. -/
def optional (name : String) (v : Option String) : Entries Json.Value :=
  match v with
  | some s => [(name, .string s)]
  | none => []

def paramMembers (q : Query) : Entries Json.Value :=
  [("start", .nat q.page.start), ("num", .nat q.page.size)]
    ++ match q.counts with
      | some c => [("countFields", .string c.fields), ("countSize", .nat Counts.size)]
      | none => []

def sortMembers (q : Query) : Entries Json.Value :=
  match q.sort with
  | some s => [("sortField", .string s.field), ("sortOrder", .string s.order.name)]
  | none => []

/-- The query as JSON, its members in a fixed order. -/
def toJson (q : Query) : Json.Value :=
  .object
    ([("q", .string q.text)] ++ q.sortMembers ++ [("params", .object q.paramMembers)]
      ++ optional "bbox" q.bbox ++ optional "endpoint" q.connection.endpoint)

/-- The query as the pairs of a form, its names in a fixed order. -/
def formPairs (q : Query) : List (String × String) :=
  [("f", "json"), ("q", q.text),
   ("start", String.ofList (Text.Decimal.write q.page.start)),
   ("num", String.ofList (Text.Decimal.write q.page.size))]
    ++ (match q.sort with
      | some s => [("sortField", s.field), ("sortOrder", s.order.name)]
      | none => [])
    ++ (match q.counts with
      | some c =>
        [("countFields", c.fields),
         ("countSize", String.ofList (Text.Decimal.write Counts.size))]
      | none => [])
    ++ (match q.bbox with
      | some b => [("bbox", b)]
      | none => [])
    ++ (match q.connection.credential with
      | some c => [("token", c.secret)]
      | none => [])

def formBody (q : Query) : String := String.ofList (Text.Form.encode q.formPairs)

end Query
end ContentSearch
