import ContentSearch.Filter.Criterion
import ContentSearch.Filter.Field
import ContentSearch.Json.Document
import ContentSearch.Text.Decimal

/-!
# Filters and their queries

A filter holds a criterion per field name. Any name will do; those that are no field are kept and
say nothing. Its query is the conjunction of one parenthesised clause per field that has something
to say, in the order of the fields, and of a last clause that every query has: code attachments are
never content.

A clause stands in parentheses so that what joins its terms does not reach into its neighbours.
Which criteria have a clause is decided twice, by `Criterion.isEmpty` for the whole and by `written`
for each term, and the two must agree: otherwise there would be empty parentheses. That they do is
proved and not checked when it runs.

Reading a filter is forgiving about everything but JSON itself. A member without a reading is left
out, and a document that is no object is the empty filter; so the only error is a text that is no
JSON.
-/

set_option autoImplicit false

namespace ContentSearch

/-! ## Clauses -/

namespace Field

/-- The terms that are not empty, each with its sign, label and spelling. -/
def written (f : Field) (op : Operator) (terms : List String) : List String :=
  (terms.filter (· ≠ "")).map fun t =>
    (if op = .not then "-" else "") ++ f.label ++ f.spell t

def combine (f : Field) (op : Operator) (terms : List String) : String :=
  op.joiner.intercalate (f.written op terms)

/-- What a criterion asks of the field, without parentheses; nothing where the criterion is empty
or where one of the two is a range and the other is not. -/
def expression? (f : Field) (c : Criterion) : Option String :=
  if c.isEmpty then none
  else
    match c with
    | .range r =>
      if f.kind = .range then
        some (f.name ++ ": [" ++ String.ofList (Text.Decimal.writeInt r.low) ++ " TO "
          ++ String.ofList (Text.Decimal.writeInt r.high) ++ "]")
      else none
    | .scalar t => if f.kind = .range then none else some (f.combine .or [t])
    | .list ts => if f.kind = .range then none else some (f.combine .or ts)
    | .grouped op ts => if f.kind = .range then none else some (f.combine op ts)

def clause? (f : Field) (c : Criterion) : Option String :=
  (f.expression? c).map fun e => "(" ++ e ++ ")"

end Field

/-! ## Filters -/

structure Filter where
  criteria : Keyed Criterion
  deriving DecidableEq

namespace Filter

def empty : Filter := ⟨.empty⟩

instance : EmptyCollection Filter := ⟨empty⟩

/-- Sets the criterion of a field, in place of an earlier one. -/
def insert (f : Filter) (field : String) (c : Criterion) : Filter := ⟨f.criteria.insert field c⟩

def get? (f : Filter) (field : String) : Option Criterion := f.criteria.get? field

/-- Whether the filter has no criterion at all; an empty criterion counts as one. -/
def isEmpty (f : Filter) : Bool := f.criteria.isEmpty

/-- The filter of a list of criteria, the last one of each field. -/
def ofList (cs : List (String × Criterion)) : Filter := ⟨Keyed.ofList cs⟩

/-- The filter that a JSON value spells: an object's members that have a reading. Any other value
is an empty filter. -/
def ofJson : Json.Value → Filter
  | .object members =>
    ofList (members.filterMap fun e => (Criterion.ofJson? e.2).map fun c => (e.1, c))
  | _ => empty

/-- The filter that a JSON text spells, if it is JSON. -/
def parse? (text : String) : Option Filter := (Json.Value.parse? text).map ofJson

/-- The clause that keeps code attachments out. -/
def exclusion : String := "(-type: \"code attachment\")"

/-- The clauses that the filter's fields have, in the order of the fields. -/
def clauses (f : Filter) : List String :=
  Field.all.filterMap fun field => (f.get? field.name).bind field.clause?

/-- **The query.** -/
def toQuery (f : Filter) : String := " AND ".intercalate (f.clauses ++ [exclusion])

-- an empty filter asks only for what is no code attachment
example : empty.toQuery = exclusion := by decide

theorem get?_insert (f : Filter) (k k' : String) (c : Criterion) :
    (f.insert k c).get? k' = if k' = k then some c else f.get? k' :=
  Keyed.get?_insert f.criteria k k' c

end Filter
end ContentSearch
