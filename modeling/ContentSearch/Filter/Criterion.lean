import ContentSearch.Json.Value

/-!
# Criteria

What a filter asks of one field: a term, a list of terms any of which will do, terms combined by
an operator, or a range of numbers. A criterion is either built directly or read from a loosely
shaped JSON value, where strings, arrays and objects each have their reading and anything else has
none.

Reading looks for the strongest shape first. An object with a `value` is a group, whatever else it
has, and if its operator or its terms cannot be read it is nothing; it does not become a range
instead. An end that cannot be read is a missing end, so a range may be left without any, and then
it is there and empty.
-/

set_option autoImplicit false

namespace ContentSearch

/-- How the terms of a group are combined. -/
inductive Operator
  | and
  | or
  | not
  deriving Repr, DecidableEq

namespace Operator

def name : Operator → String
  | .and => "AND"
  | .or => "OR"
  | .not => "NOT"

/-- What stands between two terms. Excluded terms are excluded together. -/
def joiner : Operator → String
  | .or => " OR "
  | .and => " AND "
  | .not => " AND "

/-- The operator with this name in any mixture of cases. Only ASCII letters have two cases. -/
def ofName? (s : String) : Option Operator :=
  let upper := s.toList.map Char.toUpper
  if upper = ['A', 'N', 'D'] then some .and
  else if upper = ['O', 'R'] then some .or
  else if upper = ['N', 'O', 'T'] then some .not
  else none

def unknownMessage (s : String) : String := "unknown boolean operator: " ++ s

end Operator

/-- A range of numbers, open where an end is missing. -/
structure Interval where
  low? : Option Int
  high? : Option Int
  deriving Repr, DecidableEq

namespace Interval

/-- The greatest whole number up to which a double has every whole number. -/
def openUpperBound : Int := 9007199254740991

/-- The low end, zero where there is none. -/
def low (r : Interval) : Int := r.low?.getD 0

/-- The high end, `openUpperBound` where there is none. -/
def high (r : Interval) : Int := r.high?.getD openUpperBound

def isUnbounded (r : Interval) : Bool := r.low?.isNone && r.high?.isNone

end Interval

inductive Criterion
  | scalar (term : String)
  | list (terms : List String)
  | range (r : Interval)
  | grouped (op : Operator) (terms : List String)
  deriving Repr, DecidableEq

namespace Criterion

/-- A criterion that asks for nothing: no term that is not empty, or no end. -/
def isEmpty : Criterion → Bool
  | .scalar s => s = ""
  | .list ss => ss.all (· = "")
  | .grouped _ ss => ss.all (· = "")
  | .range r => r.isUnbounded

/-! ## Reading -/

/-- An end of a range: a whole number of at most `openUpperBound` in either direction, written as
an integer or as a double. One integer is read here as any other beyond the limit and is not in
words of 64 bits: −9223372036854775808, whose absolute value is too great for such a word. To ask
for that value is an error there, or gives the number itself, which is then taken for an end. -/
def bound? : Json.Value → Option Int
  | .number (.integer n) => if n.natAbs ≤ Interval.openUpperBound.natAbs then some n else none
  | .number (.double x) =>
    match x.toInt? with
    | some n => if n.natAbs ≤ Interval.openUpperBound.natAbs then some n else none
    | none => none
  | _ => none

def termsOf (items : List Json.Value) : List String :=
  items.filterMap Json.Value.asString?

/-- The operator of a group: `or` unless a name says otherwise. -/
def operatorOf? : Option Json.Value → Option Operator
  | none => some .or
  | some .null => some .or
  | some (.string s) => Operator.ofName? s
  | some _ => none

/-- The terms of a group: a single string or the strings of an array. -/
def groupTerms? : Json.Value → Option (List String)
  | .string s => some [s]
  | .array items => some (termsOf items)
  | _ => none

/-- An object is a group if it has a `value`, else a range if it has a `from` or a `to`. -/
def ofMembers? (members : Entries Json.Value) : Option Criterion :=
  match members.find? "value" with
  | some v =>
    match operatorOf? (members.find? "bool"), groupTerms? v with
    | some op, some terms => some (.grouped op terms)
    | _, _ => none
  | none =>
    let low := members.find? "from"
    let high := members.find? "to"
    if low.isSome || high.isSome then some (.range ⟨low.bind bound?, high.bind bound?⟩)
    else none

/-- **Reading a criterion.** -/
def ofJson? : Json.Value → Option Criterion
  | .string s => some (.scalar s)
  | .array items => some (.list (termsOf items))
  | .object members => ofMembers? members
  | _ => none

end Criterion
end ContentSearch
