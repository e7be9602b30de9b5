import ContentSearch.Binary64.Basic
import ContentSearch.Keyed

/-!
# JSON values

A number is a whole number, when it was written as one and fits 64 bits with or without a sign, or
a finite double. The two do not mix: `5` is an integer and `5.0` is not, even where both stand for
the same quantity.

An object is the list of its members. A value that was read has them sorted, each name once; a
value that is about to be written has them in the order in which it wants them written.

A value keeps less than its text. How a string was escaped and how an exponent was written are gone,
and of members with one name all but the last; whoever needs to know of them looks at a document
(`Json.Document`). Looking a name up in what is no object finds nothing.
-/

set_option autoImplicit false

namespace ContentSearch.Json

inductive Number
  | integer (n : Int)
  | double (x : Binary64)
  deriving Repr, DecidableEq

inductive Value
  | null
  | bool (b : Bool)
  | number (n : Number)
  | string (s : String)
  | array (items : List Value)
  | object (members : List (String × Value))
  deriving Repr

namespace Value

/-- The integer `n`. -/
def int (n : Int) : Value := .number (.integer n)

/-- The natural number `n`. -/
def nat (n : Nat) : Value := .number (.integer n)

def ofOption (s : Option String) : Value := s.elim .null .string

/-- The value under a name, where the value is an object that has one. -/
def get? (v : Value) (name : String) : Option Value :=
  match v with
  | .object members => Entries.find? name members
  | _ => none

def asString? : Value → Option String
  | .string s => some s
  | _ => none

def asArray? : Value → Option (List Value)
  | .array items => some items
  | _ => none

/-- The integer, if the value is one that was written as an integer. -/
def asInt? : Value → Option Int
  | .number (.integer n) => some n
  | _ => none

/-- The integer as a natural number below `limit`. -/
def asNat? (limit : Nat) (v : Value) : Option Nat :=
  match v.asInt? with
  | some n => if 0 ≤ n ∧ n < limit then some n.toNat else none
  | none => none

theorem asNat?_nat {limit n : Nat} (h : n < limit) : (nat n).asNat? limit = some n := by
  show (if (0 : Int) ≤ n ∧ (n : Int) < limit then some (n : Int).toNat else none) = _
  rw [if_pos ⟨by omega, by omega⟩, Int.toNat_natCast]

/-- The integer if it fits 64 bits with a sign. -/
def asInt64? (v : Value) : Option Int :=
  match v.asInt? with
  | some n => if -Nat.pow 2 63 ≤ n ∧ n < Nat.pow 2 63 then some n else none
  | none => none

end Value
end ContentSearch.Json
