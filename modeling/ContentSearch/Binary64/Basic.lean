/-!
# Finite doubles

A finite double of 64 bits is a sign and a whole number of *units*, where a unit is `2 ^ (-1074)`,
the smallest positive double. That makes its exact value plain to state: `± units / 2 ^ 1074`. It
also makes every operation a question about natural numbers: the exact result is a quotient of two
of them, and rounding picks a near number of units that has at most 53 significant bits.

There is no infinity here and no NaN. An operation whose result would be infinite gives `none`,
and every reader of numbers treats that as a number out of range.

Rounding is to the nearest, and of two equally near results to the one whose last bit is even.
-/

set_option autoImplicit false

namespace ContentSearch

/-- A finite double: the number `± units / 2 ^ 1074`. -/
structure Binary64 where
  negative : Bool
  units : Nat
  deriving Repr, DecidableEq

namespace Binary64

def one : Nat := Nat.pow 2 1074

/-- The first number of units that is too great: `2 ^ 1024`. -/
def overflow : Nat := Nat.pow 2 2098

/-- The exponent of the last bit that a double of about `n` units still has. -/
def lastBit (n : Nat) : Nat := n.log2 - 52

/-- The quotient rounded to the nearest whole number, a tie to the even one. -/
def roundQuotient (a d : Nat) : Nat :=
  let q := a / d
  let r := a % d
  if 2 * r < d then q
  else if d < 2 * r then q + 1
  else if q % 2 = 0 then q
  else q + 1

/-- The number of units nearest to `a / d` that keeps 53 bits. -/
def roundUnits (a d : Nat) : Nat :=
  let p := lastBit (a / d)
  roundQuotient a (d * Nat.pow 2 p) * Nat.pow 2 p

/-- A sign and the units nearest to `a / d`, if they are finite. -/
def round? (negative : Bool) (a d : Nat) : Option Binary64 :=
  let n := roundUnits a d
  if n < overflow then some ⟨negative, n⟩ else none

def zero : Binary64 := ⟨false, 0⟩

def ofNat? (n : Nat) : Option Binary64 := round? false (n * one) 1

def mul? (x y : Binary64) : Option Binary64 :=
  round? (x.negative != y.negative) (x.units * y.units) one

/-- The quotient, rounded; `y` is not zero. -/
def div? (x y : Binary64) : Option Binary64 :=
  round? (x.negative != y.negative) (x.units * one) y.units

/-- The whole number that the double is, if it is one. -/
def toInt? (x : Binary64) : Option Int :=
  if x.units % one = 0 then
    let n : Int := (x.units / one : Nat)
    some (if x.negative then -n else n)
  else none

end Binary64
end ContentSearch
