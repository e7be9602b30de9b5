import ContentSearch.Json.Value

/-!
# Numerals

A numeral is a number as it is written: a sign, whole digits, perhaps a fraction and perhaps an
exponent. `ofChars?` reads its parts and `toNumber?` gives it a value.

A numeral without fraction and exponent that fits 64 bits is an integer. The others are doubles,
and their value is *not* the double nearest to what is written. It comes out of three roundings:

1. the digits are collected into a significand as long as it fits 64 bits, and later digits only
   move the exponent (in the whole part) or are left out (in the fraction);
2. the significand is rounded to a double;
3. the double is multiplied or divided by a power of ten, itself a rounded double.

The result may be a neighbour of the nearest double, and it is the same on every machine. A result
too great for a double is an error; one too small is zero.
-/

set_option autoImplicit false

namespace ContentSearch.Json

/-- A number as written. The digit lists are ASCII digits; `whole` is not empty. -/
structure Numeral where
  negative : Bool
  whole : List Char
  /-- The digits after the point; there is no point without one. -/
  fraction : List Char
  /-- Whether the exponent has a minus sign, and its digits. -/
  exponent : Option (Bool × List Char)
  deriving Repr, DecidableEq

namespace Numeral

def digits (s : List Char) : List Char × List Char :=
  (s.takeWhile Char.isDigit, s.dropWhile Char.isDigit)

/-- The whole part: a single zero, or digits that start with none. -/
def wholePart? (s : List Char) : Option (List Char × List Char) :=
  match digits s with
  | ([], _) => none
  | (['0'], r) => some (['0'], r)
  | ('0' :: _, _) => none
  | (ds, r) => some (ds, r)

/-- The fraction: nothing, or a point and at least one digit. -/
def fractionPart? : List Char → Option (List Char × List Char)
  | '.' :: s =>
    match digits s with
    | ([], _) => none
    | (ds, r) => some (ds, r)
  | s => some ([], s)

/-- The digits of an exponent, which are all that is left. -/
def exponentDigits? (negative : Bool) (s : List Char) : Option (Option (Bool × List Char)) :=
  match digits s with
  | ([], _) => none
  | (ds, []) => some (some (negative, ds))
  | _ => none

/-- The exponent: nothing, or `e` in either case, a sign and at least one digit. -/
def exponentPart? : List Char → Option (Option (Bool × List Char))
  | [] => some none
  | c :: s =>
    if c = 'e' ∨ c = 'E' then
      match s with
      | '+' :: r => exponentDigits? false r
      | '-' :: r => exponentDigits? true r
      | r => exponentDigits? false r
    else none

def ofUnsigned? (negative : Bool) (s : List Char) : Option Numeral := do
  let (whole, s) ← wholePart? s
  let (fraction, s) ← fractionPart? s
  let exponent ← exponentPart? s
  return { negative, whole, fraction, exponent }

/-- The numeral that the whole text spells, with its sign. -/
def ofChars? : List Char → Option Numeral
  | '-' :: s => ofUnsigned? true s
  | s => ofUnsigned? false s

/-! ## Value -/

def digitValue (c : Char) : Nat := c.toNat - '0'.toNat

/-- Digits collected so far: the significand, the exponent that goes with it, and whether the
significand is full. -/
structure Collected where
  significand : Nat
  exponent : Int
  full : Bool
  deriving Repr, DecidableEq

/-- A digit of the whole part: once the significand is full, a digit raises the exponent. -/
def Collected.addWhole (a : Collected) (c : Char) : Collected :=
  let n := 10 * a.significand + digitValue c
  if a.full then { a with exponent := a.exponent + 1 }
  else if n < Nat.pow 2 64 then { a with significand := n }
  else { a with exponent := a.exponent + 1, full := true }

/-- A digit of the fraction: once the significand is full, it is left out. -/
def Collected.addFraction (a : Collected) (c : Char) : Collected :=
  let n := 10 * a.significand + digitValue c
  if a.full then a
  else if n < Nat.pow 2 64 then { a with significand := n, exponent := a.exponent - 1 }
  else { a with full := true }

/-- The digits of the numeral, collected. The fraction gets a chance of its own: a significand
that had no room for one more whole digit may have room for a smaller one. -/
def collect (x : Numeral) : Collected :=
  let w := x.whole.foldl Collected.addWhole ⟨0, 0, false⟩
  x.fraction.foldl Collected.addFraction { w with full := false }

/-- The written exponent, 0 where there is none. -/
def writtenExponent (x : Numeral) : Int :=
  match x.exponent with
  | none => 0
  | some (negative, ds) =>
    let n : Int := Nat.ofDigitChars 10 ds 0
    if negative then -n else n

def powerOfTen? (n : Nat) : Option Binary64 := Binary64.ofNat? (Nat.pow 10 n)

/-- Divides by `10 ^ 308` while the exponent is out of the table below, then by what is left.
Once the value is zero it stays zero. -/
def scaleDown? : Nat → Binary64 → Nat → Option Binary64
  | 0, _, _ => some .zero
  | fuel + 1, x, n =>
    if n ≤ 308 then do x.div? (← powerOfTen? n)
    else if x.units = 0 then some x
    else do scaleDown? fuel (← x.div? (← powerOfTen? 308)) (n - 308)

/-- The value `x · 10 ^ e`. A significand is below `2 ^ 64`, so three divisions by `10 ^ 308`
reach zero. -/
def scale? (x : Binary64) (e : Int) : Option Binary64 :=
  if 0 ≤ e then
    if e ≤ 308 then do x.mul? (← powerOfTen? e.toNat)
    else if x.units = 0 then some x
    else none
  else scaleDown? 4 x e.natAbs

def toDouble? (x : Numeral) : Option Binary64 := do
  let c := x.collect
  let y ← scale? (← Binary64.ofNat? c.significand) (c.exponent + x.writtenExponent)
  return { y with negative := x.negative }

def isWhole (x : Numeral) : Bool := x.fraction.isEmpty && x.exponent.isNone

/-- **The number that a numeral stands for.** Minus zero, and an integer that does not fit, are
doubles. -/
def toNumber? (x : Numeral) : Option Number :=
  let n := Nat.ofDigitChars 10 x.whole 0
  if x.isWhole && !x.negative && n < Nat.pow 2 64 then some (.integer n)
  else if x.isWhole && x.negative && 0 < n && n ≤ Nat.pow 2 63 then some (.integer (-n))
  else x.toDouble?.map .double

end Numeral
end ContentSearch.Json
