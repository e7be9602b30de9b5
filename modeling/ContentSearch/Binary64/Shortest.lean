import ContentSearch.Binary64.Basic

/-!
# The shortest decimal that reads back

Among the decimals that are nearer to a given double than to any other, the ones with the fewest
digits, and among those the nearest. Both ends of the interval belong to it exactly when the last
of the 53 bits is zero, because a tie is read as the even neighbour.

The search tries one digit, two digits, and so on. For each count it looks at the two neighbours
of the double on the grid of decimals with that many digits: if any point of the grid lies in the
interval, so does one of them. Seventeen digits always suffice.
-/

set_option autoImplicit false

namespace ContentSearch.Binary64

/-- A positive decimal `digits · 10 ^ exponent`. -/
structure Decimal where
  digits : Nat
  exponent : Int
  deriving Repr, DecidableEq

def digitCount (n : Nat) : Nat := (Nat.toDigits 10 n).length

/-- The `e` with `10 ^ (e - 1) ≤ units / 2 ^ 1074 < 10 ^ e`, for a positive number of units. -/
def magnitude (units : Nat) : Int :=
  if one ≤ units then digitCount (units / one)
  else 1 - (digitCount ((one + units - 1) / units - 1) : Int)

/-- The number of units times `4`, so that quarters of a step between doubles are whole. -/
def quarters (units : Nat) : Nat := 4 * units

/-- The interval of quarter units that are read as this number: its ends, and whether they
belong to it. Below a power of two the doubles lie closer than above it. -/
def interval (units : Nat) : Nat × Nat × Bool :=
  let p := lastBit units
  let step := Nat.pow 2 p
  let below := if 0 < p ∧ units = Nat.pow 2 (52 + p) then step else 2 * step
  (quarters units - below, quarters units + 2 * step, units / step % 2 = 0)

/-- A multiple of a power of ten as a quotient of quarter units. -/
def gridPoint (digits : Nat) (exponent : Int) : Nat × Nat :=
  if 0 ≤ exponent then (4 * one * digits * Nat.pow 10 exponent.toNat, 1)
  else (4 * one * digits, Nat.pow 10 (-exponent).toNat)

def readsBack (units digits : Nat) (exponent : Int) : Bool :=
  let (lo, hi, closed) := interval units
  let (a, d) := gridPoint digits exponent
  if closed then lo * d ≤ a && a ≤ hi * d else lo * d < a && a < hi * d

/-- The neighbours of the number on the grid of `10 ^ exponent`: the one not above it, and whether
the next one is nearer, a tie going to the even one. -/
def neighbours (units : Nat) (exponent : Int) : Nat × Bool :=
  let (a, d) := gridPoint 1 exponent
  -- the number is `units · 4 · d / a` steps of the grid
  let n := quarters units * d
  let low := n / a
  let r := n % a
  (low, a < 2 * r || (a = 2 * r && low % 2 = 1))

/-- The best decimal on the grid of `10 ^ exponent`, if one lies in the interval. -/
def onGrid? (units : Nat) (exponent : Int) : Option Nat :=
  let (low, upNearer) := neighbours units exponent
  let first := if upNearer then low + 1 else low
  let second := if upNearer then low else low + 1
  if readsBack units first exponent then some first
  else if readsBack units second exponent then some second
  else none

/-- A decimal of `count` digits; rounding up to the next power of ten leaves one digit. -/
def ofDigits (digits count : Nat) (exponent : Int) : Decimal :=
  if digits = Nat.pow 10 count then ⟨1, exponent + count⟩ else ⟨digits, exponent⟩

/-- Tries `count` digits and then more, `fuel` times; after that the value is cut off. -/
def search (units : Nat) (e : Int) : Nat → Nat → Decimal
  | 0, count => ⟨(neighbours units (e - count)).1, e - count⟩
  | fuel + 1, count =>
    match onGrid? units (e - count) with
    | some digits => ofDigits digits count (e - count)
    | none => search units e fuel (count + 1)

def shortest (units : Nat) : Decimal := search units (magnitude units) 17 1

end ContentSearch.Binary64
