/-!
# Base64

The standard alphabet with canonical padding. Three bytes are four digits; a last group of one or
two bytes is padded with `=` to four characters, and the bits that its last digit has to spare are
zero. Reading accepts exactly what writing produces, so each byte string has one spelling.

Nothing is forgiven: no line ends, no blanks, no missing pads and none in the middle, no digits of
the alphabet for addresses. A text whose last digit has bits to spare that are not zero is refused
too, although its bytes could be told.
-/

set_option autoImplicit false

namespace ContentSearch.Text.Base64

/-- The digit of a value below 64. -/
def digit (n : Nat) : Char :=
  if n < 26 then Char.ofNat (65 + n)
  else if n < 52 then Char.ofNat (97 + (n - 26))
  else if n < 62 then Char.ofNat (48 + (n - 52))
  else if n = 62 then '+'
  else '/'

/-- The value of a digit, and none of any other character. -/
def digitValue? (c : Char) : Option Nat :=
  if 'A' ≤ c ∧ c ≤ 'Z' then some (c.toNat - 65)
  else if 'a' ≤ c ∧ c ≤ 'z' then some (c.toNat - 97 + 26)
  else if '0' ≤ c ∧ c ≤ '9' then some (c.toNat - 48 + 52)
  else if c = '+' then some 62
  else if c = '/' then some 63
  else none

def encode : List UInt8 → List Char
  | [] => []
  | [a] => [digit (a.toNat / 4), digit (a.toNat % 4 * 16), '=', '=']
  | [a, b] =>
    [digit (a.toNat / 4), digit (a.toNat % 4 * 16 + b.toNat / 16), digit (b.toNat % 16 * 4), '=']
  | a :: b :: c :: r =>
    digit (a.toNat / 4) :: digit (a.toNat % 4 * 16 + b.toNat / 16)
      :: digit (b.toNat % 16 * 4 + c.toNat / 64) :: digit (c.toNat % 64) :: encode r

/-- One byte from a group with two pads. -/
def lastByte? (x y : Nat) : Option (List UInt8) :=
  if y % 16 = 0 then some [UInt8.ofNat (x * 4 + y / 16)] else none

/-- Two bytes from a group with one pad. -/
def lastTwo? (x y z : Nat) : Option (List UInt8) :=
  if z % 4 = 0 then some [UInt8.ofNat (x * 4 + y / 16), UInt8.ofNat (y % 16 * 16 + z / 4)]
  else none

/-- Three bytes from a full group. -/
def threeBytes (x y z w : Nat) : List UInt8 :=
  [UInt8.ofNat (x * 4 + y / 16), UInt8.ofNat (y % 16 * 16 + z / 4), UInt8.ofNat (z % 4 * 64 + w)]

/-- The bytes of a text that `encode` writes, and none of any other text. -/
def decode? : List Char → Option (List UInt8)
  | [] => some []
  | a :: b :: c :: d :: r => do
    let x ← digitValue? a
    let y ← digitValue? b
    if d = '=' then
      if r ≠ [] then none
      else if c = '=' then lastByte? x y
      else lastTwo? x y (← digitValue? c)
    else
      let z ← digitValue? c
      let w ← digitValue? d
      return threeBytes x y z w ++ (← decode? r)
  | _ => none

end ContentSearch.Text.Base64
