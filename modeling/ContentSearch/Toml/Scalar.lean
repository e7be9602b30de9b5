import ContentSearch.Binary64.Basic
import ContentSearch.Toml.Table

/-!
# TOML scalars

Numbers, truth values, dates and times. All of them are words: runs of letters, digits and
`+-._:`, with a blank allowed between a date and its time. A word is read as a whole or not at
all.

A word does not say what it is until all of it is read: `1979-05-27` starts like a number and `inf`
like a key. So each kind is tried on the whole word, one after the other.
-/

set_option autoImplicit false

namespace ContentSearch.Toml

def isWordChar (c : Char) : Bool :=
  c.isAlphanum || c = '+' || c = '-' || c = '.' || c = '_' || c = ':'

def word (s : List Char) : List Char × List Char := (s.takeWhile isWordChar, s.dropWhile isWordChar)

/-! ## Numbers -/

/-- Digits with single underscores between neighbours, without the underscores. -/
def plainDigits? (isDigit : Char → Bool) : List Char → Option (List Char)
  | [] => none
  | [c] => if isDigit c then some [c] else none
  | c :: '_' :: r => if isDigit c then (plainDigits? isDigit r).map (c :: ·) else none
  | c :: d :: r => if isDigit c then (plainDigits? isDigit (d :: r)).map (c :: ·) else none

/-- The value of a digit in any base up to sixteen. -/
def digitValue (c : Char) : Nat :=
  if c.isDigit then c.toNat - '0'.toNat else c.toLower.toNat - 'a'.toNat + 10

def isHexDigit (c : Char) : Bool := c.isDigit || ('a' ≤ c.toLower && c.toLower ≤ 'f')

/-- The number of digits in a base. -/
def valueIn (base : Nat) (ds : List Char) : Nat :=
  ds.foldl (fun n c => n * base + digitValue c) 0

/-- An integer of 64 bits with a sign. -/
def fitting? (n : Int) : Option Int :=
  if -Nat.pow 2 63 ≤ n ∧ n < Nat.pow 2 63 then some n else none

/-- Splits off a sign: whether it is a minus. -/
def splitSign : List Char → Bool × List Char
  | '-' :: r => (true, r)
  | '+' :: r => (false, r)
  | s => (false, s)

/-- Digits of which the first is a zero only if it is the only one. -/
def decimalDigits? (s : List Char) : Option (List Char) :=
  match plainDigits? Char.isDigit s with
  | some ('0' :: _ :: _) => none
  | other => other

def integer? (w : List Char) : Option Int :=
  match w with
  | '0' :: 'x' :: r => (plainDigits? isHexDigit r).bind fun ds => fitting? (valueIn 16 ds)
  | '0' :: 'o' :: r =>
    (plainDigits? (fun c => '0' ≤ c && c ≤ '7') r).bind fun ds => fitting? (valueIn 8 ds)
  | '0' :: 'b' :: r =>
    (plainDigits? (fun c => c = '0' || c = '1') r).bind fun ds => fitting? (valueIn 2 ds)
  | w =>
    let (negative, s) := splitSign w
    (decimalDigits? s).bind fun ds =>
      let n : Int := valueIn 10 ds
      fitting? (if negative then -n else n)

/-- The parts of a float behind its sign: whole digits, fraction digits and exponent. -/
def floatParts? (s : List Char) : Option (List Char × List Char × Int) := do
  let mantissa := s.takeWhile fun c => c ≠ 'e' && c ≠ 'E'
  let tail := s.dropWhile fun c => c ≠ 'e' && c ≠ 'E'
  let whole ← decimalDigits? (mantissa.takeWhile (· ≠ '.'))
  let fraction ← match mantissa.dropWhile (· ≠ '.') with
    | [] => some []
    | _ :: r => plainDigits? Char.isDigit r
  let exponent : Int ← match tail with
    | [] => if fraction = [] then none else some 0
    | _ :: r =>
      let (negative, ds) := splitSign r
      (plainDigits? Char.isDigit ds).map fun ds =>
        let n : Int := valueIn 10 ds
        if negative then -n else n
  return (whole, fraction, exponent)

/-- Whether `n · 10 ^ e` is too great for a double. A number of more than 400 digits is, and one
below a tenth is not; only what lies between has to be rounded. -/
def overflows (n : Nat) (e : Int) : Bool :=
  if n = 0 then false
  else
    let digits : Int := (Nat.toDigits 10 n).length
    if 400 < digits + e then true
    else if digits + e < 0 then false
    else if 0 ≤ e then (Binary64.round? false (n * Nat.pow 10 e.toNat * Binary64.one) 1).isNone
    else (Binary64.round? false (n * Binary64.one) (Nat.pow 10 e.natAbs)).isNone

def isFloat (w : List Char) : Bool :=
  let (negative, s) := splitSign w
  s = "inf".toList || s = "nan".toList ||
    match floatParts? s with
    | some (whole, fraction, e) =>
      negative || !overflows (valueIn 10 (whole ++ fraction)) (e - fraction.length)
    | none => false

/-! ## Dates and times -/

/-- The number of exactly two digits within bounds. -/
def twoDigits? (low high : Nat) : List Char → Option Nat
  | [a, b] =>
    if a.isDigit && b.isDigit then
      let n := valueIn 10 [a, b]
      if low ≤ n ∧ n ≤ high then some n else none
    else none
  | _ => none

def daysIn (year month : Nat) : Nat :=
  if month = 2 then
    if year % 4 = 0 ∧ (year % 100 ≠ 0 ∨ year % 400 = 0) then 29 else 28
  else if month = 4 ∨ month = 6 ∨ month = 9 ∨ month = 11 then 30
  else 31

/-- A date, `YYYY-MM-DD`. -/
def isDate (s : List Char) : Bool :=
  match s with
  | [a, b, c, d, '-', e, f, '-', g, h] =>
    [a, b, c, d].all Char.isDigit &&
      match twoDigits? 1 12 [e, f] with
      | some month => (twoDigits? 1 (daysIn (valueIn 10 [a, b, c, d]) month) [g, h]).isSome
      | none => false
  | _ => false

/-- A time of day, `HH:MM:SS` and perhaps a fraction. -/
def isTime (s : List Char) : Bool :=
  match s with
  | a :: b :: ':' :: c :: d :: ':' :: e :: f :: r =>
    (twoDigits? 0 23 [a, b]).isSome && (twoDigits? 0 59 [c, d]).isSome
      && (twoDigits? 0 60 [e, f]).isSome
      && match r with
        | [] => true
        | '.' :: ds => ds ≠ [] && ds.all Char.isDigit
        | _ => false
  | _ => false

/-- A time of day and perhaps its distance from universal time. -/
def isTimeWithOffset (s : List Char) : Bool :=
  isTime s ||
    match s.reverse with
    | 'Z' :: r => isTime r.reverse
    | 'z' :: r => isTime r.reverse
    | d :: c :: ':' :: b :: a :: sign :: r =>
      (sign = '+' || sign = '-') && (twoDigits? 0 23 [a, b]).isSome
        && (twoDigits? 0 59 [c, d]).isSome && isTime r.reverse
    | _ => false

/-- A date, a time, or both with a `T` or a blank between them. -/
def isDateTime (w : List Char) : Bool :=
  isDate w || isTime w ||
    (isDate (w.take 10) &&
      match w.drop 10 with
      | c :: r => (c = 'T' || c = 't' || c = ' ') && isTimeWithOffset r
      | [] => false)

/-! ## Words -/

def Node.ofWord? (w : List Char) : Option Node :=
  if w = "true".toList then some (.boolean true)
  else if w = "false".toList then some (.boolean false)
  else match integer? w with
    | some n => some (.integer n)
    | none =>
      if isFloat w then some (.float w)
      else if isDateTime w then some (.dateTime w)
      else none

/-- The value of the word at the front, and what follows it. A date takes the time behind a blank
along. -/
def wordValue? (s : List Char) : Option (Node × List Char) :=
  let (w, r) := word s
  match r with
  | ' ' :: c :: _ =>
    if isDate w && c.isDigit then
      let (w', r') := word (r.drop 1)
      (Node.ofWord? (w ++ ' ' :: w')).map fun v => (v, r')
    else (Node.ofWord? w).map fun v => (v, r)
  | _ => (Node.ofWord? w).map fun v => (v, r)

end ContentSearch.Toml
