import ContentSearch.Text.Decimal
import ContentSearch.Text.Hex
import ContentSearch.Text.Pieces

/-!
# Numeric hosts

Hosts that are numbers. An address of four bytes may be spelled in many ways: any of its parts may
be octal or hexadecimal, and the last one may fill several bytes. An address of eight groups stands
between brackets, and two colons in a row may stand for any number of groups that are zero. Either
kind has one written form.

A host that ends in a number must be a number as a whole. It is not taken for a name where that
fails, so `1.2.3.4.5` is no host at all.
-/

set_option autoImplicit false

namespace ContentSearch.Url

/-! ## Four bytes -/

/-- One part of the address: decimal, octal behind a zero, or hexadecimal behind `0x`. -/
def numericPart? (s : List Char) : Option Nat :=
  match s with
  | [] => none
  | '0' :: 'x' :: r => Text.Hex.number? r
  | '0' :: 'X' :: r => Text.Hex.number? r
  | '0' :: c :: r =>
    if (c :: r).all fun c => '0' ≤ c && c ≤ '7' then some (Nat.ofDigitChars 8 (c :: r) 0) else none
  | s => if s.all Char.isDigit then some (Nat.ofDigitChars 10 s 0) else none

/-- The parts of a host between its dots, an empty last one left out. -/
def hostParts (s : List Char) : List (List Char) :=
  let ps := Text.pieces (· = '.') s
  if 1 < ps.length ∧ ps.getLast? = some [] then ps.dropLast else ps

/-- A host whose last part is a number is meant as a number. -/
def isNumericHost (s : List Char) : Bool :=
  match (hostParts s).getLast? with
  | some p => p ≠ [] && (p.all Char.isDigit || (numericPart? p).isSome)
  | none => false

/-- The number of the address: its parts but the last are bytes, and the last one fills the rest of
the four. -/
def numericHost? (s : List Char) : Option Nat := do
  let ns ← (hostParts s).mapM numericPart?
  let front := ns.dropLast
  let last ← ns.getLast?
  if 3 < front.length ∨ front.any (255 < ·) ∨ Nat.pow 256 (4 - front.length) ≤ last then none
  else return front.foldl (fun acc n => acc * 256 + n) 0 * Nat.pow 256 (4 - front.length) + last

def writeBytes (n : Nat) : List Char :=
  Text.Decimal.write (n / 16777216 % 256) ++ '.' :: (Text.Decimal.write (n / 65536 % 256)
    ++ '.' :: (Text.Decimal.write (n / 256 % 256) ++ '.' :: Text.Decimal.write (n % 256)))

/-! ## Eight groups -/

def group? (s : List Char) : Option Nat :=
  if s = [] ∨ 4 < s.length then none else Text.Hex.number? s

def byte? (s : List Char) : Option Nat :=
  match s with
  | [] => none
  | '0' :: _ :: _ => none
  | s =>
    let n := Nat.ofDigitChars 10 s 0
    if s.all Char.isDigit && n ≤ 255 then some n else none

/-- The last group, or four decimal bytes in place of the last two. -/
def lastGroups? (s : List Char) : Option (List Nat) :=
  match group? s with
  | some n => some [n]
  | none =>
    match (Text.pieces (· = '.') s).mapM byte? with
    | some [a, b, c, d] => some [a * 256 + b, c * 256 + d]
    | _ => none

def groups? (s : List Char) : Option (List Nat) :=
  if s = [] then some []
  else
    let ps := Text.pieces (· = ':') s
    match ps.dropLast.mapM group?, ps.getLast?.bind lastGroups? with
    | some front, some last => some (front ++ last)
    | _, _ => none

def splitGap : List Char → List Char × Option (List Char)
  | [] => ([], none)
  | ':' :: ':' :: r => ([], some r)
  | c :: r => ((c :: (splitGap r).1), (splitGap r).2)

/-- The eight groups of an address. A gap stands for at least one of them, and no bytes may stand in
front of it. -/
def groupedHost? (s : List Char) : Option (List Nat) :=
  match splitGap s with
  | (s, none) =>
    match groups? s with
    | some gs => if gs.length = 8 then some gs else none
    | none => none
  | (front, some back) =>
    if '.' ∈ front then none
    else match groups? front, groups? back with
      | some f, some b =>
        if f.length + b.length ≤ 7 then
          some (f ++ List.replicate (8 - f.length - b.length) 0 ++ b)
        else none
      | _, _ => none

/-- The longest run of zeros, the first one of several: where it starts and how long it is. -/
def longestGap (gs : List Nat) : Nat × Nat :=
  (List.range gs.length).foldl
    (fun best i =>
      let n := ((gs.drop i).takeWhile (· = 0)).length
      if best.2 < n then (i, n) else best)
    (0, 0)

def joinGroups : List Nat → List Char
  | [] => []
  | [g] => Text.Hex.write g
  | g :: h :: r => Text.Hex.write g ++ ':' :: joinGroups (h :: r)

/-- Eight groups, with a gap for the longest run of zeros if there are at least two. -/
def writeGroups (gs : List Nat) : List Char :=
  let (start, n) := longestGap gs
  if n < 2 then joinGroups gs
  else joinGroups (gs.take start) ++ ':' :: ':' :: joinGroups (gs.drop (start + n))

-- the shorter ways to spell one and the same number
example : (numericHost? "0x7f.1".toList).map writeBytes = some "127.0.0.1".toList := by decide

example : (groupedHost? "2001:DB8::1:0:0:1".toList).map writeGroups
    = some "2001:db8::1:0:0:1".toList := by decide

end ContentSearch.Url
