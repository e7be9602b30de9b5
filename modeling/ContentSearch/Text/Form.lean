import ContentSearch.Text.Hex
import ContentSearch.Text.Pieces
import ContentSearch.Text.Utf8

/-!
# Form bodies

A list of name and value pairs as one line of ASCII. Letters, digits and `*-._` stand for
themselves, a space is `+`, and every other byte of the UTF-8 text is `%` with two capital
hexadecimal digits. Names and values are joined by `=` and pairs by `&`; none of the two can come
out of a name or a value, which is why splitting at them is safe.

`decode` is the reader of the other side: it splits, undoes the escapes and reads the bytes as
UTF-8. It is here so that a body can be checked against what it was made of.

The order of the pairs is kept, and a name may stand in several of them; it is for those who make
the pairs to use each name once.
-/

set_option autoImplicit false

namespace ContentSearch.Text.Form

def isPlain (b : UInt8) : Bool :=
  (0x30 ≤ b && b ≤ 0x39) || (0x41 ≤ b && b ≤ 0x5A) || (0x61 ≤ b && b ≤ 0x7A)
    || b == 0x2A || b == 0x2D || b == 0x2E || b == 0x5F

def encodeByte (b : UInt8) : List Char :=
  if b == 0x20 then ['+']
  else if isPlain b then [Char.ofNat b.toNat]
  else ['%', Hex.digit (b.toNat / 16), Hex.digit (b.toNat % 16)]

def encodeComponent (s : List Char) : List Char :=
  (Utf8.encode s).flatMap encodeByte

def encodePair (p : String × String) : List Char :=
  encodeComponent p.1.toList ++ '=' :: encodeComponent p.2.toList

/-- The pairs in their order, with `&` between neighbours. -/
def encode : List (String × String) → List Char
  | [] => []
  | [p] => encodePair p
  | p :: q :: r => encodePair p ++ '&' :: encode (q :: r)

/-- The bytes that a component stands for; a `%` without two digits stands for itself. -/
def decodeBytes : List Char → List UInt8
  | [] => []
  | '%' :: x :: y :: r =>
    match Hex.value? x, Hex.value? y with
    | some h, some l => UInt8.ofNat (h * 16 + l) :: decodeBytes r
    | _, _ => 0x25 :: decodeBytes (x :: y :: r)
  | c :: r =>
    if c = '+' then 0x20 :: decodeBytes r
    else String.utf8EncodeChar c ++ decodeBytes r

def decodeComponent (s : List Char) : String :=
  String.ofList (Utf8.readLossy (decodeBytes s))

/-- Splits at the first `=`; without one the whole is the name. -/
def decodePair (s : List Char) : String × String :=
  (decodeComponent (s.takeWhile (· != '=')), decodeComponent ((s.dropWhile (· != '=')).drop 1))

/-- The pairs of a body; an empty piece is no pair. -/
def decode (s : List Char) : List (String × String) :=
  ((pieces (· = '&') s).filter (· ≠ [])).map decodePair

end ContentSearch.Text.Form
