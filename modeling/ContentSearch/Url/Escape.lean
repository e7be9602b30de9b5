import ContentSearch.Text.Hex
import ContentSearch.Text.Utf8

/-!
# Escapes in addresses

A character that has no place in a part of an address is written as the bytes of its UTF-8, each as
`%` and two capital digits. Which characters those are differs from part to part. Escapes that are
there already stay as they are.

The sets grow from one part to the next: what is escaped in a fragment is escaped in a path, too. A
percent sign is in none of them, so what was escaped once stays as it is when the text is escaped
again.
-/

set_option autoImplicit false

namespace ContentSearch.Url

def escapeByte (b : UInt8) : List Char :=
  ['%', Text.Hex.digit (b.toNat / 16), Text.Hex.digit (b.toNat % 16)]

/-- Escapes the characters that are to be escaped. -/
def escapeWith (escaped : Char → Bool) (s : List Char) : List Char :=
  s.flatMap fun c => if escaped c then (String.utf8EncodeChar c).flatMap escapeByte else [c]

def isHidden (c : Char) : Bool := c.toNat ≤ 0x1F || 0x7E < c.toNat

def inFragment (c : Char) : Bool := isHidden c || c ∈ [' ', '"', '<', '>', '\x60']

def inPath (c : Char) : Bool := inFragment c || c ∈ ['#', '?', '\x7b', '\x7d']

/-- What is escaped in a query; on the web a single quote is, too. -/
def inQuery (web : Bool) (c : Char) : Bool :=
  isHidden c || c ∈ [' ', '"', '#', '<', '>'] || (web && c = '\x27')

/-- The bytes that a text with escapes stands for. A `%` without two digits stands for itself. -/
def unescapedBytes : List Char → List UInt8
  | [] => []
  | '%' :: x :: y :: r =>
    match Text.Hex.value? x, Text.Hex.value? y with
    | some h, some l => UInt8.ofNat (h * 16 + l) :: unescapedBytes r
    | _, _ => 0x25 :: unescapedBytes (x :: y :: r)
  | c :: r => String.utf8EncodeChar c ++ unescapedBytes r

def unescape (s : List Char) : List Char := Text.Utf8.readLossy (unescapedBytes s)

end ContentSearch.Url
