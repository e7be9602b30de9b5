import ContentSearch.Binary64.Shortest
import ContentSearch.Json.Value
import ContentSearch.Text.Decimal
import ContentSearch.Text.Hex

/-!
# Writing JSON

Two layouts of one value: `compact` on a single line without blanks, and `pretty` with two blanks
per level, a blank behind each colon, and empty containers closed at once.

Strings are written raw except for the quote, the backslash and the characters below U+0020.
A double is written as the shortest decimal that reads back; where its point goes is the decision
of `DoubleLayout.json`.

Nothing is sorted here and nothing left out: members are printed in the order in which they stand.
Who wants them by name sorts them before.
-/

set_option autoImplicit false

namespace ContentSearch.Json

/-! ## Strings -/

def escapeChar (c : Char) : List Char :=
  if c = '"' then ['\\', '"']
  else if c = '\\' then ['\\', '\\']
  else if c = '\x08' then ['\\', 'b']
  else if c = '\x0c' then ['\\', 'f']
  else if c = '\n' then ['\\', 'n']
  else if c = '\r' then ['\\', 'r']
  else if c = '\t' then ['\\', 't']
  else if c.toNat < 0x20 then
    ['\\', 'u', '0', '0', Text.Hex.smallDigit (c.toNat / 16), Text.Hex.smallDigit (c.toNat % 16)]
  else [c]

def quote (s : String) : List Char :=
  '"' :: (s.toList.flatMap escapeChar ++ ['"'])

/-! ## Numbers -/

/-- Where the point of a decimal goes. With its point behind the first `p` digits (in front of
them for `p ≤ 0`), a decimal is written without an exponent when `least < p ≤ most`. -/
structure DoubleLayout where
  least : Int
  most : Int

/-- **JSON's doubles**: `1e16` and `0.00001` are the first to have an exponent, which has neither a
plus sign nor leading zeros; a whole number keeps one zero behind its point. -/
def DoubleLayout.json : DoubleLayout := ⟨-5, 16⟩

def DoubleLayout.write (layout : DoubleLayout) (d : Binary64.Decimal) : List Char :=
  let ds := Text.Decimal.write d.digits
  let point : Int := ds.length + d.exponent
  if 0 ≤ d.exponent ∧ point ≤ layout.most then
    ds ++ List.replicate d.exponent.toNat '0' ++ ['.', '0']
  else if 0 < point ∧ point ≤ layout.most then
    ds.take point.toNat ++ '.' :: ds.drop point.toNat
  else if layout.least < point ∧ point ≤ 0 then
    '0' :: '.' :: (List.replicate (-point).toNat '0' ++ ds)
  else
    match ds with
    | [d] => d :: 'e' :: Text.Decimal.writeInt (point - 1)
    | d :: r => d :: '.' :: (r ++ 'e' :: Text.Decimal.writeInt (point - 1))
    | [] => []

/-- A double, with its sign also where it is zero. -/
def writeDouble (x : Binary64) : List Char :=
  let body :=
    if x.units = 0 then ['0', '.', '0'] else DoubleLayout.json.write (Binary64.shortest x.units)
  if x.negative then '-' :: body else body

def Number.write : Number → List Char
  | .integer n => Text.Decimal.writeInt n
  | .double x => writeDouble x

/-! ## Compact -/

namespace Value

mutual

def compact : Value → List Char
  | .null => ['n', 'u', 'l', 'l']
  | .bool true => ['t', 'r', 'u', 'e']
  | .bool false => ['f', 'a', 'l', 's', 'e']
  | .number n => n.write
  | .string s => quote s
  | .array items => '[' :: (compactItems items ++ [']'])
  | .object members => '\x7b' :: (compactMembers members ++ ['\x7d'])
termination_by structural v => v

def compactItems : List Value → List Char
  | [] => []
  | v :: vs => compact v ++ compactRestItems vs
termination_by structural vs => vs

/-- Items, each behind a comma. -/
def compactRestItems : List Value → List Char
  | [] => []
  | v :: vs => ',' :: (compact v ++ compactRestItems vs)
termination_by structural vs => vs

def compactMembers : List (String × Value) → List Char
  | [] => []
  | (k, v) :: ms => quote k ++ ':' :: (compact v ++ compactRestMembers ms)
termination_by structural ms => ms

/-- Members, each behind a comma. -/
def compactRestMembers : List (String × Value) → List Char
  | [] => []
  | (k, v) :: ms => ',' :: (quote k ++ ':' :: (compact v ++ compactRestMembers ms))
termination_by structural ms => ms

end

/-! ## Pretty -/

def newLine (level : Nat) : List Char := '\n' :: List.replicate (2 * level) ' '

mutual

/-- A value at a level, its own first line not indented. -/
def prettyAt : Nat → Value → List Char
  | _, .null => ['n', 'u', 'l', 'l']
  | _, .bool true => ['t', 'r', 'u', 'e']
  | _, .bool false => ['f', 'a', 'l', 's', 'e']
  | _, .number n => n.write
  | _, .string s => quote s
  | _, .array [] => ['[', ']']
  | level, .array (v :: vs) =>
    '[' :: (newLine (level + 1) ++ prettyAt (level + 1) v ++ prettyRestItems (level + 1) vs
      ++ newLine level ++ [']'])
  | _, .object [] => ['\x7b', '\x7d']
  | level, .object ((k, v) :: ms) =>
    '\x7b' :: (newLine (level + 1) ++ quote k ++ [':', ' '] ++ prettyAt (level + 1) v
      ++ prettyRestMembers (level + 1) ms ++ newLine level ++ ['\x7d'])
termination_by structural _ v => v

/-- Items, each behind a comma and on a line of its own. -/
def prettyRestItems : Nat → List Value → List Char
  | _, [] => []
  | level, v :: vs =>
    ',' :: (newLine level ++ prettyAt level v ++ prettyRestItems level vs)
termination_by structural _ vs => vs

/-- Members, each behind a comma and on a line of its own. -/
def prettyRestMembers : Nat → List (String × Value) → List Char
  | _, [] => []
  | level, (k, v) :: ms =>
    ',' :: (newLine level ++ quote k ++ [':', ' '] ++ prettyAt level v
      ++ prettyRestMembers level ms)
termination_by structural _ ms => ms

end

def pretty (v : Value) : List Char := prettyAt 0 v

def render (v : Value) : String := String.ofList (compact v)

/-- A value on as many lines as it needs, as a string. -/
def renderPretty (v : Value) : String := String.ofList (pretty v)

end Value
end ContentSearch.Json
