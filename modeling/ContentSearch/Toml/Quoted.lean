import ContentSearch.Text.Hex

/-!
# TOML strings

Four kinds: between single quotes everything stands for itself, between double quotes a backslash
escapes, and either quote written three times opens a string of several lines. A line end inside a
string is a line feed, however it is written; one right behind the opening quotes does not count.

`write` is the way strings are written here: on one line, with every character below U+0020 and
U+007F as its number.
-/

set_option autoImplicit false

namespace ContentSearch.Toml.Quoted

/-- A character that may stand for itself in a string or a comment. -/
def isVisible (c : Char) : Bool := c = '\t' || (0x20 ≤ c.toNat && c.toNat ≠ 0x7F)

/-- The character with a number in hexadecimal digits. -/
def numbered? (digits : List Char) : Option Char :=
  match Text.Hex.number? digits with
  | some n =>
    if n < 0xD800 ∨ (0xDFFF < n ∧ n < 0x110000) then some (Char.ofNat n) else none
  | none => none

/-- What a single letter behind a backslash stands for. -/
def escaped? (c : Char) : Option Char :=
  if c = '"' ∨ c = '\\' then some c
  else if c = 'b' then some '\x08'
  else if c = 'f' then some '\x0c'
  else if c = 'n' then some '\n'
  else if c = 'r' then some '\r'
  else if c = 't' then some '\t'
  else none

/-- A character in front of a text that was read. -/
def push (c : Char) (r : Option (List Char × List Char)) : Option (List Char × List Char) :=
  r.map fun p => (c :: p.1, p.2)

/-- The rest of a string between double quotes, and what follows it. -/
def basic? : List Char → Option (List Char × List Char)
  | [] => none
  | '"' :: r => some ([], r)
  | '\\' :: 'u' :: a :: b :: c :: d :: r =>
    match numbered? [a, b, c, d] with
    | some x => push x (basic? r)
    | none => none
  | '\\' :: 'U' :: a :: b :: c :: d :: e :: f :: g :: h :: r =>
    match numbered? [a, b, c, d, e, f, g, h] with
    | some x => push x (basic? r)
    | none => none
  | '\\' :: c :: r =>
    match escaped? c with
    | some x => push x (basic? r)
    | none => none
  | c :: r => if c ≠ '\\' && isVisible c then push c (basic? r) else none

/-- The rest of a string between single quotes, and what follows it. -/
def literal? : List Char → Option (List Char × List Char)
  | [] => none
  | '\x27' :: r => some ([], r)
  | c :: r => if isVisible c then push c (literal? r) else none

/-- The line end at the front removed, if there is one. -/
def dropLineEnd : List Char → List Char
  | '\n' :: r => r
  | '\r' :: '\n' :: r => r
  | r => r

/-- The text without the blanks and line ends at its front. -/
def skipGap : List Char → List Char
  | ' ' :: r => skipGap r
  | '\t' :: r => skipGap r
  | '\n' :: r => skipGap r
  | '\r' :: '\n' :: r => skipGap r
  | r => r

/-- The text behind a backslash that ends its line: the next line, without the blanks and empty
lines in front of it. -/
def joinLines? (s : List Char) : Option (List Char) :=
  match s.dropWhile fun c => c = ' ' || c = '\t' with
  | '\n' :: r => some (skipGap r)
  | '\r' :: '\n' :: r => some (skipGap r)
  | _ => none

/-- The end of a string of several lines: three quotes, in front of which one or two more may
belong to the string. -/
def closing? (q : Char) (s : List Char) : Option (List Char × List Char) :=
  let n := (s.takeWhile (· = q)).length
  if n < 3 then none
  else if n ≤ 5 then some (List.replicate (n - 3) q, s.drop n)
  else none

/-- The rest of a string of several lines between double quotes, and what follows it. -/
def longBasic? : Nat → List Char → Option (List Char × List Char)
  | 0, _ => none
  | fuel + 1, s =>
    match s with
    | [] => none
    | '"' :: r =>
      if s.take 3 = ['"', '"', '"'] then closing? '"' s else push '"' (longBasic? fuel r)
    | '\\' :: 'u' :: a :: b :: c :: d :: r =>
      match numbered? [a, b, c, d] with
      | some x => push x (longBasic? fuel r)
      | none => none
    | '\\' :: 'U' :: a :: b :: c :: d :: e :: f :: g :: h :: r =>
      match numbered? [a, b, c, d, e, f, g, h] with
      | some x => push x (longBasic? fuel r)
      | none => none
    | '\\' :: c :: r =>
      match escaped? c with
      | some x => push x (longBasic? fuel r)
      | none => (joinLines? (c :: r)).bind (longBasic? fuel)
    | '\n' :: r => push '\n' (longBasic? fuel r)
    | '\r' :: '\n' :: r => push '\n' (longBasic? fuel r)
    | c :: r => if c ≠ '\\' && isVisible c then push c (longBasic? fuel r) else none

/-- The rest of a string of several lines between single quotes, and what follows it. -/
def longLiteral? : List Char → Option (List Char × List Char)
  | [] => none
  | '\x27' :: r =>
    if (r.take 2) = ['\x27', '\x27'] then closing? '\x27' ('\x27' :: r) else push '\x27' (longLiteral? r)
  | '\n' :: r => push '\n' (longLiteral? r)
  | '\r' :: '\n' :: r => push '\n' (longLiteral? r)
  | c :: r => if isVisible c then push c (longLiteral? r) else none

def short? : List Char → Option (List Char × List Char)
  | '"' :: r => basic? r
  | '\x27' :: r => literal? r
  | _ => none

def any? (s : List Char) : Option (List Char × List Char) :=
  match s with
  | '"' :: '"' :: '"' :: r => longBasic? (r.length + 1) (dropLineEnd r)
  | '\x27' :: '\x27' :: '\x27' :: r => longLiteral? (dropLineEnd r)
  | s => short? s

/-! ## Writing -/

def writeChar (c : Char) : List Char :=
  if c = '"' then ['\\', '"']
  else if c = '\\' then ['\\', '\\']
  else if c.toNat < 0x20 ∨ c.toNat = 0x7F then
    ['\\', 'u', '0', '0', Text.Hex.digit (c.toNat / 16), Text.Hex.digit (c.toNat % 16)]
  else [c]

def write (s : List Char) : List Char := '"' :: (s.flatMap writeChar ++ ['"'])

end ContentSearch.Toml.Quoted
