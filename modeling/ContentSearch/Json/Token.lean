import ContentSearch.Json.Numeral
import ContentSearch.Text.Hex

/-!
# JSON tokens

The text of a document, cut into brackets, separators and scalars. The input is a list with an
entry per character and `none` for each ill-formed part of the bytes it came from
(`Text.Utf8.decode`).

A scan is a fold: `Scan.step` takes the state over one entry of the input. So a scan of two texts
is a scan of the first, carried on with the second, and what stands between two tokens cannot
matter once both ends of it are `Mode.between`.

A string is scanned into pieces first and given a meaning afterwards (`content?`). A string that
has none, because it holds an ill-formed part or half of a surrogate pair, is still a string: it
is for the reader of the document to decide whether anybody looks at it.
-/

set_option autoImplicit false

namespace ContentSearch.Json

/-! ## Strings -/

/-- A piece of a string as written. -/
inductive Piece
  /-- A character, raw or behind a backslash. -/
  | char (c : Char)
  /-- A code unit of 16 bits, written as `u` and four hexadecimal digits. -/
  | unit (n : Nat)
  | illFormed
  deriving Repr, DecidableEq

namespace Piece

/-- A code unit that is the first half of a pair. -/
def isHigh (n : Nat) : Bool := 0xD800 ≤ n && n ≤ 0xDBFF

/-- A code unit that is the second half of a pair. -/
def isLow (n : Nat) : Bool := 0xDC00 ≤ n && n ≤ 0xDFFF

/-- The text that the pieces spell. Halves of a pair count only side by side. -/
def content? : List Piece → Option (List Char)
  | [] => some []
  | .char c :: r => (content? r).map (c :: ·)
  | .illFormed :: _ => none
  | .unit n :: r =>
    if isHigh n then
      match r with
      | .unit m :: r' =>
        if isLow m then
          (content? r').map (Char.ofNat (0x10000 + (n - 0xD800) * 0x400 + (m - 0xDC00)) :: ·)
        else none
      | _ => none
    else if isLow n then none
    else (content? r).map (Char.ofNat n :: ·)

end Piece

/-! ## Tokens -/

/-- A value that holds no other value. -/
inductive Scalar
  | null
  | bool (b : Bool)
  | numeral (n : Numeral)
  /-- A string with the text it spells, if it spells one. -/
  | string (content : Option String)
  deriving Repr, DecidableEq

inductive Token
  | openArray
  | closeArray
  | openObject
  | closeObject
  | colon
  | comma
  | scalar (s : Scalar)
  deriving Repr, DecidableEq

namespace Scan

/-- Where a scan stands. What was read of a token is held back to front. -/
inductive Mode
  | between
  /-- In a word, with the letters still to come and what it will mean. -/
  | word (left : List Char) (meaning : Scalar)
  | numeral (read : List Char)
  | string (read : List Piece)
  /-- Behind a backslash. -/
  | escape (read : List Piece)
  /-- In the digits of a code unit: how many are still to come, and the value so far. -/
  | unit (read : List Piece) (left : Nat) (value : Nat)
  deriving Repr, DecidableEq

/-- The tokens found so far, the last one first, and where the scan stands. -/
structure State where
  mode : Mode
  tokens : List Token
  deriving Repr, DecidableEq

/-- JSON's own four blanks. -/
def isSpace (c : Char) : Bool := c == ' ' || c == '\t' || c == '\n' || c == '\r'

/-- A character that a numeral may hold; which of them spell one is `Numeral.ofChars?`'s. -/
def isNumeralChar (c : Char) : Bool :=
  c.isDigit || c == '-' || c == '+' || c == '.' || c == 'e' || c == 'E'

/-- What a single letter behind a backslash stands for. -/
def escaped? (c : Char) : Option Char :=
  if c = '"' ∨ c = '\\' ∨ c = '/' then some c
  else if c = 'b' then some '\x08'
  else if c = 'f' then some '\x0c'
  else if c = 'n' then some '\n'
  else if c = 'r' then some '\r'
  else if c = 't' then some '\t'
  else none

/-- Adds a token that is a single character, or starts one. -/
def start (tokens : List Token) (c : Char) : Option State :=
  if isSpace c then some ⟨.between, tokens⟩
  else if c = '[' then some ⟨.between, .openArray :: tokens⟩
  else if c = ']' then some ⟨.between, .closeArray :: tokens⟩
  else if c = '\x7b' then some ⟨.between, .openObject :: tokens⟩
  else if c = '\x7d' then some ⟨.between, .closeObject :: tokens⟩
  else if c = ':' then some ⟨.between, .colon :: tokens⟩
  else if c = ',' then some ⟨.between, .comma :: tokens⟩
  else if c = '"' then some ⟨.string [], tokens⟩
  else if c = 'n' then some ⟨.word ['u', 'l', 'l'] .null, tokens⟩
  else if c = 't' then some ⟨.word ['r', 'u', 'e'] (.bool true), tokens⟩
  else if c = 'f' then some ⟨.word ['a', 'l', 's', 'e'] (.bool false), tokens⟩
  else if c = '-' ∨ c.isDigit then some ⟨.numeral [c], tokens⟩
  else none

def endString (read : List Piece) (tokens : List Token) : State :=
  ⟨.between, .scalar (.string ((Piece.content? read.reverse).map String.ofList)) :: tokens⟩

def endNumeral? (read : List Char) (tokens : List Token) : Option (List Token) :=
  (Numeral.ofChars? read.reverse).map fun n => .scalar (.numeral n) :: tokens

def step (s : State) (u : Option Char) : Option State :=
  match s.mode, u with
  | .between, some c => start s.tokens c
  | .word [] _, _ => none
  | .word [d] meaning, some c =>
    if c = d then some ⟨.between, .scalar meaning :: s.tokens⟩ else none
  | .word (d :: left) meaning, some c =>
    if c = d then some ⟨.word left meaning, s.tokens⟩ else none
  | .numeral read, some c =>
    if isNumeralChar c then some ⟨.numeral (c :: read), s.tokens⟩
    else (endNumeral? read s.tokens).bind fun tokens => start tokens c
  | .string read, some c =>
    if c = '"' then some (endString read s.tokens)
    else if c = '\\' then some ⟨.escape read, s.tokens⟩
    else if c.toNat < 0x20 then none
    else some ⟨.string (.char c :: read), s.tokens⟩
  | .string read, none => some ⟨.string (.illFormed :: read), s.tokens⟩
  | .escape read, some c =>
    if c = 'u' then some ⟨.unit read 4 0, s.tokens⟩
    else (escaped? c).map fun d => ⟨.string (.char d :: read), s.tokens⟩
  | .unit read left value, some c =>
    (Text.Hex.value? c).map fun d =>
      if left ≤ 1 then ⟨.string (.unit (value * 16 + d) :: read), s.tokens⟩
      else ⟨.unit read (left - 1) (value * 16 + d), s.tokens⟩
  | _, none => none

/-- The tokens at the end of the input, in their order; no string and no word is left open. -/
def finish (s : State) : Option (List Token) :=
  match s.mode with
  | .between => some s.tokens.reverse
  | .numeral read => (endNumeral? read s.tokens).map List.reverse
  | _ => none

def initial : State := ⟨.between, []⟩

def run (s : State) (input : List (Option Char)) : Option State := input.foldlM step s

theorem run_append (s : State) (a b : List (Option Char)) :
    run s (a ++ b) = (run s a).bind fun t => run t b := by
  simp [run, List.foldlM_append]

end Scan

/-- The tokens of a text, if the text has no other parts. -/
def Token.scan? (input : List (Option Char)) : Option (List Token) :=
  (Scan.run Scan.initial input).bind Scan.finish

end ContentSearch.Json
