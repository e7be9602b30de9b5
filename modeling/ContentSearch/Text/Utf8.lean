/-!
# UTF-8

Bytes and characters, in both directions.

Reading never fails as a whole. `decode` turns bytes into a list in which every entry is either a
character or `none`, and one `none` stands for one *maximal ill-formed part*: the longest start of
a well-formed character that the bytes break off, or a single byte that starts none. Three readers
are views of that one list:

* `read?` wants a character everywhere (a file that must be text);
* `readLossy` puts U+FFFD where there is none (a body that is shown in a message);
* the JSON reader takes the list as it stands, because there an ill-formed part is an error only
  where somebody looks at the text.

Since an ASCII byte is never part of a longer character, no ill-formed part swallows one.
-/

set_option autoImplicit false

namespace ContentSearch.Text.Utf8

def encode (s : List Char) : List UInt8 :=
  s.flatMap String.utf8EncodeChar

/-- A byte that continues a character, `10xxxxxx`. -/
def isTail (b : UInt8) : Bool := 0x80 ≤ b && b ≤ 0xBF

/-- The second byte of a three-byte character: the first byte narrows it, so that no character has
two spellings and no surrogate has one. -/
def isSecondOfThree (lead b : UInt8) : Bool :=
  if lead == 0xE0 then 0xA0 ≤ b && b ≤ 0xBF
  else if lead == 0xED then 0x80 ≤ b && b ≤ 0x9F
  else isTail b

/-- The second byte of a four-byte character: from U+10000 up to U+10FFFF. -/
def isSecondOfFour (lead b : UInt8) : Bool :=
  if lead == 0xF0 then 0x90 ≤ b && b ≤ 0xBF
  else if lead == 0xF4 then 0x80 ≤ b && b ≤ 0x8F
  else isTail b

def tailBits (b : UInt8) : Nat := b.toNat % 64

/-- Bytes as characters, `none` for each maximal ill-formed part. -/
def decode : List UInt8 → List (Option Char)
  | [] => []
  | a :: r =>
    if a < 0x80 then some (Char.ofNat a.toNat) :: decode r
    else if 0xC2 ≤ a && a ≤ 0xDF then
      match r with
      | [] => [none]
      | b :: r' =>
        if isTail b then some (Char.ofNat (a.toNat % 32 * 64 + tailBits b)) :: decode r'
        else none :: decode (b :: r')
    else if 0xE0 ≤ a && a ≤ 0xEF then
      match r with
      | [] => [none]
      | b :: r' =>
        if isSecondOfThree a b then
          match r' with
          | [] => [none]
          | c :: r'' =>
            if isTail c then
              some (Char.ofNat (a.toNat % 16 * 4096 + tailBits b * 64 + tailBits c)) :: decode r''
            else none :: decode (c :: r'')
        else none :: decode (b :: r')
    else if 0xF0 ≤ a && a ≤ 0xF4 then
      match r with
      | [] => [none]
      | b :: r' =>
        if isSecondOfFour a b then
          match r' with
          | [] => [none]
          | c :: r'' =>
            if isTail c then
              match r'' with
              | [] => [none]
              | d :: r''' =>
                if isTail d then
                  some (Char.ofNat
                    (a.toNat % 8 * 262144 + tailBits b * 4096 + tailBits c * 64 + tailBits d))
                    :: decode r'''
                else none :: decode (d :: r''')
            else none :: decode (c :: r'')
        else none :: decode (b :: r')
    else none :: decode r

/-- The text, when every byte belongs to a character. -/
def read? (bytes : List UInt8) : Option (List Char) :=
  (decode bytes).mapM id

/-- The text, with U+FFFD for each ill-formed part. -/
def readLossy (bytes : List UInt8) : List Char :=
  (decode bytes).map fun c => c.getD '\ufffd'

def ofString (s : String) : List UInt8 := encode s.toList

@[simp] theorem encode_nil : encode [] = [] := rfl

@[simp] theorem encode_cons (c : Char) (s : List Char) :
    encode (c :: s) = String.utf8EncodeChar c ++ encode s := rfl

@[simp] theorem encode_append (s t : List Char) : encode (s ++ t) = encode s ++ encode t := by
  simp [encode]

-- a stray tail, a broken-off start and an overlong spelling are ill-formed, what follows is read
example :
    decode [0xFF, 0x61, 0xE2, 0x82, 0x62, 0xC0, 0x80, 0xE2, 0x82, 0xAC]
      = [none, some 'a', none, some 'b', none, none, some '€'] := by decide

end ContentSearch.Text.Utf8
