/-!
# Blank characters

The characters that Unicode gives the property `White_Space`, and trimming by them.

The property is a closed list of twenty-five code points, so it is a table and not a guess: the
zero width space, the Mongolian vowel separator, the byte order mark and the four information
separators look like blanks and are none.
-/

set_option autoImplicit false

namespace ContentSearch.Text

/-- **The table.** Inclusive ranges of code points with the property `White_Space`. -/
def blankRanges : List (Nat × Nat) :=
  [(0x09, 0x0D), (0x20, 0x20), (0x85, 0x85), (0xA0, 0xA0), (0x1680, 0x1680), (0x2000, 0x200A),
   (0x2028, 0x2029), (0x202F, 0x202F), (0x205F, 0x205F), (0x3000, 0x3000)]

/-- A character is blank when its code point lies in one of the ranges. -/
def isBlank (c : Char) : Bool :=
  blankRanges.any fun r => r.1 ≤ c.toNat && c.toNat ≤ r.2

/-- Removes blanks at both ends and none in between. -/
def trimBlanks (s : List Char) : List Char :=
  ((s.dropWhile isBlank).reverse.dropWhile isBlank).reverse

/-- Removes every copy of `c` at the end. -/
def dropTrailing (c : Char) (s : List Char) : List Char :=
  (s.reverse.dropWhile (· == c)).reverse

/-- One more `c` at the end is removed with the others. -/
theorem dropTrailing_append_self (c : Char) (s : List Char) :
    dropTrailing c (s ++ [c]) = dropTrailing c s := by
  simp [dropTrailing]

end ContentSearch.Text
