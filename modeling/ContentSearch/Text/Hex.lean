/-!
# Hexadecimal digits

Written in capitals or in small letters, read in either.
-/

set_option autoImplicit false

namespace ContentSearch.Text.Hex

/-- The capital digit of a value below sixteen. -/
def digit (n : Nat) : Char := if n < 10 then Char.ofNat (48 + n) else Char.ofNat (55 + n)

/-- The small digit of a value below sixteen. -/
def smallDigit (n : Nat) : Char := if n < 10 then Char.ofNat (48 + n) else Char.ofNat (87 + n)

def value? (c : Char) : Option Nat :=
  if '0' ≤ c ∧ c ≤ '9' then some (c.toNat - 48)
  else if 'A' ≤ c ∧ c ≤ 'F' then some (c.toNat - 55)
  else if 'a' ≤ c ∧ c ≤ 'f' then some (c.toNat - 87)
  else none

def number? (s : List Char) : Option Nat :=
  (s.mapM value?).map fun ds => ds.foldl (fun n d => n * 16 + d) 0

/-- A number in small digits, without leading zeros. -/
def write (n : Nat) : List Char := Nat.toDigits 16 n

/-- A digit has the value that it was written for. -/
theorem value?_digit {n : Nat} (h : n < 16) : value? (digit n) = some n := by
  have all : ∀ m ∈ List.range 16, value? (digit m) = some m := by decide
  exact all n (List.mem_range.2 h)

theorem value?_smallDigit {n : Nat} (h : n < 16) : value? (smallDigit n) = some n := by
  have all : ∀ m ∈ List.range 16, value? (smallDigit m) = some m := by decide
  exact all n (List.mem_range.2 h)

end ContentSearch.Text.Hex
