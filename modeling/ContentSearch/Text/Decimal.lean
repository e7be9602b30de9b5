/-!
# Whole numbers as text

Writing is the decimal digits without a leading zero. Reading is a little wider: one `+` may stand
in front and zeros may lead. A text that is no number below the limit says why, and of two reasons
the one that shows first from the left wins: after too many digits, a letter is not looked at.

The limit is met at every digit and not at the end. This is where the order of the reasons comes
from, and it makes zeros in front harmless in any number.
-/

set_option autoImplicit false

namespace ContentSearch.Text.Decimal

/-- Why a text is no whole number in range. -/
inductive Fault
  | empty
  | badDigit
  | tooLarge
  deriving Repr, DecidableEq

def Fault.message : Fault → String
  | .empty => "cannot parse integer from empty string"
  | .badDigit => "invalid digit found in string"
  | .tooLarge => "number too large to fit in target type"

/-- The value of a run of digits, read after the digits that gave `acc`; it must stay below
`limit` at every step. -/
def readDigits (limit : Nat) : Nat → List Char → Except Fault Nat
  | acc, [] => .ok acc
  | acc, c :: r =>
    if c.isDigit then
      let n := 10 * acc + (c.toNat - '0'.toNat)
      if n < limit then readDigits limit n r else .error .tooLarge
    else .error .badDigit

/-- A number below `limit`, with an optional `+` in front. -/
def read (limit : Nat) : List Char → Except Fault Nat
  | [] => .error .empty
  | ['+'] => .error .badDigit
  | '+' :: r => readDigits limit 0 r
  | s => readDigits limit 0 s

def write (n : Nat) : List Char := Nat.toDigits 10 n

/-- The digits of an integer, with `-` in front of a negative one. -/
def writeInt (n : Int) : List Char :=
  if n < 0 then '-' :: write n.natAbs else write n.natAbs

/-- One more than the greatest number of 32 bits. -/
def limit32 : Nat := Nat.pow 2 32

/-- One more than the greatest number of 64 bits. -/
def limit64 : Nat := Nat.pow 2 64

/-- A run of digits is read as the number it spells, as long as that stays below the limit. -/
theorem readDigits_of_isDigit {limit : Nat} {s : List Char} :
    ∀ {acc : Nat}, (∀ c ∈ s, c.isDigit) → acc < limit → Nat.ofDigitChars 10 s acc < limit →
      readDigits limit acc s = .ok (Nat.ofDigitChars 10 s acc) := by
  induction s with
  | nil => intro acc _ _ _; simp [readDigits, Nat.ofDigitChars]
  | cons c r ih =>
    intro acc hd ha hl
    have hc : c.isDigit := hd c (by simp)
    rw [Nat.ofDigitChars_cons] at hl ⊢
    have hmono : ∀ (t : List Char) (a : Nat), a ≤ Nat.ofDigitChars 10 t a := by
      intro t
      induction t with
      | nil => intro a; simp [Nat.ofDigitChars]
      | cons d t iht =>
        intro a
        rw [Nat.ofDigitChars_cons]
        exact Nat.le_trans (by omega) (iht _)
    have hstep : 10 * acc + (c.toNat - '0'.toNat) < limit := Nat.lt_of_le_of_lt (hmono r _) hl
    simp only [readDigits, hc, if_true, hstep]
    exact ih (fun d hd' => hd d (by simp [hd'])) hstep hl

/-- **Reading undoes writing** below the limit. -/
theorem read_write {limit n : Nat} (h : n < limit) : read limit (write n) = .ok n := by
  have hval : Nat.ofDigitChars 10 (Nat.toDigits 10 n) 0 = n :=
    Nat.ofDigitChars_toDigits (by decide) (by decide)
  have hdig : ∀ c ∈ Nat.toDigits 10 n, c.isDigit :=
    fun c hc => Nat.isDigit_of_mem_toDigits (by decide) (by decide) hc
  have hread : readDigits limit 0 (Nat.toDigits 10 n) =
      .ok (Nat.ofDigitChars 10 (Nat.toDigits 10 n) 0) :=
    readDigits_of_isDigit hdig (by omega) (by rw [hval]; exact h)
  rw [hval] at hread
  unfold write
  cases hs : Nat.toDigits 10 n with
  | nil => exact absurd hs Nat.toDigits_ne_nil
  | cons c r =>
    have hc : c.isDigit := hdig c (by simp [hs])
    have hplus : c ≠ '+' := by rintro rfl; exact absurd hc (by decide)
    rw [hs] at hread
    rw [read]
    · exact hread
    · simp
    · simp [hplus]
    · simp [hplus]

-- of two faults the first one from the left is told
example : read limit32 "4294967296x".toList = .error .tooLarge := by rfl

example : read limit32 "429496729x".toList = .error .badDigit := by rfl

end ContentSearch.Text.Decimal
