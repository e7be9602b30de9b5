/-!
# Hosts beyond ASCII

A part of a host that is not ASCII is written in ASCII: `xn--`, its ASCII characters, and a list of
insertions that puts the others back. The insertions are sorted by code point, and each of them is
told by its distance from the one before, in digits to the base 36 whose weights adapt to the sizes
that have been seen.

The weights are those of the standard, and so is the first bias. Only writing is here: a host that
comes in with `xn--` is ASCII already and stays as it is.
-/

set_option autoImplicit false

namespace ContentSearch.Url.Punycode

/-- The digit of a value below 36. -/
def digit (n : Nat) : Char := if n < 26 then Char.ofNat (97 + n) else Char.ofNat (22 + n)

/-- The least value that a digit at a place takes if another digit follows. -/
def threshold (place bias : Nat) : Nat :=
  if place ≤ bias then 1 else if bias + 26 ≤ place then 26 else place - bias

theorem threshold_le (place bias : Nat) : threshold place bias ≤ 26 := by
  unfold threshold
  split
  · omega
  · split <;> omega

theorem threshold_pos (place bias : Nat) : 0 < threshold place bias := by
  unfold threshold
  split
  · omega
  · split <;> omega

def digits (bias place n : Nat) : List Char :=
  let t := threshold place bias
  if n < t then [digit n]
  else digit (t + (n - t) % (36 - t)) :: digits bias (place + 36) ((n - t) / (36 - t))
termination_by n
decreasing_by
  have _ := threshold_pos place bias
  have _ := threshold_le place bias
  calc (n - threshold place bias) / (36 - threshold place bias)
      ≤ n - threshold place bias := Nat.div_le_self ..
    _ < n := by omega

/-- Divides by 35 until what is left is small: what is left, and 36 for every division. -/
def shrink (n sum : Nat) : Nat × Nat :=
  if 455 < n then shrink (n / 35) (sum + 36) else (n, sum)
termination_by n
decreasing_by exact Nat.div_lt_self (by omega) (by omega)

/-- The bias after a distance, when there are `count` characters. -/
def adapt (distance count : Nat) (first : Bool) : Nat :=
  let n := if first then distance / 700 else distance / 2
  let (n, sum) := shrink (n + n / count) 0
  sum + 36 * n / (n + 38)

/-- What has been written, and what the next insertion depends on. -/
structure State where
  written : List Char
  distance : Nat
  bias : Nat
  /-- How many characters are in place. -/
  count : Nat

/-- Goes past one character of the text while the characters with code point `n` are put in. -/
def step (ascii n : Nat) (s : State) (c : Char) : State :=
  if c.toNat < n then { s with distance := s.distance + 1 }
  else if c.toNat = n then
    { written := s.written ++ digits s.bias 36 s.distance
      distance := 0
      bias := adapt s.distance (s.count + 1) (s.count = ascii)
      count := s.count + 1 }
  else s

/-- Puts in the characters with the given code points, which ascend. -/
def insertions (text : List Char) (ascii : Nat) : List Nat → Nat → State → State
  | [], _, s => s
  | n :: ns, last, s =>
    let s := { s with distance := s.distance + (n - last) * (s.count + 1) }
    let s := text.foldl (step ascii n) s
    insertions text ascii ns (n + 1) { s with distance := s.distance + 1 }

/-- The code points beyond ASCII, ascending, each once. -/
def codePoints (text : List Char) : List Nat :=
  (((text.map Char.toNat).filter (0x80 ≤ ·)).mergeSort (· ≤ ·)).eraseDups

def encode (text : List Char) : List Char :=
  let basic := text.filter fun c => c.toNat < 0x80
  let s := insertions text basic.length (codePoints text) 0x80 ⟨[], 0, 72, basic.length⟩
  basic ++ (if basic = [] then [] else ['-']) ++ s.written

def label (text : List Char) : List Char :=
  if text.all fun c => c.toNat < 0x80 then text else "xn--".toList ++ encode text

end ContentSearch.Url.Punycode
