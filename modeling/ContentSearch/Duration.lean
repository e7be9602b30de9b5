/-!
# Durations

A span of time, exact to the nanosecond and bounded above. Arithmetic that would pass the bound
stays at it.

One number of nanoseconds stands for the two words of a machine, seconds and what is beyond them.
That these come to the same is shown where waits are computed (`Duration.Words`).
-/

set_option autoImplicit false

namespace ContentSearch

namespace Duration

/-- Nanoseconds in a second. -/
def second : Nat := 1000000000

/-- The longest span: `2 ^ 64 - 1` seconds and all the nanoseconds below the next one. -/
def mostNanos : Nat := Nat.pow 2 64 * second - 1

end Duration

structure Duration where
  nanos : Nat
  le_most : nanos ≤ Duration.mostNanos
  deriving DecidableEq

namespace Duration

/-- The span of this many nanoseconds, or the longest one. -/
def ofNanos (n : Nat) : Duration := ⟨min n mostNanos, Nat.min_le_right ..⟩

def ofSeconds (n : Nat) : Duration := ofNanos (n * second)

def ofMillis (n : Nat) : Duration := ofNanos (n * 1000000)

/-- `n` times the span, or the longest one. -/
def times (d : Duration) (n : Nat) : Duration := ofNanos (d.nanos * n)

def shorter (a b : Duration) : Duration := if a.nanos ≤ b.nanos then a else b

def seconds (d : Duration) : Nat := d.nanos / second

/-- The nanoseconds beyond the whole seconds. -/
def subNanos (d : Duration) : Nat := d.nanos % second

def millis (d : Duration) : Nat := d.nanos / 1000000

def zero : Duration := ofNanos 0

theorem nanos_ofNanos (n : Nat) : (ofNanos n).nanos = min n mostNanos := rfl

theorem nanos_shorter (a b : Duration) : (shorter a b).nanos = min a.nanos b.nanos := by
  unfold shorter
  split <;> omega

@[ext] theorem ext {a b : Duration} (h : a.nanos = b.nanos) : a = b := by
  cases a; cases b; cases h; rfl

end Duration
end ContentSearch
