import ContentSearch.Duration

/-!
# Retrying

How often a rate-limited request is sent again and how long to wait before that. What the portal
asks for comes first; without its word the wait doubles from one attempt to the next. No wait is
longer than the longest one allowed.

The policy says how long to wait and not whether to go on; that is for the answer and the number of
attempts to say (`Answer.verdict`). Attempts are counted from zero.
-/

set_option autoImplicit false

namespace ContentSearch

structure RetryPolicy where
  maxRetries : Nat
  initial : Duration
  longest : Duration
  deriving DecidableEq

namespace RetryPolicy

/-- Three retries, from one second up to thirty. -/
def standard : RetryPolicy := ⟨3, .ofSeconds 1, .ofSeconds 30⟩

/-- How many times the initial wait an attempt waits. The count doubles while it fits 32 bits and
stays at the greatest number of 32 bits afterwards. -/
def factor (attempt : Nat) : Nat := if attempt < 32 then Nat.pow 2 attempt else Nat.pow 2 32 - 1

/-- **The wait** after an attempt, the first one being attempt zero. -/
def wait (p : RetryPolicy) (attempt : Nat) (retryAfter : Option Nat) : Duration :=
  let wanted := match retryAfter with
    | some seconds => Duration.ofSeconds seconds
    | none => p.initial.times (factor attempt)
  wanted.shorter p.longest

end RetryPolicy
end ContentSearch
