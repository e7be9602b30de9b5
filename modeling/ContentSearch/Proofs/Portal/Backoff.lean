import ContentSearch.Portal.Retry
import ContentSearch.Text.Decimal
import Mathlib.Algebra.Order.Group.Nat

/-!
# How long a retry waits

A wait is a product that is cut off three times: the factor stops doubling where it no longer fits
32 bits, the product stops at the longest span there is, and the outcome at the longest wait that
the policy allows. The second cut is never seen, because the third one is at most as far out. So the
wait is exact, with a factor that is the power of two or, from the thirty-second attempt on, the
greatest number of 32 bits.

The program does not have spans of nanoseconds. It has seconds in one word and the nanoseconds
beyond them in another, carries from the second to the first when it multiplies, and compares the
first before the second. `Duration.Words` and `RetryPolicy.wordWait` are that arithmetic, every
operation in the width of its words, and they come to the same (**`RetryPolicy.words_wait`**).

What a policy promises is `BackoffLaw`, and every policy keeps it (**`RetryPolicy.backoffLaw`**).

The two are linked by the words that a duration has (`Duration.words`), and each operation is
compared through them (`words_times`, `words_shorter`). Where the product leaves the words, the
machine answers with the longest span, and so does cutting off an unbounded product.
-/

set_option autoImplicit false

namespace ContentSearch

/-! ## Exact waits -/

namespace RetryPolicy

theorem factor_of_lt {attempt : Nat} (h : attempt < 32) : factor attempt = 2 ^ attempt := if_pos h

theorem factor_of_le {attempt : Nat} (h : 32 ≤ attempt) : factor attempt = 2 ^ 32 - 1 :=
  if_neg (by omega)

theorem factor_le (attempt : Nat) : factor attempt ≤ 2 ^ 32 - 1 := by
  by_cases h : attempt < 32
  · rw [factor_of_lt h]
    have hpow : 2 ^ attempt ≤ 2 ^ 31 := Nat.pow_le_pow_right (by decide) (by omega)
    omega
  · rw [factor_of_le (by omega)]

theorem factor_mono {a b : Nat} (h : a ≤ b) : factor a ≤ factor b := by
  -- below the last power it doubles, and from there on nothing is greater
  by_cases hb : b < 32
  · rw [factor_of_lt (by omega), factor_of_lt hb]
    exact Nat.pow_le_pow_right (by decide) h
  · have hfactor : factor b = 2 ^ 32 - 1 := factor_of_le (by omega)
    rw [hfactor]
    exact factor_le a

variable (p : RetryPolicy)

/-- Cutting off at the longest span changes nothing that is cut off at a span afterwards. -/
theorem nanos_shorter_ofNanos (n : Nat) (d : Duration) :
    ((Duration.ofNanos n).shorter d).nanos = min n d.nanos := by
  rw [Duration.nanos_shorter, Duration.nanos_ofNanos, Nat.min_assoc, Nat.min_eq_right d.le_most]

theorem nanos_wait_some (attempt seconds : Nat) :
    (p.wait attempt (some seconds)).nanos = min (seconds * Duration.second) p.longest.nanos :=
  nanos_shorter_ofNanos _ _

theorem nanos_wait_none (attempt : Nat) :
    (p.wait attempt none).nanos = min (p.initial.nanos * factor attempt) p.longest.nanos :=
  nanos_shorter_ofNanos _ _

/-- **The wait never passes the longest one.** -/
theorem nanos_wait_le (attempt : Nat) (after : Option Nat) :
    (p.wait attempt after).nanos ≤ p.longest.nanos := by
  cases after with
  | none => exact p.nanos_wait_none attempt ▸ Nat.min_le_right _ _
  | some seconds => exact p.nanos_wait_some attempt seconds ▸ Nat.min_le_right _ _

theorem nanos_wait_mono (after : Option Nat) {a b : Nat} (h : a ≤ b) :
    (p.wait a after).nanos ≤ (p.wait b after).nanos := by
  cases after with
  | none =>
    rw [nanos_wait_none, nanos_wait_none]
    have hproduct : p.initial.nanos * factor a ≤ p.initial.nanos * factor b :=
      Nat.mul_le_mul_left _ (factor_mono h)
    omega
  | some seconds => rw [nanos_wait_some, nanos_wait_some]

/-- **When the wait doubles as it should**: up to the last power of two that fits, for a policy
without an initial wait, and where the greatest factor leads to the longest wait anyhow. -/
theorem nanos_wait_eq_doubled_iff (attempt : Nat) :
    (p.wait attempt none).nanos = min (p.initial.nanos * 2 ^ attempt) p.longest.nanos ↔
      attempt ≤ 31 ∨ p.initial.nanos = 0 ∨ p.longest.nanos ≤ p.initial.nanos * (2 ^ 32 - 1) := by
  rw [nanos_wait_none]
  by_cases h : attempt < 32
  · rw [factor_of_lt h]
    exact iff_of_true rfl (.inl (by omega))
  · -- the power is greater than the factor, and the products differ unless they are zero
    rw [factor_of_le (by omega)]
    have hpow : 2 ^ 32 ≤ 2 ^ attempt := Nat.pow_le_pow_right (by decide) (by omega)
    rcases Nat.eq_zero_or_pos p.initial.nanos with hzero | hpos
    · rw [hzero, Nat.zero_mul, Nat.zero_mul]
      exact iff_of_true rfl (.inr (.inl rfl))
    · have hproduct : p.initial.nanos * (2 ^ 32 - 1) < p.initial.nanos * 2 ^ attempt :=
        Nat.mul_lt_mul_of_pos_left (by omega) hpos
      omega

end RetryPolicy

/-! ## Words -/

namespace Duration

/-- A span in two words: whole seconds, and the nanoseconds beyond them. -/
structure Words where
  seconds : UInt64
  nanos : UInt32
  deriving DecidableEq

def words (d : Duration) : Words := ⟨.ofNat d.seconds, .ofNat d.subNanos⟩

def checkedMul (a b : UInt64) : Option UInt64 :=
  if a.toNat * b.toNat < 2 ^ 64 then some (a * b) else none

def checkedAdd (a b : UInt64) : Option UInt64 :=
  if a.toNat + b.toNat < 2 ^ 64 then some (a + b) else none

namespace Words

/-- The longest span. -/
def most : Words := ⟨18446744073709551615, 999999999⟩

/-- `n` times a span. Nanoseconds are multiplied in a wide word, and what makes whole seconds of
them is carried. -/
def times? (w : Words) (n : UInt32) : Option Words :=
  let nanos : UInt64 := w.nanos.toUInt64 * n.toUInt64
  (checkedMul w.seconds n.toUInt64).bind fun seconds =>
    (checkedAdd seconds (nanos / 1000000000)).map fun seconds =>
      ⟨seconds, (nanos % 1000000000).toUInt32⟩

def shorter (a b : Words) : Words :=
  if a.seconds < b.seconds ∨ a.seconds = b.seconds ∧ a.nanos ≤ b.nanos then a else b

@[ext] theorem ext {a b : Words} (hseconds : a.seconds.toNat = b.seconds.toNat)
    (hnanos : a.nanos.toNat = b.nanos.toNat) : a = b := by
  cases a
  cases b
  exact congrArg₂ Words.mk (UInt64.toNat_inj.mp hseconds) (UInt32.toNat_inj.mp hnanos)

section
variable {w : Words} {n : UInt32}

/-- The wide word has room for all the nanoseconds. -/
theorem toNat_nanos_mul :
    (w.nanos.toUInt64 * n.toUInt64).toNat = w.nanos.toNat * n.toNat := by
  have hnanos : w.nanos.toNat ≤ 4294967295 := Nat.le_of_lt_succ w.nanos.toNat_lt
  have hn : n.toNat ≤ 4294967295 := Nat.le_of_lt_succ n.toNat_lt
  have hroom : w.nanos.toNat * n.toNat ≤ 4294967295 * 4294967295 := Nat.mul_le_mul hnanos hn
  rw [UInt64.toNat_mul, UInt32.toNat_toUInt64, UInt32.toNat_toUInt64]
  exact Nat.mod_eq_of_lt (by omega)

theorem toNat_carry : (w.nanos.toUInt64 * n.toUInt64 / 1000000000).toNat
    = w.nanos.toNat * n.toNat / 1000000000 := by
  rw [UInt64.toNat_div, toNat_nanos_mul]
  rfl

theorem toNat_rest : (w.nanos.toUInt64 * n.toUInt64 % 1000000000).toUInt32.toNat
    = w.nanos.toNat * n.toNat % 1000000000 := by
  have hrest : w.nanos.toNat * n.toNat % 1000000000 < 1000000000 := Nat.mod_lt _ (by decide)
  have hsecond : UInt64.toNat 1000000000 = 1000000000 := rfl
  rw [UInt64.toNat_toUInt32, UInt64.toNat_mod, toNat_nanos_mul, hsecond]
  exact Nat.mod_eq_of_lt (by omega)

/-- Where the seconds and the carry fit, the product is exact. -/
theorem times?_of_fits
    (h : w.seconds.toNat * n.toNat + w.nanos.toNat * n.toNat / 1000000000 < 2 ^ 64) :
    ∃ w', w.times? n = some w' ∧
      w'.seconds.toNat = w.seconds.toNat * n.toNat + w.nanos.toNat * n.toNat / 1000000000 ∧
      w'.nanos.toNat = w.nanos.toNat * n.toNat % 1000000000 := by
  have hmul : w.seconds.toNat * n.toUInt64.toNat < 2 ^ 64 := by
    rw [UInt32.toNat_toUInt64]
    omega
  have hseconds : (w.seconds * n.toUInt64).toNat = w.seconds.toNat * n.toNat := by
    rw [UInt64.toNat_mul, Nat.mod_eq_of_lt hmul, UInt32.toNat_toUInt64]
  refine ⟨⟨w.seconds * n.toUInt64 + w.nanos.toUInt64 * n.toUInt64 / 1000000000,
    (w.nanos.toUInt64 * n.toUInt64 % 1000000000).toUInt32⟩, ?_, ?_, toNat_rest⟩
  · rw [times?, checkedMul, if_pos hmul, Option.bind_some, checkedAdd, hseconds, toNat_carry,
      if_pos h]
    rfl
  · show UInt64.toNat (_ + _) = _
    rw [UInt64.toNat_add, hseconds, toNat_carry, Nat.mod_eq_of_lt h]

/-- Where they do not fit, one of the two checks notices it. -/
theorem times?_of_not_fits
    (h : ¬ w.seconds.toNat * n.toNat + w.nanos.toNat * n.toNat / 1000000000 < 2 ^ 64) :
    w.times? n = none := by
  -- the seconds alone pass the word, or they do with the carry
  by_cases hmul : w.seconds.toNat * n.toUInt64.toNat < 2 ^ 64
  · have hseconds : (w.seconds * n.toUInt64).toNat = w.seconds.toNat * n.toNat := by
      rw [UInt64.toNat_mul, Nat.mod_eq_of_lt hmul, UInt32.toNat_toUInt64]
    rw [times?, checkedMul, if_pos hmul, Option.bind_some, checkedAdd, hseconds, toNat_carry,
      if_neg h, Option.map_none]
  · rw [times?, checkedMul, if_neg hmul, Option.bind_none]

end

end Words

theorem nanos_eq (d : Duration) : d.nanos = d.seconds * 1000000000 + d.subNanos :=
  (Nat.div_add_mod' d.nanos second).symm

theorem nanos_le (d : Duration) : d.nanos ≤ 18446744073709551615999999999 := d.le_most

theorem seconds_lt (d : Duration) : d.seconds < 2 ^ 64 := by
  have hle := d.nanos_le
  have heq := d.nanos_eq
  omega

theorem subNanos_lt (d : Duration) : d.subNanos < 1000000000 := Nat.mod_lt _ (by decide)

@[simp] theorem toNat_seconds_words (d : Duration) : d.words.seconds.toNat = d.seconds :=
  UInt64.toNat_ofNat_of_lt' d.seconds_lt

@[simp] theorem toNat_nanos_words (d : Duration) : d.words.nanos.toNat = d.subNanos :=
  UInt32.toNat_ofNat_of_lt' (Nat.lt_trans d.subNanos_lt (by decide))

/-- What a span has in its words, if it is so many seconds and so many nanoseconds beyond them. -/
theorem words_eq {d : Duration} {w : Words} (hnanos : w.nanos.toNat < 1000000000)
    (h : d.nanos = w.seconds.toNat * 1000000000 + w.nanos.toNat) : d.words = w := by
  have heq := d.nanos_eq
  have hlt := d.subNanos_lt
  refine Words.ext ?_ ?_
  · rw [toNat_seconds_words]
    omega
  · rw [toNat_nanos_words]
    omega

theorem words_most {d : Duration} (h : d.nanos = 18446744073709551615999999999) :
    d.words = .most :=
  words_eq (by decide) h

/-- **Multiplying with a carry is multiplying**, and what no longer fits is the longest span. -/
theorem words_times (d : Duration) (n : UInt32) :
    (d.times n.toNat).words = (d.words.times? n).getD .most := by
  have hproduct : d.nanos * n.toNat
      = d.seconds * n.toNat * 1000000000 + d.subNanos * n.toNat := by
    rw [d.nanos_eq, Nat.add_mul, Nat.mul_right_comm]
  have htimes : (d.times n.toNat).nanos = min (d.nanos * n.toNat) mostNanos :=
    nanos_ofNanos _
  have hmost : mostNanos = 18446744073709551615999999999 := rfl
  rw [hproduct, hmost] at htimes
  -- The check of the words and the cut of the exact span fall together: both look at whole seconds.
  by_cases hfits : d.seconds * n.toNat + d.subNanos * n.toNat / 1000000000 < 2 ^ 64
  · obtain ⟨w, hw, hseconds, hnanos⟩ :=
      Words.times?_of_fits (w := d.words) (n := n) (by simpa using hfits)
    rw [toNat_nanos_words] at hnanos
    rw [toNat_seconds_words, toNat_nanos_words] at hseconds
    rw [hw, Option.getD_some]
    refine words_eq (by omega) ?_
    rw [hseconds, hnanos]
    omega
  · rw [Words.times?_of_not_fits (by simpa using hfits)]
    refine words_most ?_
    omega

/-- Seconds are compared first, and nanoseconds only between equal seconds. -/
theorem words_shorter (a b : Duration) : (a.shorter b).words = a.words.shorter b.words := by
  have ha := a.nanos_eq
  have hb := b.nanos_eq
  have hlt := a.subNanos_lt
  have hlt' := b.subNanos_lt
  have hle : a.nanos ≤ b.nanos ↔ a.words.seconds < b.words.seconds ∨
      a.words.seconds = b.words.seconds ∧ a.words.nanos ≤ b.words.nanos := by
    rw [UInt64.lt_iff_toNat_lt, ← UInt64.toNat_inj, UInt32.le_iff_toNat_le]
    simp only [toNat_seconds_words, toNat_nanos_words]
    omega
  unfold shorter Words.shorter
  by_cases h : a.nanos ≤ b.nanos
  · rw [if_pos h, if_pos (hle.mp h)]
  · rw [if_neg h, if_neg (mt hle.mpr h)]

end Duration

namespace RetryPolicy

/-- One, shifted to the left within 32 bits; nothing where it would be shifted out. -/
def shifted? (places : UInt32) : Option UInt32 := if places < 32 then some (1 <<< places) else none

/-- The wait, in words from the attempts on. -/
def wordWait (p : RetryPolicy) (attempt : UInt32) (after : Option UInt64) : Duration.Words :=
  let wanted : Duration.Words := match after with
    | some seconds => ⟨seconds, 0⟩
    | none => (p.initial.words.times? ((shifted? attempt).getD 4294967295)).getD .most
  wanted.shorter p.longest.words

theorem toNat_shifted? (attempt : UInt32) :
    ((shifted? attempt).getD 4294967295).toNat = factor attempt.toNat := by
  have hlt : attempt < 32 ↔ attempt.toNat < 32 := UInt32.lt_iff_toNat_lt
  unfold shifted?
  by_cases h : attempt.toNat < 32
  · have hpow : 2 ^ attempt.toNat < 2 ^ 32 := Nat.pow_lt_pow_right (by decide) h
    rw [if_pos (hlt.mpr h), factor_of_lt h, Option.getD_some, UInt32.toNat_shiftLeft,
      Nat.mod_eq_of_lt h, show UInt32.toNat 1 = 1 from rfl, Nat.one_shiftLeft,
      Nat.mod_eq_of_lt hpow]
  · rw [if_neg (mt hlt.mp h), factor_of_le (by omega)]
    rfl

theorem words_ofSeconds (seconds : UInt64) :
    (Duration.ofSeconds seconds.toNat).words = ⟨seconds, 0⟩ := by
  have hlt : seconds.toNat < 18446744073709551616 := seconds.toNat_lt
  refine Duration.words_eq (Nat.zero_lt_succ _) ?_
  show min (seconds.toNat * 1000000000) 18446744073709551615999999999
    = seconds.toNat * 1000000000 + 0
  omega

/-- **Words come to the same wait.** -/
theorem words_wait (p : RetryPolicy) (attempt : UInt32) (after : Option UInt64) :
    (p.wait attempt.toNat (after.map UInt64.toNat)).words = p.wordWait attempt after := by
  -- word by word: the factor, the product, the shorter of two spans
  cases after with
  | none =>
    show ((p.initial.times (factor attempt.toNat)).shorter p.longest).words = _
    rw [Duration.words_shorter, ← toNat_shifted?, Duration.words_times]
    rfl
  | some seconds =>
    show ((Duration.ofSeconds seconds.toNat).shorter p.longest).words = _
    rw [Duration.words_shorter, words_ofSeconds]
    rfl

end RetryPolicy

/-! ## The law -/

/-- **What a policy promises of its waits.** -/
structure BackoffLaw (p : RetryPolicy) : Prop where
  capped : ∀ attempt after, (p.wait attempt after).nanos ≤ p.longest.nanos
  /-- What the portal asks for, as far as the longest wait goes. -/
  asked : ∀ attempt seconds,
    (p.wait attempt (some seconds)).nanos = min (seconds * 1000000000) p.longest.nanos
  /-- Without its word, the product as it is with numbers of any size. -/
  exact : ∀ attempt, (p.wait attempt none).nanos =
    min (p.initial.nanos * if attempt ≤ 31 then 2 ^ attempt else 2 ^ 32 - 1) p.longest.nanos
  grows : ∀ after a b, a ≤ b → (p.wait a after).nanos ≤ (p.wait b after).nanos
  /-- Where the wait is the one that goes on doubling. -/
  doubles : ∀ attempt,
    (p.wait attempt none).nanos = min (p.initial.nanos * 2 ^ attempt) p.longest.nanos ↔
      attempt ≤ 31 ∨ p.initial.nanos = 0 ∨ p.longest.nanos ≤ p.initial.nanos * (2 ^ 32 - 1)
  /-- The arithmetic of words comes to the same. -/
  words : ∀ (attempt : UInt32) (after : Option UInt64),
    (p.wait attempt.toNat (after.map UInt64.toNat)).words = p.wordWait attempt after

/-- **Every policy keeps its promise**, whatever its waits are, the longest span among them. -/
theorem RetryPolicy.backoffLaw (p : RetryPolicy) : BackoffLaw p where
  capped := p.nanos_wait_le
  asked := p.nanos_wait_some
  exact attempt := by
    rw [nanos_wait_none]
    by_cases h : attempt ≤ 31
    · rw [factor_of_lt (by omega), if_pos h]
    · rw [factor_of_le (by omega), if_neg h]
  grows after _ _ h := p.nanos_wait_mono after h
  doubles := p.nanos_wait_eq_doubled_iff
  words := p.words_wait

end ContentSearch
