import ContentSearch.Binary64.Basic
import Mathlib.Algebra.Order.Ring.Rat
import Mathlib.Algebra.Order.Field.Basic
import Mathlib.Tactic.NormNum

/-!
# Doubles and whole numbers

A double has an exact value, and it is a whole number exactly if `Binary64.toInt?` says so and says
which (**`Binary64.toInt?_eq_some_iff`**). In the other direction, a whole number below `2 ^ 53` is
a double as it is (**`Binary64.ofNat?_eq`**), and a greater one is rounded, but never down to half
of it (**`Binary64.lt_two_mul_units`**).

A machine finds the whole number of a double in steps: it asks for the part behind the point, it
compares, and it cuts off what does not fit into 64 bits. What each step does is said here by the
exact values, so that the order of the steps can be judged by what they come to
(**`Binary64.wholeWithin?_eq_some_iff`**).

Exact values are rational numbers, so that the steps of a machine can be compared with what they
approximate. Only two bounds are needed of rounding: nothing is lost below `2 ^ 53`, and above it
not half of the value.
-/

set_option autoImplicit false

namespace ContentSearch

namespace Binary64

/-- How many binary places a unit lies behind the point. -/
def places : Nat := 1074

theorem one_eq : one = 2 ^ places := by
  unfold one places
  generalize 1074 = n
  rfl

theorem overflow_eq : overflow = 2 ^ (1024 + places) := by
  have hsum : 1024 + places = 2098 := rfl
  rw [hsum]
  unfold overflow
  generalize 2098 = n
  rfl

theorem one_pos : 0 < one := by
  rw [one_eq]
  exact Nat.two_pow_pos places

/-! ## Value -/

/-- The units with the sign of the double. -/
def signedUnits (x : Binary64) : Int := if x.negative then -(x.units : Int) else x.units

/-- The number that a double stands for. -/
def value (x : Binary64) : ℚ := x.signedUnits / one

theorem cast_one_pos : (0 : ℚ) < one := Nat.cast_pos.mpr one_pos

theorem natAbs_signedUnits (x : Binary64) : x.signedUnits.natAbs = x.units := by
  unfold signedUnits
  split
  · rw [Int.natAbs_neg, Int.natAbs_natCast]
  · rw [Int.natAbs_natCast]

theorem value_eq_int_iff {x : Binary64} {n : Int} : x.value = n ↔ x.signedUnits = n * one := by
  rw [value, div_eq_iff (ne_of_gt cast_one_pos), ← Int.cast_natCast (R := ℚ) one, ← Int.cast_mul,
    Int.cast_inj]

/-- **The whole number of a double** is the number that it stands for, if that is whole. -/
theorem toInt?_eq_some_iff {x : Binary64} {n : Int} : x.toInt? = some n ↔ x.value = n := by
  rw [value_eq_int_iff]
  unfold toInt?
  -- Whole are the doubles whose units are a multiple of one, and nothing is lost in the division.
  by_cases hwhole : x.units % one = 0
  · have hunits : x.units / one * one = x.units :=
      Nat.div_mul_cancel (Nat.dvd_of_mod_eq_zero hwhole)
    have hone : (one : Int) ≠ 0 := Int.natCast_ne_zero.mpr (Nat.ne_of_gt one_pos)
    have hsigned : x.signedUnits
        = (if x.negative then -((x.units / one : Nat) : Int) else (x.units / one : Nat)) * one := by
      unfold signedUnits
      split
      · rw [Int.neg_mul, ← Int.natCast_mul, hunits]
      · rw [← Int.natCast_mul, hunits]
    rw [if_pos hwhole, Option.some_inj, hsigned]
    constructor
    · intro h
      rw [← h]
    · intro h
      exact Int.eq_of_mul_eq_mul_right hone h
  · rw [if_neg hwhole]
    refine iff_of_false (Option.some_ne_none n).symm fun h => hwhole ?_
    have hunits : x.units = n.natAbs * one := by
      rw [← natAbs_signedUnits, h, Int.natAbs_mul, Int.natAbs_natCast]
    rw [hunits, Nat.mul_mod_left]

/-! ## Rounding a whole number -/

theorem div_le_roundQuotient (a d : Nat) : a / d ≤ roundQuotient a d := by
  unfold roundQuotient
  dsimp only
  split
  · exact Nat.le_refl _
  · split
    · exact Nat.le_succ _
    · split
      · exact Nat.le_refl _
      · exact Nat.le_succ _

theorem roundQuotient_of_dvd {a d : Nat} (hd : 0 < d) (h : d ∣ a) : roundQuotient a d = a / d := by
  have hrest : 2 * (a % d) < d := by rw [Nat.mod_eq_zero_of_dvd h]; exact hd
  exact if_pos hrest

theorem roundUnits_one (a : Nat) :
    roundUnits a 1 = roundQuotient a (2 ^ lastBit a) * 2 ^ lastBit a := by
  unfold roundUnits
  dsimp only
  rw [Nat.div_one, Nat.one_mul]
  rfl

/-- A number keeps 53 bits, so its last bit is worth at most one part in `2 ^ 52` of it. -/
theorem two_pow_lastBit_le {a : Nat} (h : 2 ^ 52 ≤ a) : 2 ^ 52 * 2 ^ lastBit a ≤ a := by
  have hne : a ≠ 0 := Nat.ne_of_gt (Nat.lt_of_lt_of_le (Nat.two_pow_pos 52) h)
  have hlog : 52 ≤ a.log2 := (Nat.le_log2 hne).mpr h
  rw [← Nat.pow_add, lastBit, Nat.add_sub_cancel' hlog]
  exact Nat.log2_self_le hne

/-- Rounding takes away less than the last bit is worth. -/
theorem lt_roundUnits_add (a : Nat) : a < roundUnits a 1 + 2 ^ lastBit a := by
  have hfloor := Nat.mul_le_mul_right (2 ^ lastBit a) (div_le_roundQuotient a (2 ^ lastBit a))
  have hrest := Nat.lt_div_mul_add (a := a) (Nat.two_pow_pos (lastBit a))
  rw [roundUnits_one]
  omega

/-- A number of which the last bit is worth a divisor is its own rounding. -/
theorem roundUnits_eq_self {a : Nat} (h : 2 ^ lastBit a ∣ a) : roundUnits a 1 = a := by
  rw [roundUnits_one, roundQuotient_of_dvd (Nat.two_pow_pos _) h, Nat.div_mul_cancel h]

theorem ofNat?_eq_round (n : Nat) :
    ofNat? n = if roundUnits (n * one) 1 < overflow then some ⟨false, roundUnits (n * one) 1⟩
      else none := rfl

/-- **A whole number of at most 53 bits is a double.** -/
theorem ofNat?_eq {n : Nat} (h : n < 2 ^ 53) : ofNat? n = some ⟨false, n * one⟩ := by
  -- a number of at most 53 bits needs no bit behind the point
  have hbit : lastBit (n * one) ≤ places := by
    by_cases hzero : n = 0
    · rw [hzero, Nat.zero_mul]
      exact Nat.zero_le _
    · have hne : n * one ≠ 0 := Nat.mul_ne_zero hzero (Nat.ne_of_gt one_pos)
      have hpower : n * one < 2 ^ (53 + places) := by
        rw [Nat.pow_add, ← one_eq]
        exact Nat.mul_lt_mul_of_pos_right h one_pos
      have hlog : (n * one).log2 < 53 + places := (Nat.log2_lt hne).mpr hpower
      unfold lastBit
      generalize (n * one).log2 = k at hlog
      omega
  have hdvd : 2 ^ lastBit (n * one) ∣ 2 ^ places := Nat.pow_dvd_pow 2 hbit
  rw [← one_eq] at hdvd
  -- and it is far below the numbers that no double stands for
  have hsmall : n * one < overflow := by
    have hlt := Nat.mul_lt_mul_of_pos_right h one_pos
    have hmost : 2 ^ 53 * one ≤ overflow := by
      rw [one_eq, overflow_eq, ← Nat.pow_add]
      exact Nat.pow_le_pow_right (by decide) (by decide)
    exact Nat.lt_of_lt_of_le hlt hmost
  rw [ofNat?_eq_round, roundUnits_eq_self (Nat.dvd_mul_left_of_dvd hdvd n),
    if_pos hsmall]

/-- **A rounded number is more than half of what it was.** -/
theorem lt_two_mul_units {n : Nat} {x : Binary64} (hn : 0 < n) (hx : ofNat? n = some x) :
    n * one < 2 * x.units := by
  rw [ofNat?_eq_round] at hx
  split at hx
  · obtain rfl := Option.some.inj hx
    have hone : 2 ^ 52 ≤ one := by
      rw [one_eq]
      exact Nat.pow_le_pow_right (by decide) (by decide)
    -- rounding takes less than the last bit, which is worth less than half of the number
    have hbit := two_pow_lastBit_le (Nat.le_trans hone (Nat.le_mul_of_pos_left one hn))
    have hround := lt_roundUnits_add (n * one)
    show n * one < 2 * roundUnits (n * one) 1
    omega
  · cases hx

/-! ## The steps of a machine -/

/-- The part behind the point. -/
def fraction (x : Binary64) : Binary64 := { x with units := x.units % one }

/-- A zero of either sign. -/
def isZero (x : Binary64) : Bool := x.units = 0

def unsigned (x : Binary64) : Binary64 := { x with negative := false }

def less (x y : Binary64) : Bool := x.signedUnits < y.signedUnits

/-- What is before the point, as an integer of 64 bits; one that does not fit ends at the end of
their range. -/
def toInt64 (x : Binary64) : Int := max (-2 ^ 63) (min (x.signedUnits.tdiv one) (2 ^ 63 - 1))

/-- The double nearest to an integer. -/
def ofInt? (n : Int) : Option Binary64 :=
  (ofNat? n.natAbs).map fun x => { x with negative := decide (n < 0) }

/-- The whole number that a double is, if it is one and not beyond the limit on either side. -/
def wholeWithin? (limit x : Binary64) : Option Int :=
  if x.fraction.isZero then
    if limit.less x.unsigned then none else some x.toInt64
  else none

theorem isZero_fraction_iff {x : Binary64} : x.fraction.isZero = true ↔ ∃ n : Int, x.value = n := by
  have hzero : x.fraction.isZero = true ↔ x.units % one = 0 := decide_eq_true_iff
  rw [hzero]
  constructor
  · intro h
    exact ⟨_, toInt?_eq_some_iff.mp (if_pos h)⟩
  · rintro ⟨n, hn⟩
    -- a whole number leaves no rest
    by_contra hpart
    have hnone : x.toInt? = none := if_neg hpart
    rw [toInt?_eq_some_iff.mpr hn] at hnone
    cases hnone

theorem less_iff {x y : Binary64} : x.less y = true ↔ x.value < y.value := by
  unfold less value
  rw [decide_eq_true_iff, div_lt_div_iff_of_pos_right cast_one_pos, Int.cast_lt]

theorem value_unsigned (x : Binary64) : x.unsigned.value = |x.value| := by
  have hunits : x.unsigned.signedUnits = |x.signedUnits| := by
    rw [Int.abs_eq_natAbs, natAbs_signedUnits]
    rfl
  rw [value, value, hunits, Int.cast_abs, abs_div, abs_of_pos cast_one_pos]

theorem toInt64_eq {x : Binary64} {n : Int} (h : x.value = n) (hlow : -2 ^ 63 ≤ n)
    (hhigh : n < 2 ^ 63) : x.toInt64 = n := by
  have hone : (one : Int) ≠ 0 := Int.natCast_ne_zero.mpr (Nat.ne_of_gt one_pos)
  rw [toInt64, value_eq_int_iff.mp h, Int.mul_tdiv_cancel n hone]
  omega

/-- An integer of at most 53 bits and a sign is a double. -/
theorem value_ofInt? {n : Int} (h : n.natAbs < 2 ^ 53) : ∃ x, ofInt? n = some x ∧ x.value = n := by
  refine ⟨⟨decide (n < 0), n.natAbs * one⟩, ?_, ?_⟩
  · rw [ofInt?, ofNat?_eq h]
    rfl
  · rw [value_eq_int_iff, signedUnits, Int.natCast_mul]
    by_cases hn : n < 0
    · rw [if_pos (decide_eq_true hn), ← Int.neg_mul, Int.ofNat_natAbs_of_nonpos (Int.le_of_lt hn),
        Int.neg_neg]
    · rw [if_neg (by simpa using hn), Int.natAbs_of_nonneg (Int.not_lt.mp hn)]

/-- An integer keeps more than half of its value when it becomes a double. -/
theorem lt_two_mul_value {n : Int} {x : Binary64} (hn : 0 < n) (hx : ofInt? n = some x) :
    n < 2 * x.value := by
  obtain ⟨y, hy, rfl⟩ := Option.map_eq_some_iff.mp hx
  have hunits := lt_two_mul_units (Int.natAbs_pos.mpr (Int.ne_of_gt hn)) hy
  have hsigned : signedUnits { y with negative := decide (n < 0) } = y.units := by
    rw [signedUnits, decide_eq_false (Int.not_lt.mpr (Int.le_of_lt hn))]
    rfl
  have habs : ((n.natAbs : Int) : ℚ) = n := by rw [Int.natAbs_of_nonneg (Int.le_of_lt hn)]
  have hcast : (n : ℚ) * one < 2 * y.units := by
    rw [← habs]
    exact_mod_cast hunits
  rw [value, hsigned, ← mul_div_assoc, lt_div_iff₀ cast_one_pos]
  exact hcast

/-- **The steps find the whole number that there is**, below any limit that a 64-bit integer can
hold. -/
theorem wholeWithin?_eq_some_iff {limit x : Binary64} {m n : Int} (hlimit : limit.value = m)
    (hm : m < 2 ^ 63) : wholeWithin? limit x = some n ↔ x.value = n ∧ |n| ≤ m := by
  have hbeyond {k : Int} (hk : x.value = k) : limit.less x.unsigned = true ↔ m < |k| := by
    rw [less_iff, value_unsigned, hlimit, hk, ← Int.cast_abs, Int.cast_lt]
  unfold wholeWithin?
  -- Without a part behind the point there is a whole number, and the comparison is about that.
  by_cases hzero : x.fraction.isZero = true
  · obtain ⟨k, hk⟩ := isZero_fraction_iff.mp hzero
    rw [if_pos hzero, hk, Int.cast_inj]
    by_cases hgreat : m < |k|
    · rw [if_pos ((hbeyond hk).mpr hgreat)]
      refine iff_of_false (Option.some_ne_none n).symm ?_
      rintro ⟨rfl, hle⟩
      exact absurd hgreat (Int.not_lt.mpr hle)
    · -- below the limit nothing is cut off, since the limit itself fits
      obtain ⟨hlow, hhigh⟩ := abs_le.mp (Int.not_lt.mp hgreat)
      rw [if_neg fun h => hgreat ((hbeyond hk).mp h), toInt64_eq hk (by omega) (by omega),
        Option.some_inj]
      constructor
      · rintro rfl
        exact ⟨rfl, Int.not_lt.mp hgreat⟩
      · exact And.left
  · rw [if_neg hzero]
    refine iff_of_false (Option.some_ne_none n).symm fun h => ?_
    exact hzero (isZero_fraction_iff.mpr ⟨n, h.1⟩)

end Binary64
end ContentSearch
