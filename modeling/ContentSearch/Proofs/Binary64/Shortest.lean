import ContentSearch.Binary64.Shortest

/-!
# The shortest decimal is positive

A positive double is written with digits of which at least one is no zero. The search can end in
three ways. A decimal on the grid is taken only if it reads back, and zero reads back as zero
(**`digits_pos_of_onGrid?`**); rounding up to the next power of ten leaves a one; and if nothing was
found, the value is cut off on a grid that is fine enough to leave something of it
(**`neighbours_pos`**), since the magnitude says how many digits the value has.

Nothing is said of the decimal being the shortest or the nearest. What a numeral needs is that there
is a digit and that it is no zero in front of others.
-/

set_option autoImplicit false

namespace ContentSearch.Binary64

/-! ## Magnitude -/

theorem lt_pow_digitCount (n : Nat) : n < Nat.pow 10 (digitCount n) :=
  (Nat.length_toDigits_le_iff (by decide) Nat.length_toDigits_pos).mp (Nat.le_refl _)

theorem pow_digitCount_le {n : Nat} (h : 0 < n) : Nat.pow 10 (digitCount n - 1) ≤ n := by
  by_cases hone : digitCount n = 1
  · rw [hone]
    exact h
  · have hpos : 0 < digitCount n := Nat.length_toDigits_pos
    refine Nat.le_of_not_lt fun hlt => ?_
    have hlength : digitCount n ≤ digitCount n - 1 :=
      (Nat.length_toDigits_le_iff (by decide) (by omega)).mpr hlt
    omega

/-- A grid that is finer than the magnitude has a step that is not above the value. -/
theorem gridPoint_one_le {units : Nat} (h : 0 < units) {exponent : Int}
    (hfine : exponent < magnitude units) :
    (gridPoint 1 exponent).1 ≤ quarters units * (gridPoint 1 exponent).2 := by
  unfold gridPoint quarters
  unfold magnitude at hfine
  by_cases hone : one ≤ units
  · rw [if_pos hone] at hfine
    split
    · -- the whole part has a digit in front of the exponent's place
      have hwhole : 0 < units / one := Nat.div_pos hone (by decide +kernel)
      have hpow : Nat.pow 10 exponent.toNat ≤ Nat.pow 10 (digitCount (units / one) - 1) :=
        Nat.pow_le_pow_right (by decide) (by omega)
      have hvalue : one * Nat.pow 10 exponent.toNat ≤ units := by
        calc one * Nat.pow 10 exponent.toNat
            ≤ one * (units / one) :=
              Nat.mul_le_mul_left _ (Nat.le_trans hpow (pow_digitCount_le hwhole))
          _ ≤ units := Nat.mul_div_le units one
      show 4 * one * 1 * Nat.pow 10 exponent.toNat ≤ 4 * units * 1
      rw [Nat.mul_one, Nat.mul_one, Nat.mul_assoc]
      exact Nat.mul_le_mul_left 4 hvalue
    · show 4 * one * 1 ≤ 4 * units * Nat.pow 10 (-exponent).toNat
      have hpow : 0 < Nat.pow 10 (-exponent).toNat := Nat.pow_pos (by decide)
      calc 4 * one * 1 = 4 * one := Nat.mul_one _
        _ ≤ 4 * units := Nat.mul_le_mul_left 4 hone
        _ ≤ 4 * units * Nat.pow 10 (-exponent).toNat := Nat.le_mul_of_pos_right _ hpow
  · have hcount : 0 < digitCount ((one + units - 1) / units - 1) := Nat.length_toDigits_pos
    rw [if_neg hone] at hfine
    rw [if_neg (by omega)]
    -- below one, the magnitude counts the zeros behind the point
    have hceil := lt_pow_digitCount ((one + units - 1) / units - 1)
    have hpow : Nat.pow 10 (digitCount ((one + units - 1) / units - 1))
        ≤ Nat.pow 10 (-exponent).toNat :=
      Nat.pow_le_pow_right (by decide) (by omega)
    have hquotient : (one + units - 1) / units < Nat.pow 10 (-exponent).toNat + 1 := by omega
    have hproduct := (Nat.div_lt_iff_lt_mul h).mp hquotient
    rw [Nat.add_mul, Nat.one_mul] at hproduct
    have hvalue : one ≤ Nat.pow 10 (-exponent).toNat * units := by omega
    show 4 * one * 1 ≤ 4 * units * Nat.pow 10 (-exponent).toNat
    rw [Nat.mul_one, Nat.mul_assoc, Nat.mul_comm units]
    exact Nat.mul_le_mul_left 4 hvalue

theorem gridPoint_one_pos (exponent : Int) : 0 < (gridPoint 1 exponent).1 := by
  have hone : 0 < one := by decide +kernel
  unfold gridPoint
  split
  · show 0 < 4 * one * 1 * Nat.pow 10 exponent.toNat
    exact Nat.mul_pos (by omega) (Nat.pow_pos (by decide))
  · show 0 < 4 * one * 1
    omega

theorem neighbours_pos {units : Nat} (h : 0 < units) {exponent : Int}
    (hfine : exponent < magnitude units) : 0 < (neighbours units exponent).1 :=
  Nat.div_pos (gridPoint_one_le h hfine) (gridPoint_one_pos exponent)

/-! ## What reads back -/

/-- The numbers that are read as a positive one are positive. -/
theorem interval_pos {units : Nat} (h : 0 < units) : 0 < (interval units).1 := by
  have hstep : Nat.pow 2 (lastBit units) ≤ units := by
    calc Nat.pow 2 (lastBit units) ≤ Nat.pow 2 units.log2 :=
          Nat.pow_le_pow_right (by decide) (Nat.sub_le _ _)
      _ ≤ units := Nat.log2_self_le (by omega)
  have hpow : 0 < Nat.pow 2 (lastBit units) := Nat.pow_pos (by decide)
  unfold interval quarters
  dsimp only
  split <;> omega

theorem readsBack_zero {units : Nat} (h : 0 < units) (exponent : Int) :
    readsBack units 0 exponent = false := by
  have hlow := interval_pos h
  have hzero : (gridPoint 0 exponent).1 = 0 := by
    unfold gridPoint
    split <;> simp
  have hscale : 0 < (gridPoint 0 exponent).2 := by
    unfold gridPoint
    split
    · exact Nat.one_pos
    · exact Nat.pow_pos (by decide)
  have hproduct : 0 < (interval units).1 * (gridPoint 0 exponent).2 := Nat.mul_pos hlow hscale
  unfold readsBack
  dsimp only
  rw [hzero]
  split
  · simp
    omega
  · simp

theorem digits_pos_of_onGrid? {units digits : Nat} (h : 0 < units) {exponent : Int}
    (hdigits : onGrid? units exponent = some digits) : 0 < digits := by
  have hback : readsBack units digits exponent := by
    unfold onGrid? at hdigits
    dsimp only at hdigits
    generalize (if (neighbours units exponent).2 = true then (neighbours units exponent).1 + 1
      else (neighbours units exponent).1) = first at hdigits
    generalize (if (neighbours units exponent).2 = true then (neighbours units exponent).1
      else (neighbours units exponent).1 + 1) = second at hdigits
    split at hdigits
    · rename_i hfirst
      cases hdigits
      exact hfirst
    · split at hdigits
      · rename_i hsecond
        cases hdigits
        exact hsecond
      · cases hdigits
  refine Nat.pos_of_ne_zero fun hzero => ?_
  rw [hzero, readsBack_zero h] at hback
  exact absurd hback Bool.false_ne_true

/-! ## The search -/

theorem search_digits_pos {units : Nat} (h : 0 < units) {e : Int}
    (hcut : ∀ exponent < e, 0 < (neighbours units exponent).1) (fuel : Nat) :
    ∀ {count : Nat}, 0 < count → 0 < (search units e fuel count).digits := by
  induction fuel with
  | zero =>
    intro count hcount
    exact hcut (e - count) (by omega)
  | succ fuel ih =>
    intro count hcount
    unfold search
    split
    · rename_i digits hdigits
      unfold ofDigits
      split
      · exact Nat.one_pos
      · exact digits_pos_of_onGrid? h hdigits
    · exact ih (Nat.succ_pos count)

/-- **What is written for a positive double is no zero.** -/
theorem shortest_digits_pos {units : Nat} (h : 0 < units) : 0 < (shortest units).digits :=
  search_digits_pos h (fun _ hfine => neighbours_pos h hfine) 17 Nat.one_pos

end ContentSearch.Binary64
