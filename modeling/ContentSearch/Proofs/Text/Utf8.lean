import ContentSearch.Text.Utf8

/-!
# What UTF-8 writes is read back

A character is written as one byte to four, by the size of its code point, and a reader tells from
the first byte how many belong to it. The bounds on the second byte refuse spellings that are
longer than they have to be and the gap of the surrogates; they never refuse a character, which is
where the cases below are made.

**`decode_encode`**: bytes that were written are characters everywhere, and the ones that were
written.

The step is one character with anything behind it (`decode_utf8EncodeChar_append`). What ill-formed
bytes are read as is no matter of this module.
-/

set_option autoImplicit false

namespace ContentSearch.Text.Utf8

/-! ## Bytes -/

theorem toNat_ofNat {n : Nat} (h : n < 0x100) : (UInt8.ofNat n).toNat = n :=
  UInt8.toNat_ofNat_of_lt' h

theorem ofNat_lt_iff {n : Nat} (hn : n < 0x100) (b : UInt8) : UInt8.ofNat n < b ↔ n < b.toNat := by
  rw [UInt8.lt_iff_toNat_lt, toNat_ofNat hn]

theorem between_ofNat {n : Nat} (hn : n < 0x100) (low high : UInt8) :
    (low ≤ UInt8.ofNat n && UInt8.ofNat n ≤ high) = decide (low.toNat ≤ n ∧ n ≤ high.toNat) := by
  simp only [UInt8.le_iff_toNat_le, toNat_ofNat hn, Bool.decide_and]

theorem ofNat_beq {n : Nat} (hn : n < 0x100) (b : UInt8) :
    (UInt8.ofNat n == b) = decide (n = b.toNat) := by
  rw [Bool.beq_eq_decide_eq, decide_eq_decide, ← UInt8.toNat_inj, toNat_ofNat hn]

/-! ## Characters -/

section
variable {x y z w : Nat}

theorem isTail_ofNat (h : y < 64) : isTail (UInt8.ofNat (y + 0x80)) := by
  unfold isTail
  rw [between_ofNat (by omega), decide_eq_true_eq]
  simp only [UInt8.reduceToNat]
  omega

theorem tailBits_ofNat (h : y < 64) : tailBits (UInt8.ofNat (y + 0x80)) = y := by
  rw [tailBits, toNat_ofNat (by omega)]
  omega

theorem decode_one (h : x < 0x80) (r : List UInt8) :
    decode (UInt8.ofNat x :: r) = some (Char.ofNat x) :: decode r := by
  have hlead : UInt8.ofNat x < 0x80 := (ofNat_lt_iff (by omega) 0x80).mpr h
  rw [decode.eq_def]
  dsimp only
  rw [if_pos hlead, toNat_ofNat (by omega)]

theorem decode_two (hlow : 0xC2 ≤ x) (hhigh : x ≤ 0xDF) (hy : y < 64) (r : List UInt8) :
    decode (UInt8.ofNat x :: UInt8.ofNat (y + 0x80) :: r)
      = some (Char.ofNat (x % 32 * 64 + y)) :: decode r := by
  have hx : x < 0x100 := by omega
  have hone : ¬ UInt8.ofNat x < 0x80 := by
    rw [ofNat_lt_iff hx]
    exact Nat.not_lt.mpr (Nat.le_trans (by decide) hlow)
  rw [decode.eq_def]
  simp only [between_ofNat hx, UInt8.reduceToNat]
  rw [if_neg hone, if_pos (decide_eq_true ⟨hlow, hhigh⟩), if_pos (isTail_ofNat hy),
    tailBits_ofNat hy, toNat_ofNat hx]

/-- Three bytes; the second one is bounded so that the code point needs them and is no
surrogate. -/
theorem decode_three (hlow : 0xE0 ≤ x) (hhigh : x ≤ 0xEF) (hy : y < 64) (hz : z < 64)
    (hlong : x = 0xE0 → 0x20 ≤ y) (hgap : x = 0xED → y < 0x20) (r : List UInt8) :
    decode (UInt8.ofNat x :: UInt8.ofNat (y + 0x80) :: UInt8.ofNat (z + 0x80) :: r)
      = some (Char.ofNat (x % 16 * 4096 + y * 64 + z)) :: decode r := by
  have hx : x < 0x100 := by omega
  have hone : ¬ UInt8.ofNat x < 0x80 := by
    rw [ofNat_lt_iff hx]
    exact Nat.not_lt.mpr (Nat.le_trans (by decide) hlow)
  have hsecond : isSecondOfThree (UInt8.ofNat x) (UInt8.ofNat (y + 0x80)) := by
    unfold isSecondOfThree
    rw [ofNat_beq hx, ofNat_beq hx, between_ofNat (by omega), between_ofNat (by omega)]
    split
    · simp_all; omega
    · split
      · simp_all; omega
      · exact isTail_ofNat hy
  rw [decode.eq_def]
  simp only [between_ofNat hx, UInt8.reduceToNat]
  rw [if_neg hone, if_neg (by simp; omega), if_pos (decide_eq_true ⟨hlow, hhigh⟩), if_pos hsecond,
    if_pos (isTail_ofNat hz), tailBits_ofNat hy, tailBits_ofNat hz, toNat_ofNat hx]

/-- Four bytes; the second one is bounded so that the code point needs them and is not too
great. -/
theorem decode_four (hlow : 0xF0 ≤ x) (hhigh : x ≤ 0xF4) (hy : y < 64) (hz : z < 64) (hw : w < 64)
    (hlong : x = 0xF0 → 0x10 ≤ y) (hmost : x = 0xF4 → y < 0x10) (r : List UInt8) :
    decode (UInt8.ofNat x :: UInt8.ofNat (y + 0x80) :: UInt8.ofNat (z + 0x80)
        :: UInt8.ofNat (w + 0x80) :: r)
      = some (Char.ofNat (x % 8 * 262144 + y * 4096 + z * 64 + w)) :: decode r := by
  have hx : x < 0x100 := by omega
  have hone : ¬ UInt8.ofNat x < 0x80 := by
    rw [ofNat_lt_iff hx]
    exact Nat.not_lt.mpr (Nat.le_trans (by decide) hlow)
  have hsecond : isSecondOfFour (UInt8.ofNat x) (UInt8.ofNat (y + 0x80)) := by
    unfold isSecondOfFour
    rw [ofNat_beq hx, ofNat_beq hx, between_ofNat (by omega), between_ofNat (by omega)]
    split
    · simp_all; omega
    · split
      · simp_all; omega
      · exact isTail_ofNat hy
  rw [decode.eq_def]
  simp only [between_ofNat hx, UInt8.reduceToNat]
  rw [if_neg hone, if_neg (by simp; omega), if_neg (by simp; omega),
    if_pos (decide_eq_true ⟨hlow, hhigh⟩), if_pos hsecond, if_pos (isTail_ofNat hz),
    if_pos (isTail_ofNat hw), tailBits_ofNat hy, tailBits_ofNat hz, tailBits_ofNat hw,
    toNat_ofNat hx]

end

/-- No character is a surrogate, and none is above the greatest code point. -/
theorem toNat_bounds (c : Char) : c.toNat < 0xD800 ∨ 0xDFFF < c.toNat ∧ c.toNat < 0x110000 :=
  c.valid

/-- **A written character is read back**, and what is behind it is read as it would be alone. -/
theorem decode_utf8EncodeChar_append (c : Char) (r : List UInt8) :
    decode (String.utf8EncodeChar c ++ r) = some c :: decode r := by
  have hbounds := toNat_bounds c
  have hc : ∀ n, n = c.toNat → Char.ofNat n = c := by
    rintro _ rfl
    exact Char.ofNat_toNat c
  have hval : c.val.toNat = c.toNat := rfl
  unfold String.utf8EncodeChar
  simp only [hval]
  generalize hn : c.toNat = n at hbounds hc
  -- one case for each number of bytes; the bounds on the code point are those on the second byte
  split
  · refine (decode_one (by omega) r).trans ?_
    rw [hc n rfl]
  · split
    · refine (decode_two (by omega) (by omega) (by omega) r).trans ?_
      rw [hc _ (by omega)]
    · split
      · refine (decode_three (by omega) (by omega) (by omega) (by omega) (by omega) (by omega)
          r).trans ?_
        rw [hc _ (by omega)]
      · refine (decode_four (by omega) (by omega) (by omega) (by omega) (by omega) (by omega)
          (by omega) r).trans ?_
        rw [hc _ (by omega)]

theorem decode_encode_append (s : List Char) (r : List UInt8) :
    decode (encode s ++ r) = s.map some ++ decode r := by
  induction s with
  | nil => rfl
  | cons c s ih =>
    rw [encode_cons, List.append_assoc, decode_utf8EncodeChar_append, ih]
    rfl

/-- **Reading undoes writing**: a character everywhere. -/
theorem decode_encode (s : List Char) : decode (encode s) = s.map some := by
  have := decode_encode_append s []
  simpa [decode] using this

theorem read?_encode (s : List Char) : read? (encode s) = some s := by
  rw [read?, decode_encode]
  induction s with
  | nil => rfl
  | cons c s ih =>
    rw [List.map_cons, List.mapM_cons, ih]
    rfl

end ContentSearch.Text.Utf8
