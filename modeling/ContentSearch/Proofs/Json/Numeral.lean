import ContentSearch.Json.Numeral
import ContentSearch.Proofs.Text.Decimal

/-!
# Numerals as text

A numeral is written as its parts one after the other, and a part ends where something stands that
is no digit. So a well-formed numeral is read back as its parts (**`ofChars?_spelled`**), in
whichever of the ways its exponent is spelled.

A written integer is such a text: it has a sign where it is negative, no zero in front of other
digits, and neither fraction nor exponent (**`text_ofInt`**). As long as it fits 64 bits, with a
sign or without, its numeral stands for the integer that was written (**`toNumber?_ofInt`**).

The parts are read from the left, each by the longest run of characters it can hold, and so every
lemma on a part has a rest that must not go on with it (`digits_append`).
-/

set_option autoImplicit false

namespace ContentSearch.Json.Numeral

open Text.Decimal

/-! ## Parts -/

def fractionText (fraction : List Char) : List Char :=
  if fraction = [] then [] else '.' :: fraction

def exponentText : Option (Bool × List Char) → List Char
  | none => []
  | some (true, ds) => 'e' :: '-' :: ds
  | some (false, ds) => 'e' :: ds

/-- The spellings of an exponent: `e` in either case, and a sign that may be missing if it is a
plus. -/
inductive ExponentText : Option (Bool × List Char) → List Char → Prop
  | none : ExponentText none []
  | unsigned {e : Char} {ds : List Char} (he : e = 'e' ∨ e = 'E') :
      ExponentText (some (false, ds)) (e :: ds)
  | plus {e : Char} {ds : List Char} (he : e = 'e' ∨ e = 'E') :
      ExponentText (some (false, ds)) (e :: '+' :: ds)
  | minus {e : Char} {ds : List Char} (he : e = 'e' ∨ e = 'E') :
      ExponentText (some (true, ds)) (e :: '-' :: ds)

theorem exponentText_spells (exponent : Option (Bool × List Char)) :
    ExponentText exponent (exponentText exponent) := by
  match exponent with
  | none => exact .none
  | some (true, _) => exact .minus (.inl rfl)
  | some (false, _) => exact .unsigned (.inl rfl)

/-- The spellings of a numeral, which differ in how they write its exponent. -/
def Spelled (x : Numeral) (t : List Char) : Prop :=
  ∃ u, ExponentText x.exponent u ∧
    t = (if x.negative then ['-'] else []) ++ (x.whole ++ (fractionText x.fraction ++ u))

def text (x : Numeral) : List Char :=
  (if x.negative then ['-'] else []) ++ (x.whole ++ (fractionText x.fraction
    ++ exponentText x.exponent))

theorem spelled_text (x : Numeral) : x.Spelled x.text :=
  ⟨_, exponentText_spells x.exponent, rfl⟩

/-- Digits where digits belong, at least one in the whole part and in an exponent, and no zero in
front of others. -/
structure WellFormed (x : Numeral) : Prop where
  whole_ne_nil : x.whole ≠ []
  whole_digits : ∀ c ∈ x.whole, c.isDigit
  whole_lead : ∀ r, x.whole = '0' :: r → r = []
  fraction_digits : ∀ c ∈ x.fraction, c.isDigit
  exponent_ne_nil : ∀ e ∈ x.exponent, e.2 ≠ []
  exponent_digits : ∀ e ∈ x.exponent, ∀ c ∈ e.2, c.isDigit

theorem WellFormed.ofParts {negative : Bool} {whole fraction : List Char} (hne : whole ≠ [])
    (hwhole : ∀ c ∈ whole, c.isDigit) (hlead : ∀ r, whole = '0' :: r → r = [])
    (hfraction : ∀ c ∈ fraction, c.isDigit) :
    WellFormed ⟨negative, whole, fraction, none⟩ where
  whole_ne_nil := hne
  whole_digits := hwhole
  whole_lead := hlead
  fraction_digits := hfraction
  exponent_ne_nil := fun _ he => absurd he (Option.not_mem_none _)
  exponent_digits := fun _ he => absurd he (Option.not_mem_none _)

section
variable {s r : List Char}

/-- Digits are read up to where no digit stands. -/
theorem digits_append (hs : ∀ c ∈ s, c.isDigit) (hr : r.takeWhile Char.isDigit = []) :
    digits (s ++ r) = (s, r) := by
  have hrest : r.dropWhile Char.isDigit = r := by
    have hsplit := List.takeWhile_append_dropWhile (p := Char.isDigit) (l := r)
    rwa [hr, List.nil_append] at hsplit
  rw [digits, List.takeWhile_append_of_pos hs, List.dropWhile_append_of_pos hs, hr, hrest,
    List.append_nil]

theorem wholePart?_append (hne : s ≠ []) (hs : ∀ c ∈ s, c.isDigit)
    (hlead : ∀ t, s = '0' :: t → t = []) (hr : r.takeWhile Char.isDigit = []) :
    wholePart? (s ++ r) = some (s, r) := by
  unfold wholePart?
  rw [digits_append hs hr]
  split
  · rename_i hnil
    exact absurd (Prod.mk.inj hnil).1 hne
  · rename_i hzero
    rw [(Prod.mk.inj hzero).1, (Prod.mk.inj hzero).2]
  · rename_i hmore hzeros
    exact absurd (hlead _ (Prod.mk.inj hzeros).1) hmore
  · rename_i hpair
    rw [(Prod.mk.inj hpair).1, (Prod.mk.inj hpair).2]

theorem exponentDigits?_eq (hne : s ≠ []) (hs : ∀ c ∈ s, c.isDigit) (negative : Bool) :
    exponentDigits? negative s = some (some (negative, s)) := by
  have hdigits : digits s = (s, []) := by
    have happend := digits_append (r := []) hs rfl
    rwa [List.append_nil] at happend
  unfold exponentDigits?
  rw [hdigits]
  cases s with
  | nil => exact absurd rfl hne
  | cons c t => rfl

end

section
variable {exponent : Option (Bool × List Char)} {u : List Char}

/-- An exponent starts with no digit and with no point. -/
theorem ExponentText.takeWhile (h : ExponentText exponent u) : u.takeWhile Char.isDigit = [] := by
  cases h with
  | none => rfl
  | unsigned he => rcases he with rfl | rfl <;> rfl
  | plus he => rcases he with rfl | rfl <;> rfl
  | minus he => rcases he with rfl | rfl <;> rfl

theorem ExponentText.takeWhile_fraction (h : ExponentText exponent u) (fraction : List Char) :
    (fractionText fraction ++ u).takeWhile Char.isDigit = [] := by
  unfold fractionText
  split
  · exact h.takeWhile
  · rfl

theorem ExponentText.fractionPart?_append (h : ExponentText exponent u) {fraction : List Char}
    (hs : ∀ c ∈ fraction, c.isDigit) :
    fractionPart? (fractionText fraction ++ u) = some (fraction, u) := by
  unfold fractionText
  split
  · rename_i hnil
    subst hnil
    cases h with
    | none => rfl
    | unsigned he => rcases he with rfl | rfl <;> rfl
    | plus he => rcases he with rfl | rfl <;> rfl
    | minus he => rcases he with rfl | rfl <;> rfl
  · rename_i hne
    rw [List.cons_append, fractionPart?, digits_append hs h.takeWhile]
    cases fraction with
    | nil => exact absurd rfl hne
    | cons c t => rfl

theorem ExponentText.exponentPart?_eq (h : ExponentText exponent u) (hne : ∀ e ∈ exponent, e.2 ≠ [])
    (hs : ∀ e ∈ exponent, ∀ c ∈ e.2, c.isDigit) : exponentPart? u = some exponent := by
  cases h with
  | none => rfl
  | @unsigned e ds he =>
    have hdigits := exponentDigits?_eq (hne _ rfl) (hs _ rfl) false
    cases ds with
    | nil => exact absurd rfl (hne _ rfl)
    | cons c t =>
      -- what starts with a digit does not start with a sign
      have hc : c.isDigit := hs _ rfl c List.mem_cons_self
      have hplus : c ≠ '+' := by rintro rfl; exact absurd hc (by decide)
      have hminus : c ≠ '-' := by rintro rfl; exact absurd hc (by decide)
      rw [exponentPart?, if_pos he]
      · exact hdigits
      · exact fun _ hcons => hplus (List.cons.inj hcons).1
      · exact fun _ hcons => hminus (List.cons.inj hcons).1
  | plus he =>
    rw [exponentPart?, if_pos he]
    exact exponentDigits?_eq (hne _ rfl) (hs _ rfl) false
  | minus he =>
    rw [exponentPart?, if_pos he]
    exact exponentDigits?_eq (hne _ rfl) (hs _ rfl) true

end

/-! ## Numerals -/

/-- **A spelling is read as its numeral.** -/
theorem ofChars?_spelled {x : Numeral} (h : x.WellFormed) {t : List Char} (ht : x.Spelled t) :
    ofChars? t = some x := by
  obtain ⟨negative, whole, fraction, exponent⟩ := x
  obtain ⟨u, hu, rfl⟩ := ht
  have hparts : ofUnsigned? negative (whole ++ (fractionText fraction ++ u))
      = some ⟨negative, whole, fraction, exponent⟩ := by
    unfold ofUnsigned?
    rw [wholePart?_append h.whole_ne_nil h.whole_digits h.whole_lead
      (hu.takeWhile_fraction fraction)]
    show (fractionPart? _).bind _ = _
    rw [hu.fractionPart?_append h.fraction_digits]
    show (exponentPart? _).bind _ = _
    rw [hu.exponentPart?_eq h.exponent_ne_nil h.exponent_digits]
    rfl
  -- Without a sign the first character must not be taken for one, and it is a digit.
  cases negative with
  | true => exact hparts
  | false =>
    cases whole with
    | nil => exact absurd rfl h.whole_ne_nil
    | cons c t =>
      have hc : c.isDigit := h.whole_digits c List.mem_cons_self
      have hminus : c ≠ '-' := by rintro rfl; exact absurd hc (by decide)
      show ofChars? (c :: (t ++ _)) = _
      rw [ofChars?]
      · exact hparts
      · exact fun _ hcons => hminus (List.cons.inj hcons).1

/-! ## Integers -/

def ofInt (n : Int) : Numeral := ⟨decide (n < 0), write n.natAbs, [], none⟩

theorem wellFormed_ofInt (n : Int) : (ofInt n).WellFormed := by
  refine .ofParts (write_ne_nil n.natAbs) (fun _ hc => isDigit_of_mem_write hc) ?_
    fun _ hc => absurd hc List.not_mem_nil
  intro r hr
  by_cases hzero : n.natAbs = 0
  · rw [hzero] at hr
    exact (List.cons.inj hr).2.symm
  · exact absurd hr (write_ne_zero_cons (Nat.pos_of_ne_zero hzero) r)

/-- **A written integer is the text of its numeral.** -/
theorem text_ofInt (n : Int) : (ofInt n).text = writeInt n := by
  have hparts : write n.natAbs ++ (fractionText [] ++ exponentText none) = write n.natAbs :=
    List.append_nil _
  unfold text ofInt writeInt
  dsimp only
  rw [hparts]
  by_cases hneg : n < 0
  · rw [if_pos hneg, decide_eq_true hneg]
    rfl
  · rw [if_neg hneg, decide_eq_false hneg]
    rfl

/-- **The numeral of an integer that fits stands for it.** -/
theorem toNumber?_ofInt {n : Int} (hlow : -Nat.pow 2 63 ≤ n) (hhigh : n < Nat.pow 2 64) :
    (ofInt n).toNumber? = some (.integer n) := by
  have hwhole : (ofInt n).isWhole = true := rfl
  unfold toNumber?
  rw [hwhole]
  simp only [ofInt, ofDigitChars_write, Bool.true_and]
  by_cases hneg : n < 0
  · have hfits : n.natAbs ≤ Nat.pow 2 63 := by omega
    have hpos : 0 < n.natAbs := by omega
    rw [if_neg (by simp [hneg]), if_pos (by simp [hneg, hpos, hfits])]
    congr 2
    omega
  · have hfits : n.natAbs < Nat.pow 2 64 := by omega
    rw [if_pos (by simp [hneg, hfits])]
    congr 2
    omega

end ContentSearch.Json.Numeral
