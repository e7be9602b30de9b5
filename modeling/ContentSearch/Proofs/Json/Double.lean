import ContentSearch.Json.Printer
import ContentSearch.Proofs.Binary64.Shortest
import ContentSearch.Proofs.Json.Numeral

/-!
# Doubles as numerals

Wherever the point of a decimal goes, what is written is a numeral: the layout only shares the
digits out between the whole part and the fraction, with zeros where they do not reach
(**`DoubleLayout.text_numeral`**). There is a digit to begin with and it is no zero, because the
decimal of a positive double is positive; so no layout puts a zero in front of other digits
(**`DoubleLayout.wellFormed_numeral`**). Zero itself has a numeral of its own.

That the double which is read back is the one that was written is not said here, and it need not be
so: reading a numeral takes three roundings.
-/

set_option autoImplicit false

namespace ContentSearch.Json

open Text

/-! ## Layouts -/

/-- The numeral that a layout makes of a decimal. -/
def DoubleLayout.numeral (layout : DoubleLayout) (d : Binary64.Decimal) : Numeral :=
  let ds := Decimal.write d.digits
  let point : Int := ds.length + d.exponent
  if 0 ≤ d.exponent ∧ point ≤ layout.most then
    ⟨false, ds ++ List.replicate d.exponent.toNat '0', ['0'], none⟩
  else if 0 < point ∧ point ≤ layout.most then
    ⟨false, ds.take point.toNat, ds.drop point.toNat, none⟩
  else if layout.least < point ∧ point ≤ 0 then
    ⟨false, ['0'], List.replicate (-point).toNat '0' ++ ds, none⟩
  else
    ⟨false, ds.take 1, ds.drop 1, some (decide (point - 1 < 0), Decimal.write (point - 1).natAbs)⟩

theorem exponentText_writeInt (n : Int) :
    Numeral.exponentText (some (decide (n < 0), Decimal.write n.natAbs))
      = 'e' :: Decimal.writeInt n := by
  unfold Decimal.writeInt
  by_cases hneg : n < 0
  · rw [if_pos hneg, decide_eq_true hneg]
    rfl
  · rw [if_neg hneg, decide_eq_false hneg]
    rfl

theorem fractionText_of_ne_nil {s : List Char} (h : s ≠ []) :
    Numeral.fractionText s = '.' :: s := if_neg h

/-- **A layout writes its numeral.** -/
theorem DoubleLayout.text_numeral (layout : DoubleLayout) (d : Binary64.Decimal) :
    (layout.numeral d).text = layout.write d := by
  have hne := Decimal.write_ne_nil d.digits
  unfold numeral DoubleLayout.write
  dsimp only
  generalize Decimal.write d.digits = ds at hne
  split
  · show ds ++ List.replicate d.exponent.toNat '0' ++ ['.', '0'] = _
    rfl
  · rename_i hlong
    split
    · rename_i hpoint
      -- the digits reach beyond the point, or the layout above would have been taken
      have hdrop : ds.drop (ds.length + d.exponent).toNat ≠ [] := by
        intro hnil
        have hle := List.drop_eq_nil_iff.mp hnil
        omega
      show ds.take _ ++ (Numeral.fractionText (ds.drop _) ++ []) = _
      rw [fractionText_of_ne_nil hdrop, List.append_nil]
    · split
      · show '0' :: (Numeral.fractionText (List.replicate _ '0' ++ ds) ++ []) = _
        rw [fractionText_of_ne_nil (by simp [hne]), List.append_nil]
      · show ds.take 1 ++ (Numeral.fractionText (ds.drop 1) ++ Numeral.exponentText _) = _
        rw [exponentText_writeInt]
        cases ds with
        | nil => exact absurd rfl hne
        | cons c r =>
          cases r with
          | nil => rfl
          | cons b r => rfl

theorem isDigit_of_mem_zeros {n : Nat} {c : Char} (h : c ∈ List.replicate n '0') : c.isDigit := by
  rw [List.eq_of_mem_replicate h]
  decide

/-- **The numeral of a positive decimal is well formed**, whatever the layout. -/
theorem DoubleLayout.wellFormed_numeral (layout : DoubleLayout) {d : Binary64.Decimal}
    (h : 0 < d.digits) : (layout.numeral d).WellFormed := by
  have hdigits : ∀ c ∈ Decimal.write d.digits, c.isDigit :=
    fun _ hc => Decimal.isDigit_of_mem_write hc
  have hne := Decimal.write_ne_nil d.digits
  have hlead := Decimal.write_ne_zero_cons h
  unfold numeral
  dsimp only
  generalize Decimal.write d.digits = ds at hdigits hne hlead
  cases ds with
  | nil => exact absurd rfl hne
  | cons c r =>
    -- the first digit leads whatever whole part it is in, and it is no zero
    have hfirst : ∀ s t, c :: s = '0' :: t → t = [] := by
      intro s t hcons
      rw [(List.cons.inj hcons).1] at hlead
      exact absurd rfl (hlead r)
    split
    · refine .ofParts (by simp) ?_ (hfirst _) fun b hb => isDigit_of_mem_zeros (n := 1) hb
      intro b hb
      rcases List.mem_append.mp hb with hb | hb
      · exact hdigits b hb
      · exact isDigit_of_mem_zeros hb
    · split
      · rename_i hpoint
        obtain ⟨n, hn⟩ : ∃ n, ((c :: r).length + d.exponent).toNat = n + 1 :=
          ⟨((c :: r).length + d.exponent).toNat - 1, by omega⟩
        rw [hn]
        exact .ofParts (by simp) (fun b hb => hdigits b (List.mem_of_mem_take hb)) (hfirst _)
          fun b hb => hdigits b (List.mem_of_mem_drop hb)
      · split
        · refine .ofParts (by simp) (fun b hb => isDigit_of_mem_zeros (n := 1) hb)
            (fun t ht => (List.cons.inj ht).2.symm) ?_
          intro b hb
          rcases List.mem_append.mp hb with hb | hb
          · exact isDigit_of_mem_zeros hb
          · exact hdigits b hb
        · refine ⟨by simp, fun b hb => hdigits b (List.mem_of_mem_take hb), hfirst _,
            fun b hb => hdigits b (List.mem_of_mem_drop hb), ?_, ?_⟩
          · rintro e ⟨⟩
            exact Decimal.write_ne_nil _
          · rintro e ⟨⟩ b hb
            exact Decimal.isDigit_of_mem_write hb

/-! ## Doubles -/

namespace Numeral

def ofDouble (x : Binary64) : Numeral :=
  { (if x.units = 0 then ⟨false, ['0'], ['0'], none⟩
      else DoubleLayout.json.numeral (Binary64.shortest x.units)) with negative := x.negative }

theorem wellFormed_ofDouble (x : Binary64) : (ofDouble x).WellFormed := by
  unfold ofDouble
  split
  · exact .ofParts (by simp) (fun b hb => isDigit_of_mem_zeros (n := 1) hb)
      (fun t ht => (List.cons.inj ht).2.symm) fun b hb => isDigit_of_mem_zeros (n := 1) hb
  · rename_i hunits
    have hpos := Binary64.shortest_digits_pos (Nat.pos_of_ne_zero hunits)
    generalize Binary64.shortest x.units = d at hpos
    have h := DoubleLayout.json.wellFormed_numeral hpos
    exact ⟨h.whole_ne_nil, h.whole_digits, h.whole_lead, h.fraction_digits, h.exponent_ne_nil,
      h.exponent_digits⟩

theorem text_ofDouble (x : Binary64) : (ofDouble x).text = writeDouble x := by
  have hsign : ∀ (y : Numeral) (negative : Bool), y.negative = false →
      ({ y with negative } : Numeral).text = if negative then '-' :: y.text else y.text := by
    intro y negative hy
    unfold text
    rw [hy]
    cases negative <;> rfl
  have hplain : ∀ (layout : DoubleLayout) (d : Binary64.Decimal),
      (layout.numeral d).negative = false := by
    intro layout d
    unfold DoubleLayout.numeral
    dsimp only
    split
    · rfl
    · split
      · rfl
      · split <;> rfl
  unfold ofDouble writeDouble
  split
  · exact hsign _ _ rfl
  · rw [hsign _ _ (hplain _ _), DoubleLayout.text_numeral]

end Numeral
end ContentSearch.Json
