import ContentSearch.Proofs.Filter.Bound
import ContentSearch.Proofs.Filter.Plain
import ContentSearch.Text.Pieces

/-!
# The clause of a range

A range may be given with one end only, and its clause has two: what is missing is filled in. The
high end that is filled in is the greatest number that an end can be, so it is above every low end.
The low end that is filled in is zero, and there are numbers below zero that an end can be. So the
clause of a range is empty in two cases, and in no others: where it was given with its ends in the
wrong order, and where it was given with a negative high end alone. `EndsInOrder` excludes both, and
**`Field.range_clauseLaw`** says that nothing else has to be excluded and that the clause then holds
what was given.

The text of a clause has one reading (**`Field.rangeText_injective`**), so its ends are the ends of
the clause and not of some spelling of it.

An end that is no whole number within the limit counts as not given, wherever it stands, and the
other end is then alone.
-/

set_option autoImplicit false

namespace ContentSearch

open Text

/-! ## The ends that are given -/

namespace Json.Value

/-- **An end that a value gives under a name**: a whole number within the limit on either side. -/
def GivesEnd (v : Value) (name : String) (n : Int) : Prop :=
  ∃ x : Number, v.get? name = some (.number x) ∧ x.value = n ∧ |n| ≤ 9007199254740991

/-- The ends that are given leave room between what is filled in: the low one is not above the high
one, and a high end without a low one is not negative. -/
structure EndsInOrder (v : Value) : Prop where
  both : ∀ m n, v.GivesEnd "from" m → v.GivesEnd "to" n → m ≤ n
  open_low : (∀ m, ¬ v.GivesEnd "from" m) → ∀ n, v.GivesEnd "to" n → 0 ≤ n

/-- The ends of a clause: those that were given, and what is filled in for one that was not. -/
structure FillsIn (v : Value) (lo hi : Int) : Prop where
  low : ∀ m, v.GivesEnd "from" m → lo = m
  open_low : (∀ m, ¬ v.GivesEnd "from" m) → lo = 0
  high : ∀ n, v.GivesEnd "to" n → hi = n
  open_high : (∀ n, ¬ v.GivesEnd "to" n) → hi = 9007199254740991

theorem givesEnd_iff {v : Value} {name : String} {n : Int} :
    v.GivesEnd name n ↔ (v.get? name).bind Criterion.bound? = some n := by
  rw [Option.bind_eq_some_iff]
  constructor
  · rintro ⟨x, hx, hvalue⟩
    exact ⟨.number x, hx, Criterion.bound?_number_iff.mpr hvalue⟩
  · rintro ⟨w, hw, hn⟩
    cases w with
    | number x => exact ⟨x, hw, Criterion.bound?_number_iff.mp hn⟩
    | _ => cases hn

theorem GivesEnd.abs_le {v : Value} {name : String} {n : Int} (h : v.GivesEnd name n) :
    |n| ≤ 9007199254740991 := by
  obtain ⟨x, -, -, hle⟩ := h
  exact hle

end Json.Value

/-- The ends of a range that was read are those that were given. -/
theorem Criterion.ends_of_ofJson? {v : Json.Value} {r : Interval}
    (h : ofJson? v = some (.range r)) :
    r.low? = (v.get? "from").bind bound? ∧ r.high? = (v.get? "to").bind bound? := by
  cases v with
  | object members =>
    change ofMembers? members = some (.range r) at h
    unfold ofMembers? at h
    split at h
    · split at h <;> cases h
    · dsimp only at h
      split at h
      · cases h
        exact ⟨rfl, rfl⟩
      · cases h
  | null => cases h
  | bool b => cases h
  | number x => cases h
  | string s => cases h
  | array items => cases h

namespace Interval

/-- No end of the range is beyond what an end can be. -/
structure Bounded (r : Interval) : Prop where
  low : ∀ n, r.low? = some n → |n| ≤ openUpperBound
  high : ∀ n, r.high? = some n → |n| ≤ openUpperBound

variable {r : Interval}

theorem abs_low_le (h : r.Bounded) : |r.low| ≤ openUpperBound := by
  unfold low
  cases hlow : r.low? with
  | none => decide
  | some n => exact h.low n hlow

theorem abs_high_le (h : r.Bounded) : |r.high| ≤ openUpperBound := by
  unfold high
  cases hhigh : r.high? with
  | none => decide
  | some n => exact h.high n hhigh

/-- Where the ends of a bounded range are in order: a missing high end is never the reason why they
are not. -/
theorem low_le_high_iff (h : r.Bounded) :
    r.low ≤ r.high ↔
      (∀ m n, r.low? = some m → r.high? = some n → m ≤ n) ∧
        (r.low? = none → ∀ n, r.high? = some n → 0 ≤ n) := by
  obtain ⟨low?, high?⟩ := r
  cases low? with
  | none => cases high? <;> simp [low, high, openUpperBound]
  | some m =>
    cases high? with
    -- the only place where it matters that the low end is bounded
    | none => simpa [low, high] using (abs_le.mp (h.low m rfl)).2
    | some n => simp [low, high]

end Interval

/-- A range that was read is bounded. -/
theorem Criterion.bounded_of_ofJson? {v : Json.Value} {r : Interval}
    (h : ofJson? v = some (.range r)) : r.Bounded := by
  obtain ⟨hlow, hhigh⟩ := ends_of_ofJson? h
  constructor
  · intro n hn
    exact (Json.Value.givesEnd_iff.mpr (hlow ▸ hn)).abs_le
  · intro n hn
    exact (Json.Value.givesEnd_iff.mpr (hhigh ▸ hn)).abs_le

/-! ## The text -/

namespace Field

/-- The clause from one number to another. -/
def rangeText (f : Field) (lo hi : Int) : String :=
  "(" ++ f.name ++ ": [" ++ toString lo ++ " TO " ++ toString hi ++ "])"

theorem not_blank_of_mem_writeInt {n : Int} {c : Char} (h : c ∈ Decimal.writeInt n) : c ≠ ' ' := by
  have hbare := bare_writeInt n c
  rw [String.toList_ofList] at hbare
  exact (hbare h).1

theorem toList_rangeText (f : Field) (lo hi : Int) :
    (f.rangeText lo hi).toList
      = ("(" ++ f.name ++ ": [").toList ++ (Decimal.writeInt lo
          ++ ' ' :: ("TO".toList ++ ' ' :: (Decimal.writeInt hi ++ "])".toList))) := by
  unfold rangeText
  rw [← Decimal.ofList_writeInt, ← Decimal.ofList_writeInt]
  simp

/-- **A clause has one low end and one high end.** -/
theorem rangeText_injective {f : Field} {lo hi lo' hi' : Int}
    (h : f.rangeText lo hi = f.rangeText lo' hi') : lo = lo' ∧ hi = hi' := by
  have hpieces (a b : Int) : pieces (· = ' ') (Decimal.writeInt a
      ++ ' ' :: ("TO".toList ++ ' ' :: (Decimal.writeInt b ++ "])".toList)))
        = [Decimal.writeInt a, "TO".toList, Decimal.writeInt b ++ "])".toList] := by
    have hfirst : ∀ c ∈ Decimal.writeInt a, decide (c = ' ') = false :=
      fun c hc => decide_eq_false (not_blank_of_mem_writeInt hc)
    have hclose : ∀ c ∈ "])".toList, decide (c = ' ') = false := by decide
    have hlast : ∀ c ∈ Decimal.writeInt b ++ "])".toList, decide (c = ' ') = false := by
      intro c hc
      rcases List.mem_append.mp hc with hc | hc
      · exact decide_eq_false (not_blank_of_mem_writeInt hc)
      · exact hclose c hc
    rw [pieces_append_cons _ hfirst rfl, pieces_append_cons _ (by decide) rfl,
      pieces_eq_singleton hlast]
  -- behind the name, no blank stands but the two around `TO`, so the ends are pieces of the text
  have htext := congrArg String.toList h
  rw [toList_rangeText, toList_rangeText, List.append_cancel_left_eq] at htext
  have hcut := congrArg (pieces (· = ' ')) htext
  rw [hpieces, hpieces] at hcut
  injection hcut with hlow hrest
  injection hrest with _ hrest
  injection hrest with hhigh _
  exact ⟨Decimal.writeInt_injective hlow,
    Decimal.writeInt_injective (List.append_cancel_right hhigh)⟩

theorem kind_of_name {f : Field} (hf : f ∈ all) (hname : f.name = "created" ∨ f.name = "modified") :
    f.kind = .range := by
  revert f
  decide

theorem clause?_range {f : Field} (hk : f.kind = .range) {r : Interval}
    (h : r.isUnbounded = false) :
    f.clause? (.range r) = some (f.rangeText r.low r.high) := by
  have hempty : ¬ (Criterion.range r).isEmpty = true := by
    show ¬ r.isUnbounded = true
    rw [h]
    exact Bool.false_ne_true
  unfold clause? expression?
  rw [if_neg hempty]
  dsimp only
  rw [if_pos hk, Option.map_some, rangeText, Decimal.ofList_writeInt, Decimal.ofList_writeInt]
  have hclose : ("]" ++ ")" : String) = "])" := rfl
  simp only [String.append_assoc, hclose]

/-! ## The law -/

/-- **What is filled in empties no range, but one that was given a negative high end alone.** The
clause of a range that was given an end goes from one number within the limit to another: from the
low end or from zero, to the high end or to the limit. The first is not above the second exactly if
the ends were given in order, and then every end that was given lies between the two. So a negative
high end alone makes a clause that goes from zero to that end, and is empty. -/
theorem range_clauseLaw {v : Json.Value} {r : Interval}
    (hv : Criterion.ofJson? v = some (.range r))
    (hgiven : ∃ n, v.GivesEnd "from" n ∨ v.GivesEnd "to" n)
    {f : Field} (hf : f ∈ all) (hname : f.name = "created" ∨ f.name = "modified") :
    ∃ lo hi : Int, (Criterion.ofJson? v).bind f.clause? = some (f.rangeText lo hi) ∧
      |lo| ≤ 9007199254740991 ∧ |hi| ≤ 9007199254740991 ∧ v.FillsIn lo hi ∧
      (lo ≤ hi ↔ v.EndsInOrder) ∧
      (v.EndsInOrder → ∀ n, v.GivesEnd "from" n ∨ v.GivesEnd "to" n → lo ≤ n ∧ n ≤ hi) := by
  -- What was given in the JSON is what the ends of the range are, and everything else is said of
  -- these.
  obtain ⟨hlow, hhigh⟩ := Criterion.ends_of_ofJson? hv
  have hfrom (n : Int) : v.GivesEnd "from" n ↔ r.low? = some n := by
    rw [Json.Value.givesEnd_iff, hlow]
  have hto (n : Int) : v.GivesEnd "to" n ↔ r.high? = some n := by
    rw [Json.Value.givesEnd_iff, hhigh]
  have hbounded := Criterion.bounded_of_ofJson? hv
  have hends : r.isUnbounded = false := by
    obtain ⟨n, hn | hn⟩ := hgiven
    · simp [Interval.isUnbounded, (hfrom n).mp hn]
    · simp [Interval.isUnbounded, (hto n).mp hn]
  have horder : r.low ≤ r.high ↔ v.EndsInOrder := by
    rw [Interval.low_le_high_iff hbounded]
    simp only [← hfrom, ← hto, Option.eq_none_iff_forall_ne_some, ne_eq]
    exact ⟨fun h => ⟨h.1, h.2⟩, fun h => ⟨h.both, h.open_low⟩⟩
  have hfilled : v.FillsIn r.low r.high := by
    refine ⟨fun m hm => ?_, fun hopen => ?_, fun n hn => ?_, fun hopen => ?_⟩
    · rw [Interval.low, (hfrom m).mp hm, Option.getD_some]
    · have hnone : r.low? = none :=
        Option.eq_none_iff_forall_ne_some.mpr fun m hm => hopen m ((hfrom m).mpr hm)
      rw [Interval.low, hnone, Option.getD_none]
    · rw [Interval.high, (hto n).mp hn, Option.getD_some]
    · have hnone : r.high? = none :=
        Option.eq_none_iff_forall_ne_some.mpr fun n hn => hopen n ((hto n).mpr hn)
      rw [Interval.high, hnone, Option.getD_none, Interval.openUpperBound]
  -- the ends of the clause are those of the range, each with its default
  refine ⟨r.low, r.high, ?_, Interval.abs_low_le hbounded, Interval.abs_high_le hbounded, hfilled,
    horder, ?_⟩
  · rw [hv, Option.bind_some]
    exact clause?_range (kind_of_name hf hname) hends
  · intro hinorder n hn
    have hle := horder.mpr hinorder
    rcases hn with hn | hn
    · have heq := hfilled.low n hn
      exact ⟨heq.le, heq ▸ hle⟩
    · have heq := hfilled.high n hn
      exact ⟨heq ▸ hle, heq.ge⟩

/-- Everything from five below zero. -/
theorem range_clauseLaw_sample :
    let v : Json.Value := .object [("from", .number (.integer (-5)))]
    let f : Field := ⟨"modified", .range⟩
    v.EndsInOrder ∧ ∃ lo hi : Int,
      (Criterion.ofJson? v).bind f.clause? = some (f.rangeText lo hi) ∧ lo = -5 ∧ -5 ≤ hi := by
  intro v f
  have hfrom : v.GivesEnd "from" (-5) := ⟨.integer (-5), rfl, rfl, by decide⟩
  have horder : v.EndsInOrder := by
    constructor
    · rintro m n - ⟨x, hx, -⟩
      cases hx
    · intro hopen
      exact absurd hfrom (hopen (-5))
  obtain ⟨lo, hi, hclause, -, -, hfilled, -, hbetween⟩ :=
    range_clauseLaw (v := v) (r := ⟨some (-5), none⟩) rfl ⟨-5, .inl hfrom⟩ (f := f) (by decide)
      (.inr rfl)
  exact ⟨horder, lo, hi, hclause, hfilled.low (-5) hfrom, (hbetween horder (-5) (.inl hfrom)).2⟩

/-- Everything up to one below zero starts at zero, and so there is nothing in it. -/
theorem open_low_end_empties :
    let v : Json.Value := .object [("to", .number (.integer (-1)))]
    let f : Field := ⟨"created", .range⟩
    f ∈ all ∧ Criterion.ofJson? v = some (.range ⟨none, some (-1)⟩) ∧ v.GivesEnd "to" (-1) ∧
      (∀ m, ¬ v.GivesEnd "from" m) ∧
      (Criterion.ofJson? v).bind f.clause? = some "(created: [0 TO -1])" ∧
      ¬ ∃ lo hi : Int, (Criterion.ofJson? v).bind f.clause? = some (f.rangeText lo hi) ∧
          lo ≤ hi ∧ lo ≤ -1 ∧ -1 ≤ hi := by
  intro v f
  have hclause : (Criterion.ofJson? v).bind f.clause? = some (f.rangeText 0 (-1)) :=
    clause?_range (r := ⟨none, some (-1)⟩) rfl rfl
  refine ⟨by decide, rfl, ⟨.integer (-1), rfl, rfl, by decide⟩, ?_, ?_, ?_⟩
  · rintro m ⟨x, hx, -⟩
    cases hx
  · rw [hclause]
    decide
  · rintro ⟨lo, hi, htext, hle, -⟩
    obtain ⟨rfl, rfl⟩ := rangeText_injective (Option.some.inj (hclause.symm.trans htext))
    exact absurd hle (by decide)

end Field
end ContentSearch
