import ContentSearch.Filter.Criterion
import ContentSearch.Json.Numeral
import ContentSearch.Proofs.Binary64.Whole
import ContentSearch.Proofs.Json.Settled

/-!
# The ends of a range as numbers

A number of JSON is an integer or a double, and either has an exact value. An end of a range is read
exactly if that value is a whole number from `-(2 ^ 53 - 1)` to `2 ^ 53 - 1`, and what is read is
that number (**`Criterion.bound?_number_iff`**). How the number was written plays no part in it.

A machine that knows integers of 64 bits and doubles has two ways to get there: an integer with a
sign is taken as it is, and everything else becomes a double first, an integer of more than 63 bits
included. `Criterion.boundInSteps?` goes these ways. The second one rounds, but only numbers far
beyond the limit, and rounding does not bring them back; so both ways come to the same
(**`Criterion.bounds_exact`**).

The limit is checked against an absolute value, and the least integer of 64 bits has none. What a
machine makes of that one is left open: `IsAbs64` does not speak about it.
-/

set_option autoImplicit false

namespace ContentSearch

namespace Json.Number

/-- The number itself. -/
def value : Number → ℚ
  | .integer n => n
  | .double x => x.value

/-- An integer of 64 bits, with a sign or without, or a double. -/
def Fits : Number → Prop
  | .integer n => -2 ^ 63 ≤ n ∧ n < 2 ^ 64
  | .double _ => True

/-- The least integer of 64 bits. -/
def least : Number := .integer (-2 ^ 63)

/-- Every number that is read fits. -/
theorem fits_of_toNumber? {x : Numeral} {n : Number} (h : x.toNumber? = some n) : n.Fits := by
  cases n with
  | integer n => exact Numeral.bounds_of_toNumber? h
  | double y => exact True.intro

/-! ## The two ways of a machine -/

def asInt64? : Number → Option Int
  | .integer n => if -2 ^ 63 ≤ n ∧ n < 2 ^ 63 then some n else none
  | .double _ => none

def asDouble? : Number → Option Binary64
  | .integer n => Binary64.ofInt? n
  | .double x => some x

/-- The whole number that a number is: an integer of 64 bits and a sign as it is, and any other
number as a double within a limit. -/
def wholeInSteps? (limit : Int) (x : Number) : Option Int :=
  x.asInt64?.or ((Binary64.ofInt? limit).bind fun m => x.asDouble?.bind m.wholeWithin?)

theorem asInt64?_eq_some_iff {x : Number} {n : Int} :
    x.asInt64? = some n ↔ x = .integer n ∧ -2 ^ 63 ≤ n ∧ n < 2 ^ 63 := by
  cases x with
  | double y => exact iff_of_false nofun nofun
  | integer k =>
    show (if -2 ^ 63 ≤ k ∧ k < 2 ^ 63 then some k else none) = some n ↔ _
    by_cases hk : -2 ^ 63 ≤ k ∧ k < 2 ^ 63
    · rw [if_pos hk, Option.some_inj]
      constructor
      · rintro rfl
        exact ⟨rfl, hk⟩
      · rintro ⟨⟨⟩, -⟩
        rfl
    · rw [if_neg hk]
      refine iff_of_false nofun ?_
      rintro ⟨⟨⟩, h⟩
      exact hk h

/-- What either way finds. Only a double is compared with the limit. -/
theorem wholeInSteps?_eq_some_iff {limit : Int} (hlimit : limit.natAbs < 2 ^ 53) {x : Number}
    {n : Int} :
    x.wholeInSteps? limit = some n ↔
      x.asInt64? = some n ∨
        x.asInt64? = none ∧ ∃ y, x.asDouble? = some y ∧ y.value = n ∧ |n| ≤ limit := by
  obtain ⟨m, hm, hvalue⟩ := Binary64.value_ofInt? hlimit
  have hfits : limit < 2 ^ 63 := by omega
  simp only [wholeInSteps?, Option.or_eq_some_iff, hm, Option.bind_some, Option.bind_eq_some_iff,
    Binary64.wholeWithin?_eq_some_iff hvalue hfits]

end Json.Number

/-- An absolute value on integers of 64 bits, wherever there is one. -/
def IsAbs64 (abs : Int → Int) : Prop := ∀ n, -2 ^ 63 < n → n < 2 ^ 63 → abs n = |n|

namespace Criterion

open Json.Number (Fits least)

/-- Reading an end of a range in the steps of a machine. -/
def boundInSteps? (abs : Int → Int) : Json.Value → Option Int
  | .number x =>
    (x.wholeInSteps? Interval.openUpperBound).filter fun n => abs n ≤ Interval.openUpperBound
  | _ => none

/-! ## Without steps -/

theorem abs_le_iff_natAbs {n : Int} :
    |n| ≤ Interval.openUpperBound ↔ n.natAbs ≤ Interval.openUpperBound.natAbs := by
  rw [Int.abs_eq_natAbs]
  show (n.natAbs : Int) ≤ 9007199254740991 ↔ n.natAbs ≤ 9007199254740991
  omega

theorem ite_eq_some_iff {k n : Int} :
    (if k.natAbs ≤ Interval.openUpperBound.natAbs then some k else none) = some n ↔
      k = n ∧ |n| ≤ Interval.openUpperBound := by
  rw [abs_le_iff_natAbs]
  split
  · rename_i hle
    rw [Option.some_inj]
    constructor
    · rintro rfl
      exact ⟨rfl, hle⟩
    · exact And.left
  · rename_i hgreat
    refine iff_of_false nofun ?_
    rintro ⟨rfl, hle⟩
    exact hgreat hle

/-- **A number is read as the whole number that it is**, up to the limit. -/
theorem bound?_number_iff {x : Json.Number} {n : Int} :
    bound? (.number x) = some n ↔ x.value = n ∧ |n| ≤ Interval.openUpperBound := by
  cases x with
  | integer k =>
    show (if _ then _ else _) = some n ↔ (k : ℚ) = n ∧ _
    rw [ite_eq_some_iff, Int.cast_inj]
  | double y =>
    have hnone : none ≠ some n := (Option.some_ne_none n).symm
    show bound? (.number (.double y)) = some n ↔ y.value = n ∧ _
    rw [← Binary64.toInt?_eq_some_iff, bound?]
    cases y.toInt? with
    | none => exact iff_of_false hnone fun h => hnone h.1
    | some k =>
      dsimp only
      rw [ite_eq_some_iff, Option.some_inj]

/-- Nothing but a number is read. -/
theorem bound?_eq_none {v : Json.Value} (h : ∀ x, v ≠ .number x) : bound? v = none := by
  cases v with
  | number x => exact absurd rfl (h x)
  | null => rfl
  | bool b => rfl
  | string s => rfl
  | array items => rfl
  | object members => rfl

/-! ## In steps -/

/-- An integer that needs all of its 64 bits is far beyond the limit as a double, too: it keeps more
than half of its value. -/
theorem limit_lt_of_great {k n : Int} {y : Binary64} (hk : 2 ^ 63 ≤ k)
    (hy : Binary64.ofInt? k = some y) (hn : y.value = n) : Interval.openUpperBound < |n| := by
  have hhalf := Binary64.lt_two_mul_value (by omega) hy
  rw [hn] at hhalf
  have hlt : k < 2 * n := by exact_mod_cast hhalf
  rw [abs_of_pos (by omega)]
  show 9007199254740991 < n
  omega

/-- **In steps, too, a number is read as the whole number that it is.** -/
theorem boundInSteps?_number_iff {abs : Int → Int} (habs : IsAbs64 abs) {x : Json.Number}
    (hfits : x.Fits) (hleast : x ≠ least) {n : Int} :
    boundInSteps? abs (.number x) = some n ↔ x.value = n ∧ |n| ≤ Interval.openUpperBound := by
  unfold boundInSteps?
  rw [Option.filter_eq_some_iff, decide_eq_true_iff,
    Json.Number.wholeInSteps?_eq_some_iff (by decide), Json.Number.asInt64?_eq_some_iff]
  constructor
  · rintro ⟨⟨rfl, hlow, hhigh⟩ | ⟨hsigned, y, hy, hn, hle⟩, hmost⟩
    · have hne : n ≠ -2 ^ 63 := fun h => hleast (congrArg Json.Number.integer h)
      rw [habs n (by omega) hhigh] at hmost
      exact ⟨rfl, hmost⟩
    · cases x with
      | double z => exact ⟨Option.some.inj hy ▸ hn, hle⟩
      | integer k =>
        -- only an integer without room for a sign becomes a double here, and that one is too great
        have hgreat : 2 ^ 63 ≤ k := by
          by_contra hsmall
          rw [Json.Number.asInt64?_eq_some_iff.mpr ⟨rfl, hfits.1, Int.not_le.mp hsmall⟩] at hsigned
          cases hsigned
        exact absurd hle (Int.not_le.mpr (limit_lt_of_great hgreat hy hn))
  · rintro ⟨hvalue, hle⟩
    have hin : -9007199254740991 ≤ n ∧ n ≤ 9007199254740991 := abs_le.mp hle
    refine ⟨?_, by rwa [habs n (by omega) (by omega)]⟩
    cases x with
    | integer k =>
      obtain rfl : k = n := Int.cast_inj.mp hvalue
      exact .inl ⟨rfl, by omega, by omega⟩
    | double y => exact .inr ⟨rfl, y, rfl, hvalue, hle⟩

/-! ## Both -/

/-- **A reader that takes numbers for what they are**, the least integer of 64 bits aside. -/
structure ReadsExactly (read : Json.Value → Option Int) : Prop where
  /-- What is read is the number, if it is whole and within the limit; else nothing is. -/
  number : ∀ x : Json.Number, x.Fits → x ≠ least → ∀ n : Int,
    read (.number x) = some n ↔ x.value = n ∧ |n| ≤ 9007199254740991
  /-- An integer and a double of one value are read alike. -/
  spelling : ∀ x y : Json.Number, x.Fits → y.Fits → x ≠ least → y ≠ least → x.value = y.value →
    read (.number x) = read (.number y)
  /-- An integer that needs all of its 64 bits does not come back within the limit. -/
  great : ∀ n : Int, 2 ^ 63 ≤ n → n < 2 ^ 64 → read (.number (.integer n)) = none
  /-- What is no number is not read. -/
  other : ∀ v : Json.Value, (∀ x, v ≠ .number x) → read v = none

theorem ReadsExactly.of_number {read : Json.Value → Option Int}
    (hnumber : ∀ x : Json.Number, x.Fits → x ≠ least → ∀ n : Int,
      read (.number x) = some n ↔ x.value = n ∧ |n| ≤ 9007199254740991)
    (hother : ∀ v : Json.Value, (∀ x, v ≠ .number x) → read v = none) : ReadsExactly read := by
  refine ⟨hnumber, ?_, ?_, hother⟩
  · intro x y hx hy hxl hyl hvalue
    refine Option.ext fun n => ?_
    rw [hnumber x hx hxl, hnumber y hy hyl, hvalue]
  · intro n hlow hhigh
    have hfits : (Json.Number.integer n).Fits := ⟨by omega, hhigh⟩
    have hne : Json.Number.integer n ≠ least := fun h => by cases h; omega
    refine Option.eq_none_iff_forall_ne_some.mpr fun k hk => ?_
    obtain ⟨hvalue, hle⟩ := (hnumber _ hfits hne k).mp hk
    obtain rfl : n = k := Int.cast_inj.mp hvalue
    have hmost := (abs_le.mp hle).2
    omega

/-- **The ends of a range are read exactly**, and a machine that goes by way of 64-bit integers and
of doubles reads the same. Every number that stands in a text is one of those that are spoken of. -/
theorem bounds_exact :
    ReadsExactly bound? ∧ (∀ abs, IsAbs64 abs → ReadsExactly (boundInSteps? abs)) ∧
      (∀ abs, IsAbs64 abs → ∀ v, (∀ x, v = .number x → x.Fits ∧ x ≠ least) →
        boundInSteps? abs v = bound? v) ∧
      ∀ (numeral : Json.Numeral) (x : Json.Number), numeral.toNumber? = some x → x.Fits := by
  have hplain : ReadsExactly bound? :=
    .of_number (fun x _ _ n => bound?_number_iff) fun v hv => bound?_eq_none hv
  have hsteps : ∀ abs, IsAbs64 abs → ReadsExactly (boundInSteps? abs) := by
    intro abs habs
    refine .of_number (fun x hx hl n => boundInSteps?_number_iff habs hx hl) fun v hv => ?_
    cases v with
    | number x => exact absurd rfl (hv x)
    | _ => rfl
  refine ⟨hplain, hsteps, ?_, fun numeral x h => Json.Number.fits_of_toNumber? h⟩
  intro abs habs v hv
  by_cases hnumber : ∃ x, v = .number x
  · obtain ⟨x, rfl⟩ := hnumber
    obtain ⟨hx, hl⟩ := hv x rfl
    refine Option.ext fun n => ?_
    rw [(hsteps abs habs).number x hx hl, hplain.number x hx hl]
  · have hnone : ∀ x, v ≠ .number x := fun x hx => hnumber ⟨x, hx⟩
    rw [(hsteps abs habs).other v hnone, hplain.other v hnone]

/-- On a machine on which the absolute value of the least integer is that integer: the greatest
integer of 64 bits, the least number that is read, written as a double, and half of one. -/
theorem bounds_exact_sample :
    let abs : Int → Int := fun n => if n = -2 ^ 63 then n else |n|
    let least : Json.Number := .double ⟨true, 9007199254740991 * Binary64.one⟩
    IsAbs64 abs ∧ boundInSteps? abs (.number (.integer (2 ^ 64 - 1))) = none ∧
      boundInSteps? abs (.number least) = some (-9007199254740991) ∧
      boundInSteps? abs (.number (.integer (-9007199254740991))) = bound? (.number least) := by
  intro abs least
  have habs : IsAbs64 abs := fun n hlow _ => if_neg (Int.ne_of_gt hlow)
  have hvalue : least.value = (-9007199254740991 : Int) := by
    refine Binary64.value_eq_int_iff.mpr ?_
    show -((9007199254740991 * Binary64.one : Nat) : Int) = _
    rw [Int.natCast_mul, ← Int.neg_mul]
    rfl
  obtain ⟨hplain, hsteps, hagree, -⟩ := bounds_exact
  have hexact := hsteps abs habs
  have hread := (hexact.number least trivial nofun _).mpr ⟨hvalue, by decide⟩
  refine ⟨habs, hexact.great _ (by decide) (by decide), hread, ?_⟩
  rw [hagree abs habs _ fun x hx => by cases hx; exact ⟨⟨by decide, by decide⟩, by decide⟩]
  exact hplain.spelling _ _ ⟨by decide, by decide⟩ trivial (by decide) nofun hvalue.symm

end Criterion
end ContentSearch
