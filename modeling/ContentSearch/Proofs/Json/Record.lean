import ContentSearch.Json.Record
import ContentSearch.Proofs.Keyed
import Mathlib.Data.List.Forall2

/-!
# What a record is read from

The reader of a record walks over the members of an object and keeps those that it knows. What it
keeps can be said without the walk: it reads a record exactly if every name spells a text and, under
each name that it knows, there is nothing or one member that has a value (**`fields?_eq_some`** and
**`exists_fields?_eq_some`**). All the others could be anything.

A natural number can be read from one kind of document only, a numeral without sign, point and
exponent (**`read_nat_iff`**): `5.0` and `5e0` stand for doubles, and `-0` does too.

The walk stops at the first thing that is wrong, and it has the fields in the order in which they
came. Neither can be seen by those who look fields up by their names, and so both directions are
stated by what is found.
-/

set_option autoImplicit false

namespace ContentSearch.Json

/-! ## Natural numbers -/

theorem Value.asNat?_eq_some_iff {limit n : Nat} {v : Value} :
    v.asNat? limit = some n ↔ v = nat n ∧ n < limit := by
  constructor
  · intro h
    unfold asNat? at h
    split at h
    · rename_i i hi
      split at h
      · rename_i hbounds
        cases h
        have hv : v = .number (.integer i) := by
          unfold asInt? at hi
          split at hi
          · cases hi
            rfl
          · cases hi
        have hnat : (i.toNat : Int) = i := Int.toNat_of_nonneg hbounds.1
        exact ⟨by rw [hv, nat, hnat], by omega⟩
      · cases h
    · cases h
  · rintro ⟨rfl, hlt⟩
    exact asNat?_nat hlt

/-- A numeral without sign, point and exponent is the only one that stands for a natural number. -/
theorem Numeral.toNumber?_eq_nat_iff {x : Numeral} {n : Nat} (hn : n < Nat.pow 2 64) :
    x.toNumber? = some (.integer n) ↔
      x.isWhole ∧ x.negative = false ∧ Nat.ofDigitChars 10 x.whole 0 = n := by
  simp only [toNumber?]
  split
  · rename_i hplain
    simp only [Bool.and_eq_true, Bool.not_eq_true', decide_eq_true_eq] at hplain
    simp only [hplain.1.1, hplain.1.2, Option.some.injEq, Number.integer.injEq, true_and]
    omega
  · rename_i hplain
    have hnot : ¬ (x.isWhole ∧ x.negative = false ∧ Nat.ofDigitChars 10 x.whole 0 = n) := by
      rintro ⟨hwhole, hsign, rfl⟩
      exact hplain (by simp [hwhole, hsign, hn])
    refine iff_of_false (fun h => ?_) hnot
    split at h
    · rename_i hminus
      simp only [Bool.and_eq_true, decide_eq_true_eq] at hminus
      simp only [Option.some.injEq, Number.integer.injEq] at h
      omega
    · obtain ⟨y, -, hy⟩ := Option.map_eq_some_iff.mp h
      cases hy

/-- A document that is the natural number `n` as JSON writes it: digits and nothing else. -/
def Document.IsNat (n : Nat) (d : Document) : Prop :=
  ∃ x : Numeral, d = .scalar (.numeral x) ∧ x.isWhole ∧ x.negative = false ∧
    Nat.ofDigitChars 10 x.whole 0 = n

/-- **What a natural number is read from.** -/
theorem Document.read_nat_iff {limit n room : Nat} (hlimit : limit ≤ Nat.pow 2 64)
    {d : Document} :
    (∃ v, d.toValue? room = some v ∧ v.asNat? limit = some n) ↔ d.IsNat n ∧ n < limit := by
  constructor
  · rintro ⟨v, hd, hv⟩
    obtain ⟨rfl, hlt⟩ := Value.asNat?_eq_some_iff.mp hv
    refine ⟨?_, hlt⟩
    -- only a numeral has a number for its value
    cases d with
    | scalar s =>
      rw [toValue?] at hd
      cases s with
      | numeral x =>
        obtain ⟨i, hx, hi⟩ := Option.map_eq_some_iff.mp hd
        cases hi
        exact ⟨x, rfl, (Numeral.toNumber?_eq_nat_iff (by omega)).mp hx⟩
      | null => cases hd
      | bool b => cases hd
      | string t =>
        obtain ⟨t', -, ht⟩ := Option.map_eq_some_iff.mp hd
        cases ht
    | array items =>
      cases room with
      | zero => cases hd
      | succ room =>
        obtain ⟨vs, -, hvs⟩ := Option.map_eq_some_iff.mp hd
        cases hvs
    | object members =>
      cases room with
      | zero => cases hd
      | succ room =>
        obtain ⟨ms, -, hms⟩ := Option.map_eq_some_iff.mp hd
        cases hms
  · rintro ⟨⟨x, rfl, hx⟩, hlt⟩
    refine ⟨.nat n, ?_, Value.asNat?_nat hlt⟩
    rw [toValue?]
    show x.toNumber?.map Value.number = some (.nat n)
    rw [(Numeral.toNumber?_eq_nat_iff (by omega)).mpr hx]
    rfl

/-! ## Fields -/

namespace Document

/-- An array has the values of its items, if each of them has one. -/
theorem toValues?_eq_some_iff {room : Nat} {items : List Document} {vs : List Value} :
    toValues? room items = some vs ↔
      List.Forall₂ (fun d v => d.toValue? room = some v) items vs := by
  induction items generalizing vs with
  | nil =>
    rw [toValues?, Option.some.injEq, List.forall₂_nil_left_iff]
    exact eq_comm
  | cons d ds ih =>
    constructor
    · intro h
      rw [toValues?] at h
      split at h
      · rename_i v vs' hd hds
        cases h
        exact .cons hd (ih.mp hds)
      · cases h
    · rintro (_ | ⟨hd, hds⟩)
      rw [toValues?, hd, ih.mpr hds]

/-- The values of the members with a name, in their order, `none` for a member without a value. -/
def valuesUnder (k : String) (members : List (Option String × Document)) : List (Option Value) :=
  (members.filter (·.1 = some k)).map fun m => m.2.toValue? (maxDepth - 1)

theorem valuesUnder_cons_self (k : String) (d : Document)
    (r : List (Option String × Document)) :
    valuesUnder k ((some k, d) :: r) = d.toValue? (maxDepth - 1) :: valuesUnder k r := by
  simp [valuesUnder]

theorem valuesUnder_cons_of_ne {k : String} {name : Option String} (h : name ≠ some k)
    (d : Document) (r : List (Option String × Document)) :
    valuesUnder k ((name, d) :: r) = valuesUnder k r := by
  simp [valuesUnder, h]

theorem valuesUnder_eq_singleton_iff {k : String} {members : List (Option String × Document)}
    {v : Value} :
    valuesUnder k members = [some v] ↔
      ∃ d, members.filter (·.1 = some k) = [(some k, d)] ∧
        d.toValue? (maxDepth - 1) = some v := by
  constructor
  · intro h
    obtain ⟨m, hm, hv⟩ := List.map_eq_singleton_iff.mp h
    have hname : m.1 = some k := by
      have hmem : m ∈ members.filter (·.1 = some k) := hm ▸ List.mem_singleton_self m
      simpa using (List.mem_filter.mp hmem).2
    exact ⟨m.2, by rw [hm, ← hname], hv⟩
  · rintro ⟨d, hd, hv⟩
    rw [valuesUnder, hd, List.map_singleton, hv]

variable {names : List String}

/-- **What was kept**: every name spells a text, and what is there under a name that is known is
one member, with the value that was kept for it. -/
theorem fields?_eq_some {members : List (Option String × Document)} {es : Entries Value}
    (h : fields? names members = some es) :
    (∀ m ∈ members, m.1.isSome) ∧
      ∀ k ∈ names, valuesUnder k members = (es.find? k).toList.map some := by
  -- member by member: one that is known must be the first of its name and have a value, and any
  -- other one is passed over
  induction members generalizing es with
  | nil =>
    cases h
    exact ⟨by simp, fun k _ => rfl⟩
  | cons m r ih =>
    obtain ⟨name, d⟩ := m
    cases name with
    | none => cases h
    | some k =>
      rw [fields?] at h
      split at h
      · split at h
        · rename_i v es' hd hr
          obtain ⟨hnames, hunder⟩ := ih hr
          split at h
          · cases h
          · rename_i hfresh
            cases h
            refine ⟨List.forall_mem_cons.mpr ⟨rfl, hnames⟩, fun k' hk' => ?_⟩
            by_cases hkk : k' = k
            · subst hkk
              have hnone : es'.find? k' = none := by simpa using hfresh
              rw [valuesUnder_cons_self, hd, hunder k' hk', hnone, Entries.find?, if_pos rfl]
              rfl
            · rw [valuesUnder_cons_of_ne (by simpa using Ne.symm hkk), hunder k' hk',
                Entries.find?, if_neg hkk]
        · cases h
      · rename_i hk
        obtain ⟨hnames, hunder⟩ := ih h
        refine ⟨List.forall_mem_cons.mpr ⟨rfl, hnames⟩, fun k' hk' => ?_⟩
        have hkk : k ≠ k' := fun heq => hk (heq ▸ hk')
        rw [valuesUnder_cons_of_ne (by simpa using hkk), hunder k' hk']

/-- A single member with a value is what is found under its name. -/
theorem find?_of_fields? {members : List (Option String × Document)} {es : Entries Value}
    (h : fields? names members = some es) {k : String} (hk : k ∈ names) {v : Value}
    (hv : valuesUnder k members = [some v]) : es.find? k = some v := by
  have hunder := (fields?_eq_some h).2 k hk
  rw [hv] at hunder
  cases hfound : es.find? k with
  | none =>
    rw [hfound] at hunder
    cases hunder
  | some w =>
    rw [hfound] at hunder
    cases hunder
    rfl

/-- **What is kept can be kept**: nothing else is asked of the members. -/
theorem exists_fields?_eq_some {members : List (Option String × Document)}
    (hnames : ∀ m ∈ members, m.1.isSome)
    (hunder : ∀ k ∈ names, ∃ o : Option Value, valuesUnder k members = o.toList.map some) :
    ∃ es, fields? names members = some es := by
  induction members with
  | nil => exact ⟨[], rfl⟩
  | cons m r ih =>
    obtain ⟨name, d⟩ := m
    obtain ⟨hname, hrest⟩ := List.forall_mem_cons.mp hnames
    obtain ⟨k, rfl⟩ := Option.isSome_iff_exists.mp hname
    -- What stands behind a member is at most what stood there with it.
    have hunder' : ∀ k' ∈ names, ∃ o : Option Value, valuesUnder k' r = o.toList.map some := by
      intro k' hk'
      obtain ⟨o, ho⟩ := hunder k' hk'
      by_cases hkk : k = k'
      · subst hkk
        rw [valuesUnder_cons_self] at ho
        cases o with
        | none => cases ho
        | some v => exact ⟨none, (List.cons.inj ho).2⟩
      · rw [valuesUnder_cons_of_ne (by simpa using hkk)] at ho
        exact ⟨o, ho⟩
    obtain ⟨es, hes⟩ := ih hrest hunder'
    rw [fields?]
    split
    · rename_i hk
      obtain ⟨o, ho⟩ := hunder k hk
      rw [valuesUnder_cons_self] at ho
      cases o with
      | none => cases ho
      | some v =>
        obtain ⟨hd, hr⟩ := List.cons.inj ho
        have hfresh : es.find? k = none := by
          have hk' := (fields?_eq_some hes).2 k hk
          rw [show valuesUnder k r = [] from hr] at hk'
          cases hfound : es.find? k with
          | none => rfl
          | some w =>
            rw [hfound] at hk'
            cases hk'
        exact ⟨(k, v) :: es, by simp [hd, hes, hfresh]⟩
    · exact ⟨es, hes⟩

end Document
end ContentSearch.Json
