import ContentSearch.Proofs.Cursor.Payload
import ContentSearch.Proofs.Json.Grammar

/-!
# Cursors in any layout

The program writes every cursor in one way. Others write the same cursor as they please: with blanks
around its tokens, with escapes in its names, with its two members in either order and further ones
among them. How a payload is laid out makes no difference, and what the further members hold makes
none (**`decode_layout`**): the payload is read as its cursor.

The same statement says what does make a difference. A start or a size that is left out, given twice
or no integer literal in range makes the token that of the first page, whatever else is there.

What can be wrong with one of the two fields is an inductive with a constructor for each (`Faulty`);
it speaks of one field, and one is enough.
-/

set_option autoImplicit false

namespace ContentSearch

open Text

/-! ## Integer literals -/

namespace Json

/-- The integer that the sign and the whole digits of a numeral spell. -/
def Numeral.signed (x : Numeral) : Int :=
  if x.negative then -Nat.ofDigitChars 10 x.whole 0 else Nat.ofDigitChars 10 x.whole 0

/-- A document that is an integer literal: a numeral without point and exponent. -/
def Document.IsInteger (n : Int) (d : Document) : Prop :=
  ∃ x : Numeral, d = .scalar (.numeral x) ∧ x.isWhole ∧ x.signed = n

theorem Document.isNat_of_isInteger {n : Nat} (hn : 1 ≤ n) {d : Document} (h : d.IsInteger n) :
    d.IsNat n := by
  obtain ⟨x, hd, hwhole, hsigned⟩ := h
  unfold Numeral.signed at hsigned
  split at hsigned
  · omega
  · rename_i hsign
    exact ⟨x, hd, hwhole, Bool.eq_false_iff.mpr hsign, Int.ofNat.inj hsigned⟩

theorem Document.isInteger_of_isNat {n : Nat} {d : Document} (h : d.IsNat n) : d.IsInteger n := by
  obtain ⟨x, hd, hwhole, hsign, hdigits⟩ := h
  refine ⟨x, hd, hwhole, ?_⟩
  rw [Numeral.signed, hsign, hdigits]
  rfl

theorem Document.IsInteger.unique {m n : Int} {d : Document} (hm : d.IsInteger m)
    (hn : d.IsInteger n) : m = n := by
  obtain ⟨x, hd, -, rfl⟩ := hm
  obtain ⟨y, hd', -, rfl⟩ := hn
  cases hd.symm.trans hd'
  rfl

/-- A written integer is a literal of itself. -/
theorem Document.isInteger_ofInt (n : Int) :
    (Document.scalar (.numeral (.ofInt n))).IsInteger n := by
  refine ⟨_, rfl, rfl, ?_⟩
  unfold Numeral.signed
  simp only [Numeral.ofInt, Decimal.ofDigitChars_write, decide_eq_true_eq]
  split <;> omega

end Json

namespace Cursor

/-! ## The token of a text -/

/-- The token that a JSON text is handed on as. -/
def tokenOf (text : List Char) : String := String.ofList (Base64.encode (Utf8.encode text))

theorem spells_tokenOf {text : List Char} {d : Json.Document} (h : d.Layout text) :
    Spells (tokenOf text) d := by
  refine ⟨[], Utf8.encode text, [], ?_, by simp, by simp, ?_⟩
  · rw [tokenOf, String.toList_ofList, List.nil_append, List.append_nil]
  · rw [Json.Document.ofBytes?, Utf8.decode_encode]
    exact h.read?_eq

/-! ## Fields -/

/-- What keeps a field of a cursor from being read. -/
inductive Faulty (members : List (Option String × Json.Document)) (k : String) : Prop
  | missing (h : ∀ m ∈ members, m.1 ≠ some k)
  | repeated (h : 2 ≤ (members.filter (·.1 = some k)).length)
  | noInteger {d : Json.Document} (h : (some k, d) ∈ members) (hd : ∀ n, ¬ d.IsInteger n)
  | outOfRange {d : Json.Document} {n : Int} (h : (some k, d) ∈ members) (hd : d.IsInteger n)
      (hn : n < 1 ∨ most < n)

/-- The one member of a payload under the name of a field holds a number in range. -/
theorem Payload.field {c : Cursor} {members : List (Option String × Json.Document)}
    (h : Payload c (.object members)) (hsound : c.Sound) {k : String} (hk : k ∈ fieldNames) :
    ∃ d, members.filter (·.1 = some k) = [(some k, d)] ∧
      ∃ n : Nat, d.IsInteger n ∧ 1 ≤ n ∧ n ≤ most := by
  have hmost : most = Decimal.limit32 - 1 := rfl
  cases h with
  | @object _ start size _ honce honce' hstart hsize =>
    rcases List.mem_cons.mp hk with rfl | hk
    · have hlt := hsound.start_lt
      exact ⟨start, honce, c.start, Json.Document.isInteger_of_isNat hstart, hsound.start_pos,
        by omega⟩
    · have hlt := hsound.size_lt
      rw [List.mem_singleton.mp hk]
      exact ⟨size, honce', c.size, Json.Document.isInteger_of_isNat hsize, hsound.size_pos,
        by omega⟩

theorem Payload.not_faulty {c : Cursor} {members : List (Option String × Json.Document)}
    (h : Payload c (.object members)) (hsound : c.Sound) {k : String} (hk : k ∈ fieldNames) :
    ¬ Faulty members k := by
  obtain ⟨d, honce, n, hd, hpos, hle⟩ := h.field hsound hk
  have honly : ∀ e, (some k, e) ∈ members → e = d := by
    intro e he
    have hfound : (some k, e) ∈ members.filter (·.1 = some k) := List.mem_filter.mpr ⟨he, by simp⟩
    rw [honce] at hfound
    exact (Prod.mk.inj (List.mem_singleton.mp hfound)).2
  rintro (hmissing | hrepeated | ⟨he, hnone⟩ | ⟨he, hother, hrange⟩)
  · have hmem : (some k, d) ∈ members.filter (·.1 = some k) := honce ▸ List.mem_singleton_self _
    exact hmissing _ (List.mem_filter.mp hmem).1 rfl
  · rw [honce] at hrepeated
    simp at hrepeated
  · rw [honly _ he] at hnone
    exact hnone n hd
  · rw [honly _ he] at hother
    have heq := hother.unique hd
    omega

/-- Members in any order are a payload if the two fields are among them and all others have names
of their own. -/
theorem Payload.of_perm {c : Cursor} (hsound : c.Sound) {start size : Json.Document}
    (hstart : start.IsInteger c.start) (hsize : size.IsInteger c.size)
    {others members : List (Option String × Json.Document)}
    (hothers : ∀ m ∈ others, ∃ k, m.1 = some k ∧ k ∉ fieldNames)
    (hperm : members.Perm ((some "start", start) :: (some "num", size) :: others)) :
    Payload c (.object members) := by
  have hnone : ∀ k ∈ fieldNames, others.filter (·.1 = some k) = [] := by
    intro k hk
    refine List.filter_eq_nil_iff.mpr fun m hm hname => ?_
    obtain ⟨k', hk', hnew⟩ := hothers m hm
    rw [hk', decide_eq_true_eq] at hname
    exact hnew (Option.some.inj hname ▸ hk)
  -- what stands under a name is a permutation of one member, and so it is that member
  have honce := hperm.filter (·.1 = some "start")
  have honce' := hperm.filter (·.1 = some "num")
  simp only [List.filter_cons, hnone "start" (by decide), hnone "num" (by decide)] at honce honce'
  refine .object ?_ (List.perm_singleton.mp honce) (List.perm_singleton.mp honce')
    (Json.Document.isNat_of_isInteger hsound.start_pos hstart)
    (Json.Document.isNat_of_isInteger hsound.size_pos hsize)
  intro m hm
  rcases List.mem_cons.mp (hperm.mem_iff.mp hm) with rfl | hm
  · rfl
  rcases List.mem_cons.mp hm with rfl | hm
  · rfl
  obtain ⟨k, hk, -⟩ := hothers m hm
  rw [hk]
  rfl

/-- **The layout of a cursor makes no difference.** A token is read as the cursor whose start and
size its object has, whatever the layout of the object, the order of its members and the values of
the others; and as the first page if one of the two is faulty. -/
theorem decode_layout :
    (∀ c : Cursor, c.Sound → ∀ start size : Json.Document, start.IsInteger c.start →
        size.IsInteger c.size → ∀ others : List (Option String × Json.Document),
        (∀ m ∈ others, ∃ k, m.1 = some k ∧ k ∉ fieldNames) →
        ∀ members, members.Perm ((some "start", start) :: (some "num", size) :: others) →
        ∀ text, (Json.Document.object members).Layout text → decode (some (tokenOf text)) = c) ∧
      ∀ members text, (Json.Document.object members).Layout text →
        ∀ k ∈ fieldNames, Faulty members k → decode (some (tokenOf text)) = ⟨1, 10⟩ := by
  constructor
  · intro c hsound start size hstart hsize others hothers members hperm text htext
    have hpayload := Payload.of_perm hsound hstart hsize hothers hperm
    exact decode_eq_iff.mpr (.inl ⟨hsound, _, spells_tokenOf htext, hpayload⟩)
  · intro members text htext k hk hfaulty
    refine decode_eq_iff.mpr (.inr ⟨rfl, ?_⟩)
    rintro c ⟨hsound, d, hd, hpayload⟩
    cases hd.unique (spells_tokenOf htext)
    exact hpayload.not_faulty hsound hk hfaulty

/-- The size first, under a name with an escape in it, and a member between the two; and a size that
is no integer literal, though it stands for the same number. -/
theorem decode_layout_sample :
    decode (some (tokenOf "\x7b\"n\\u0075m\": 20 ,\"x\":null,\"start\":5\x7d".toList)) = ⟨5, 20⟩ ∧
      decode (some (tokenOf "\x7b\"start\":5,\"num\":2e1\x7d".toList)) = ⟨1, 10⟩ := by
  have hnone : Json.Blanks [] := fun _ hc => absurd hc List.not_mem_nil
  have hspace : Json.Blanks [' '] := by unfold Json.Blanks; decide
  have hstart := (Json.Document.Spells.scalar (.writeInt 5)).layout
  constructor
  · have hname : (Json.Scalar.string (some "num")).Spells
        ['"', 'n', '\\', 'u', '0', '0', '7', '5', 'm', '"'] :=
      .string (s := ['n', 'u', 'm'])
        (.cons (.raw (by decide) (by decide) (by decide)) (.cons (.unit (n := 'u'.toNat) rfl)
          (.cons (.raw (by decide) (by decide) (by decide)) .nil)))
        (.char (.unit (.char .nil)))
    have hmembers := Json.Document.MembersLayout.more hnone hname hnone
      (.padded hspace (.scalar (.writeInt 20)) hspace)
      (.more hnone (.quote "x") hnone (Json.Document.Spells.scalar .null).layout
        (.last hnone (.quote "start") hnone hstart))
    refine decode_layout.1 ⟨5, 20⟩ ⟨by decide, by decide, by decide, by decide⟩ _ _
      (Json.Document.isInteger_ofInt 5) (Json.Document.isInteger_ofInt 20)
      [(some "x", .scalar .null)] ?_ _ ?_ _ (Json.Document.Spells.object hmembers).layout
    · intro m hm
      exact ⟨"x", by rw [List.mem_singleton.mp hm], by decide⟩
    · exact (List.reverse_perm _).symm.trans (.cons _ (.swap _ _ _))
  · have hnumeral : (Json.Scalar.numeral ⟨false, ['2'], [], some (false, ['1'])⟩).Spells
        ['2', 'e', '1'] :=
      .numeral ⟨by decide, by decide, fun _ h => absurd (List.cons.inj h).1 (by decide), by decide,
        by decide, by decide⟩ ⟨_, .unsigned (.inl rfl), rfl⟩
    have hmembers := Json.Document.MembersLayout.more hnone (.quote "start") hnone hstart
      (.last hnone (.quote "num") hnone (Json.Document.Spells.scalar hnumeral).layout)
    refine decode_layout.2 _ _ (Json.Document.Spells.object hmembers).layout "num" (by decide)
      (.noInteger (List.mem_cons_of_mem _ List.mem_cons_self) ?_)
    rintro n ⟨x, hx, hwhole, -⟩
    cases hx
    cases hwhole

end Cursor
end ContentSearch
