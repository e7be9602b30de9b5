import ContentSearch.Proofs.Filter.Reading
import ContentSearch.Proofs.Text.Decimal

/-!
# Plain filters

The query language has no escapes, so a term can be mistaken for the language around it: a quote
inside quoted text ends the text, and a blank inside a bare term starts another word. A filter is
*plain* when no field holds such a term.

What a plain filter demands of a field is something that the field can put into words
(`Filter.Plain.sayable`), and the words of it are words that a reader can find
(`Field.readable_sentence`).

Being plain can be decided, and only the terms are looked at: neither the shape of a criterion nor
its ends can spoil a filter.
-/

set_option autoImplicit false

namespace ContentSearch

open Text

/-! ## Terms that cannot be mistaken -/

/-- A text without blanks, parentheses and quotes. -/
def Bare (s : String) : Prop := ∀ c ∈ s.toList, c ≠ ' ' ∧ c ≠ '(' ∧ c ≠ ')' ∧ c ≠ '"'

instance (s : String) : Decidable (Bare s) :=
  inferInstanceAs (Decidable (∀ c ∈ s.toList, _))

theorem Bare.append {s t : String} (hs : Bare s) (ht : Bare t) : Bare (s ++ t) :=
  every_append hs ht

theorem Bare.isWord {s : String} (h : Bare s) : IsWord s :=
  ⟨Closed.of_bare fun c hc => ⟨(h c hc).1, (h c hc).2.2.2⟩,
   Closed.of_bare fun c hc => ⟨(h c hc).2.2.1, (h c hc).2.2.2⟩⟩

namespace Field

/-- A term that the field can write without danger: quoted text must not hold a quote, a bare term
must be bare, and a free term must not look like an excluded one. -/
def Admits (f : Field) (t : String) : Prop :=
  (f.kind = .text → '"' ∉ t.toList) ∧ (f.kind = .terms ∨ f.kind = .token → Bare t)
    ∧ (f.kind = .terms → t.toList.head? ≠ some '-')

instance (f : Field) (t : String) : Decidable (f.Admits t) :=
  inferInstanceAs (Decidable (_ ∧ _ ∧ _))

end Field

/-- A filter whose fields hold only terms that they admit. -/
def Filter.Plain (f : Filter) : Prop :=
  ∀ field ∈ Field.all, ∀ c ∈ f.get? field.name, ∀ t ∈ c.terms, field.Admits t

instance (f : Filter) : Decidable f.Plain :=
  inferInstanceAs (Decidable (∀ field ∈ Field.all, ∀ c ∈ f.get? field.name, ∀ t ∈ c.terms, _))

/-! ## What a plain filter demands -/

namespace Field

/-- A demand that the field can put into words: a range where it takes one; otherwise at least one
term, none of them empty, and `and` only between two. -/
def Sayable (f : Field) : Demand → Prop
  | .combined op ts =>
    f.kind ≠ .range ∧ ts ≠ [] ∧ (op = .and → ts.length ≠ 1) ∧ ∀ t ∈ ts, t ≠ "" ∧ f.Admits t
  | .between _ _ => f.kind = .range

theorem sayable_ofTerms {f : Field} {op : Operator} {ts : List String} (hk : f.kind ≠ .range)
    (hne : ts ≠ []) (h : ∀ t ∈ ts, t ≠ "" ∧ f.Admits t) : f.Sayable (.ofTerms op ts) := by
  unfold Demand.ofTerms
  split
  · exact ⟨hk, hne, fun h => Operator.noConfusion h, h⟩
  · rename_i hnot
    refine ⟨hk, hne, fun hop hlen => ?_, h⟩
    obtain ⟨t, rfl⟩ := List.length_eq_one_iff.mp hlen
    exact hnot t hop rfl

theorem sayable_ofCriterion {f : Field} {c : Criterion} {d : Demand}
    (h : Demand.ofCriterion? f.kind c = some d) (hadmits : ∀ t ∈ c.terms, f.Admits t) :
    f.Sayable d := by
  rcases Demand.ofCriterion?_cases h with ⟨hk, low, high, rfl⟩ | ⟨hk, ⟨t, ht, hne⟩, op, rfl⟩
  · exact hk
  · have hmem : t ∈ c.terms.filter (· ≠ "") := List.mem_filter.mpr ⟨ht, by simpa using hne⟩
    refine sayable_ofTerms hk (List.ne_nil_of_mem hmem) fun u hu => ?_
    obtain ⟨humem, hune⟩ := List.mem_filter.mp hu
    exact ⟨by simpa using hune, hadmits u humem⟩

end Field

theorem Filter.Plain.sayable {f : Filter} (hf : f.Plain) {field : Field} (hmem : field ∈ Field.all)
    {d : Demand} (h : f.demand? field = some d) : field.Sayable d := by
  unfold Filter.demand? at h
  obtain ⟨c, hc, hd⟩ := Option.bind_eq_some_iff.mp h
  exact Field.sayable_ofCriterion hd (hf field hmem c hc)

/-! ## The words of it -/

theorem IsWord.quote {s : String} (h : '"' ∉ s.toList) : IsWord ("\"" ++ s ++ "\"") := by
  unfold IsWord
  rw [String.toList_append, String.toList_append]
  exact ⟨Closed.quote (by decide) h, Closed.quote (by decide) h⟩

theorem Operator.bare_sign (op : Operator) : Bare op.sign := by
  cases op <;> decide

theorem Operator.bare_word (op : Operator) : Bare op.word := by
  cases op <;> decide

theorem bare_writeInt (n : Int) : Bare (String.ofList (Text.Decimal.writeInt n)) := by
  have hdigits : ∀ c ∈ Text.Decimal.write n.natAbs, c ≠ ' ' ∧ c ≠ '(' ∧ c ≠ ')' ∧ c ≠ '"' := by
    intro c hc
    have hd : c.isDigit := Text.Decimal.isDigit_of_mem_write hc
    refine ⟨?_, ?_, ?_, ?_⟩ <;> (rintro rfl; exact absurd hd (by decide))
  intro c hc
  rw [String.toList_ofList] at hc
  unfold Text.Decimal.writeInt at hc
  split at hc
  · rcases List.mem_cons.mp hc with rfl | hc
    · decide
    · exact hdigits c hc
  · exact hdigits c hc

theorem mem_of_mem_intercalate {α : Type} {j a : α} {bs : List (List α)}
    (h : a ∈ [j].intercalate bs) : a = j ∨ ∃ b ∈ bs, a ∈ b := by
  induction bs with
  | nil => exact absurd h (by simp)
  | cons b rest ih =>
    cases rest with
    | nil => exact .inr ⟨b, List.mem_cons_self, by simpa using h⟩
    | cons c cs =>
      rw [List.intercalate_cons_cons, List.mem_append, List.mem_append] at h
      rcases h with (hb | hj) | hrest
      · exact .inr ⟨b, List.mem_cons_self, hb⟩
      · exact .inl (List.mem_singleton.mp hj)
      · rcases ih hrest with hj | ⟨d, hd, ha⟩
        · exact .inl hj
        · exact .inr ⟨d, List.mem_cons_of_mem _ hd, ha⟩

namespace Field

/-- The names of the fields are bare, and none of them looks excluded. -/
theorem bare_name : ∀ f ∈ all, Bare f.name ∧ f.name.toList.head? ≠ some '-' := by decide

theorem isWord_spell {f : Field} {t : String} (hk : f.kind ≠ .range) (h : f.Admits t) :
    IsWord (f.spell t) := by
  unfold spell quoted
  split
  · rename_i htext
    exact IsWord.quote (h.1 (by simpa using htext))
  · rename_i htext
    refine (h.2.1 ?_).isWord
    cases hkind : f.kind with
    | terms => exact .inl rfl
    | token => exact .inr rfl
    | text => exact absurd hkind (by simpa using htext)
    | range => exact absurd hkind hk

theorem isWord_termWords {f : Field} (hf : f ∈ all) {op : Operator} {t : String}
    (hk : f.kind ≠ .range) (h : f.Admits t) : ∀ w ∈ f.termWords op t, IsWord w := by
  intro w hw
  unfold termWords at hw
  split at hw
  · rename_i hterms
    rw [List.mem_singleton.mp hw]
    exact (op.bare_sign.append (h.2.1 (.inl hterms))).isWord
  · rcases List.mem_cons.mp hw with rfl | hw
    · exact ((op.bare_sign.append (bare_name f hf).1).append (by decide)).isWord
    · rw [List.mem_singleton.mp hw]
      exact isWord_spell hk h

theorem bare_sentence_between {f : Field} (hf : f ∈ all) (low high : Int) :
    ∀ w ∈ f.sentence (.between low high), Bare w := by
  intro w hw
  simp only [sentence, List.mem_cons, List.not_mem_nil, or_false] at hw
  rcases hw with rfl | rfl | rfl | rfl
  · exact (bare_name f hf).1.append (by decide)
  · exact Bare.append (by decide) (bare_writeInt low)
  · decide
  · exact (bare_writeInt high).append (by decide)

/-- **What a field says can be read.** -/
theorem readable_sentence {f : Field} (hf : f ∈ all) {d : Demand} (h : f.Sayable d) :
    Readable (f.sentence d) := by
  cases d with
  | combined op ts =>
    obtain ⟨hk, hne, -, hts⟩ := h
    refine ⟨?_, fun w hw => ?_⟩
    · cases ts with
      | nil => exact absurd rfl hne
      | cons t rest => cases rest <;> simp [sentence, f.termWords_ne_nil op t]
    · rcases mem_of_mem_intercalate hw with rfl | ⟨b, hb, hwb⟩
      · exact op.bare_word.isWord
      · obtain ⟨t, ht, rfl⟩ := List.mem_map.mp hb
        exact isWord_termWords hf hk (hts t ht).2 w hwb
  | between low high =>
    exact ⟨List.cons_ne_nil _ _, fun w hw => (bare_sentence_between hf low high w hw).isWord⟩

end Field
end ContentSearch
