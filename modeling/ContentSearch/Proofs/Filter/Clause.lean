import ContentSearch.Proofs.Filter.Plain
import Mathlib.Data.List.Chain

/-!
# What a clause says

Whether a criterion has anything to say is asked twice. `Criterion.isEmpty` looks at the whole of
it before a clause is begun, and the empty terms are left out once more when the terms are put
together. Were the two to disagree, a clause could be a pair of parentheses around nothing, or have
an operator with nothing on one side of it.

They agree. A clause is there exactly if the criterion is not empty and is a range where the field
takes one, and what stands in its parentheses is then an *enumeration* of the terms that are not
empty: `Field.Enumerates` has one rule for the last term and one for a term with another behind it,
and only the second writes a joiner. **`Field.clauseLaw`** says this of every field and every
criterion. The clause does not look at the terms either, so a term that itself holds `()`, or a
blank at one of its ends, brings it along; the last two parts say that nothing else does.
-/

set_option autoImplicit false

namespace ContentSearch

/-! ## Two characters side by side -/

namespace Text

/-- Nowhere in the text does the first character stand right before the second. -/
def Apart (a b : Char) (s : List Char) : Prop := s.IsChain fun x y => ¬ (x = a ∧ y = b)

instance (a b : Char) (s : List Char) : Decidable (Apart a b s) :=
  inferInstanceAs (Decidable (List.IsChain _ s))

theorem apart_iff {a b : Char} {s : List Char} : Apart a b s ↔ ¬ [a, b] <:+: s := by
  constructor
  · intro h hin
    have hpair : Apart a b [a, b] := List.IsChain.infix h hin
    exact (List.isChain_cons_cons.mp hpair).1 ⟨rfl, rfl⟩
  · intro h
    refine List.isChain_iff_forall_rel_of_append_cons_cons.mpr ?_
    rintro x y front back rfl ⟨rfl, rfl⟩
    exact h ⟨front, back, by simp⟩

/-- In a text of two parts they stand side by side in one of the parts or across the cut. -/
theorem Apart.append {a b : Char} {s t : List Char} (hs : Apart a b s) (ht : Apart a b t)
    (hcut : s.getLast? = some a → t.head? ≠ some b) : Apart a b (s ++ t) := by
  refine List.isChain_append.mpr ⟨hs, ht, ?_⟩
  rintro x hx y hy ⟨rfl, rfl⟩
  exact hcut hx hy

/-- No blank at an end and no two blanks together. -/
structure Trim (s : List Char) : Prop where
  starts : s.head? ≠ some ' '
  ends : s.getLast? ≠ some ' '
  single : Apart ' ' ' ' s

end Text

open Text

/-- What joins two texts stands at an end of this one, or right behind another of its kind. -/
def Dangles (joiner s : String) : Prop :=
  joiner.toList <+: s.toList ∨ joiner.toList <:+ s.toList
    ∨ joiner.toList ++ joiner.toList <:+: s.toList

theorem Operator.blank_joiner (op : Operator) :
    op.joiner.toList = ' ' :: op.word.toList ++ [' '] := by
  cases op <;> decide

theorem Text.Trim.not_dangles {s : String} (h : Trim s.toList) (op : Operator) :
    ¬ Dangles op.joiner s := by
  unfold Dangles
  rw [op.blank_joiner]
  -- A joiner begins and ends with a blank. In front it puts one there, behind likewise, and two of
  -- them in a row put two side by side.
  rintro (⟨back, hs⟩ | ⟨front, hs⟩ | ⟨front, back, hs⟩)
  · exact h.starts (by rw [← hs]; rfl)
  · exact h.ends (by rw [← hs, ← List.append_assoc, List.getLast?_concat])
  · refine apart_iff.mp h.single ⟨front ++ ' ' :: op.word.toList, op.word.toList ++ ' ' :: back, ?_⟩
    rw [← hs]
    simp

/-! ## Criteria -/

namespace Criterion

def isRange : Criterion → Bool
  | .range _ => true
  | _ => false

/-- The operator between the terms; `or` where none was given. -/
def operator : Criterion → Operator
  | .grouped op _ => op
  | _ => .or

/-- The terms that are not empty, in their order and as often as they were given. -/
def spoken (c : Criterion) : List String := c.terms.filter (· ≠ "")

/-- Without empty terms. Nothing is left of an empty scalar. -/
def withoutEmpty : Criterion → Criterion
  | .scalar t => if t = "" then .list [] else .scalar t
  | .list ts => .list (ts.filter (· ≠ ""))
  | .grouped op ts => .grouped op (ts.filter (· ≠ ""))
  | .range r => .range r

theorem isRange_iff {c : Criterion} : c.isRange = true ↔ ∃ r, c = .range r := by
  cases c <;> simp [isRange]

theorem ne_empty_of_mem_spoken {c : Criterion} {t : String} (h : t ∈ c.spoken) : t ≠ "" := by
  simpa using (List.mem_filter.mp h).2

theorem isRange_withoutEmpty (c : Criterion) : c.withoutEmpty.isRange = c.isRange := by
  cases c with
  | scalar t => simp only [withoutEmpty]; split <;> rfl
  | list ts => rfl
  | range r => rfl
  | grouped op ts => rfl

theorem operator_withoutEmpty (c : Criterion) : c.withoutEmpty.operator = c.operator := by
  cases c with
  | scalar t => simp only [withoutEmpty]; split <;> rfl
  | list ts => rfl
  | range r => rfl
  | grouped op ts => rfl

theorem spoken_withoutEmpty (c : Criterion) : c.withoutEmpty.spoken = c.spoken := by
  have hfilter (ts : List String) :
      (ts.filter (· ≠ "")).filter (· ≠ "") = ts.filter (· ≠ "") := by
    rw [List.filter_filter]
    exact List.filter_congr fun t _ => Bool.and_self _
  cases c with
  | scalar t =>
    by_cases ht : t = ""
    · subst ht
      rfl
    · rw [withoutEmpty, if_neg ht]
  | list ts => exact hfilter ts
  | range r => rfl
  | grouped op ts => exact hfilter ts

/-- The two ways to ask whether there is a term come to the same. -/
theorem isEmpty_iff_spoken {c : Criterion} (h : c.isRange = false) :
    c.isEmpty = true ↔ c.spoken = [] := by
  have hall (ts : List String) : ts.all (· = "") = true ↔ ts.filter (· ≠ "") = [] := by
    rw [List.all_eq_true, List.filter_eq_nil_iff]
    simp
  cases c with
  | scalar t => simp [isEmpty, spoken, terms]
  | list ts => exact hall ts
  | range r => exact absurd h (by simp [isRange])
  | grouped op ts => exact hall ts

end Criterion

/-! ## Enumerations -/

namespace Field

/-- One term as the field writes it. -/
def element (f : Field) (op : Operator) (t : String) : String :=
  match f.kind with
  | .terms => op.sign ++ t
  | .text => op.sign ++ f.name ++ ": " ++ ("\"" ++ t ++ "\"")
  | .token | .range => op.sign ++ f.name ++ ": " ++ t

/-- **A text that lists terms**: each of them as the field writes it, none of them empty, and the
joiner where one follows another. -/
inductive Enumerates (f : Field) (op : Operator) : List String → String → Prop
  | last {t : String} (ht : t ≠ "") : Enumerates f op [t] (f.element op t)
  | next {t : String} {ts : List String} {rest : String} (ht : t ≠ "")
      (hrest : Enumerates f op ts rest) :
      Enumerates f op (t :: ts) (f.element op t ++ op.joiner ++ rest)

theorem element_eq (f : Field) (op : Operator) (t : String) :
    f.element op t = op.sign ++ f.label ++ f.spell t := by
  unfold element label spell quoted
  cases f.kind <;> simp [String.append_assoc]

theorem written_eq_elements (f : Field) (op : Operator) (ts : List String) :
    f.written op ts = (ts.filter (· ≠ "")).map (f.element op) :=
  List.map_congr_left fun t _ => (f.element_eq op t).symm

theorem enumerates_iff {f : Field} {op : Operator} {ts : List String} {s : String} :
    f.Enumerates op ts s ↔
      ts ≠ [] ∧ (∀ t ∈ ts, t ≠ "") ∧ s = op.joiner.intercalate (ts.map (f.element op)) := by
  -- The two descriptions grow at the same end: along the derivation one way, along the terms the
  -- other.
  constructor
  · intro h
    induction h with
    | last ht => exact ⟨List.cons_ne_nil _ _, by simpa using ht, by simp⟩
    | @next t ts rest ht _ ih =>
      obtain ⟨hne, hts, rfl⟩ := ih
      refine ⟨List.cons_ne_nil _ _, List.forall_mem_cons.mpr ⟨ht, hts⟩, ?_⟩
      rw [List.map_cons, String.intercalate_cons_of_ne_nil (by simpa using hne)]
  · rintro ⟨hne, hts, rfl⟩
    induction ts with
    | nil => exact absurd rfl hne
    | cons t rest ih =>
      obtain ⟨ht, hrest⟩ := List.forall_mem_cons.mp hts
      cases rest with
      | nil =>
        rw [List.map_singleton, String.intercalate_singleton]
        exact .last ht
      | cons u us =>
        rw [List.map_cons, String.intercalate_cons_of_ne_nil (by simp)]
        exact .next ht (ih (List.cons_ne_nil _ _) hrest)

/-! ## The clause -/

theorem expression?_of_kind {f : Field} (hk : f.kind ≠ .range) {c : Criterion}
    (hc : c.isRange = false) :
    f.expression? c = if c.isEmpty then none else some (f.combine c.operator c.terms) := by
  unfold expression?
  cases c with
  | range r => exact absurd hc (by simp [Criterion.isRange])
  | scalar t => simp only [if_neg hk]; rfl
  | list ts => simp only [if_neg hk]; rfl
  | grouped op ts => simp only [if_neg hk]; rfl

/-- A clause is present exactly if the criterion has something to say that fits the field. -/
theorem isSome_clause? (f : Field) (c : Criterion) :
    (f.clause? c).isSome ↔ c.isEmpty = false ∧ (c.isRange = true ↔ f.kind = .range) := by
  unfold clause? expression?
  rw [Option.isSome_map]
  -- an empty criterion has no clause in any field; of the others, ranges and fields for ranges go
  -- together
  by_cases hempty : c.isEmpty = true
  · simp [hempty]
  · rw [if_neg hempty]
    by_cases hk : f.kind = .range
    · cases c <;> simp [hk, Criterion.isRange, hempty]
    · cases c <;> simp [hk, Criterion.isRange, hempty]

theorem clause?_eq_none {f : Field} {c : Criterion}
    (h : ¬ (c.isRange = true ↔ f.kind = .range)) : f.clause? c = none := by
  rw [← Option.not_isSome_iff_eq_none, isSome_clause?]
  exact fun hsome => h hsome.2

theorem clause?_eq_some_iff {f : Field} (hk : f.kind ≠ .range) {c : Criterion} {text : String} :
    f.clause? c = some text ↔
      ∃ inner, text = "(" ++ inner ++ ")" ∧ f.Enumerates c.operator c.spoken inner := by
  by_cases hc : c.isRange = true
  · -- a range has no terms to list
    obtain ⟨r, rfl⟩ := Criterion.isRange_iff.mp hc
    rw [clause?_eq_none fun h => hk (h.mp hc)]
    refine ⟨fun h => absurd h (by simp), fun ⟨inner, _, h⟩ => ?_⟩
    exact absurd rfl (enumerates_iff.mp h).1
  · have hc : c.isRange = false := by simpa using hc
    unfold clause?
    rw [expression?_of_kind hk hc]
    by_cases hempty : c.isEmpty = true
    · rw [if_pos hempty]
      refine ⟨fun h => absurd h (by simp), fun ⟨inner, _, h⟩ => ?_⟩
      exact absurd ((Criterion.isEmpty_iff_spoken hc).mp hempty) (enumerates_iff.mp h).1
    · rw [if_neg hempty, Option.map_some, Option.some_inj]
      have hcombine : f.combine c.operator c.terms
          = c.operator.joiner.intercalate (c.spoken.map (f.element c.operator)) := by
        unfold combine
        rw [written_eq_elements]
        rfl
      have hne : c.spoken ≠ [] := fun h => hempty ((Criterion.isEmpty_iff_spoken hc).mpr h)
      constructor
      · rintro rfl
        refine ⟨_, rfl, enumerates_iff.mpr ⟨hne, fun t ht => ?_, hcombine⟩⟩
        exact Criterion.ne_empty_of_mem_spoken ht
      · rintro ⟨inner, rfl, h⟩
        rw [hcombine, (enumerates_iff.mp h).2.2]

/-- The clause depends on the operator and on the terms that are not empty, and on nothing else. -/
theorem clause?_congr (f : Field) {c d : Criterion} (hc : c.isRange = false)
    (hd : d.isRange = false) (hop : c.operator = d.operator) (hspoken : c.spoken = d.spoken) :
    f.clause? c = f.clause? d := by
  -- a field for ranges has no clause for either; any other field looks only at the operator and the
  -- terms
  by_cases hk : f.kind = .range
  · have hnone {e : Criterion} (he : e.isRange = false) : f.clause? e = none :=
      clause?_eq_none fun h => absurd (h.mpr hk) (by simp [he])
    rw [hnone hc, hnone hd]
  · refine Option.ext fun text => ?_
    rw [clause?_eq_some_iff hk, clause?_eq_some_iff hk, hop, hspoken]

theorem clause?_withoutEmpty (f : Field) (c : Criterion) :
    f.clause? c.withoutEmpty = f.clause? c := by
  by_cases hc : c.isRange = true
  · obtain ⟨r, rfl⟩ := Criterion.isRange_iff.mp hc
    rfl
  · have hc : c.isRange = false := by simpa using hc
    exact f.clause?_congr (c.isRange_withoutEmpty.trans hc) hc c.operator_withoutEmpty
      c.spoken_withoutEmpty

/-! ## What the terms bring along -/

/-- What the field writes before a term. -/
def opening (f : Field) (op : Operator) : String :=
  op.sign ++ f.label ++ if f.quoted then "\"" else ""

def closing (f : Field) : String := if f.quoted then "\"" else ""

theorem element_eq_opening (f : Field) (op : Operator) (t : String) :
    (f.element op t).toList = (f.opening op).toList ++ t.toList ++ f.closing.toList := by
  rw [element_eq]
  unfold opening closing spell
  split <;> simp

/-- What the field itself writes has no parentheses, no blank in front and no two together. -/
theorem opening_harmless : ∀ f ∈ all, ∀ op : Operator,
    (∀ c ∈ (f.opening op).toList, c ≠ '(' ∧ c ≠ ')') ∧ (f.opening op).toList.head? ≠ some ' '
      ∧ Apart ' ' ' ' (f.opening op).toList := by
  intro f hf op
  cases op <;> revert f <;> decide

/-- Behind a term there is a quote or nothing. -/
theorem closing_harmless (f : Field) (a : Char) {b : Char} (hb : b ≠ '"') :
    Apart a b f.closing.toList ∧ f.closing.toList.head? ≠ some b := by
  unfold closing
  split
  · exact ⟨.singleton _, fun h => hb (Option.some.inj h).symm⟩
  · exact ⟨.nil, nofun⟩

theorem apart_element {f : Field} (hf : f ∈ all) (op : Operator) {t : String}
    (h : Apart '(' ')' t.toList) : Apart '(' ')' (f.element op t).toList := by
  obtain ⟨hnone, -, -⟩ := opening_harmless f hf op
  have hopening : Apart '(' ')' (f.opening op).toList := by
    refine apart_iff.mpr fun hin => ?_
    exact (hnone '(' (hin.subset List.mem_cons_self)).1 rfl
  rw [element_eq_opening]
  obtain ⟨hclosing, hquote⟩ := f.closing_harmless '(' (b := ')') (by decide)
  -- nothing meets where the term begins, as no field opens with a parenthesis, nor where it ends
  refine (hopening.append h fun hlast => ?_).append hclosing fun _ => hquote
  exact absurd rfl (hnone _ (List.mem_of_getLast? hlast)).1

theorem trim_element {f : Field} (hf : f ∈ all) (op : Operator) {t : String} (hne : t ≠ "")
    (h : Trim t.toList) : Trim (f.element op t).toList := by
  obtain ⟨-, hhead, hsingle⟩ := opening_harmless f hf op
  have ht : t.toList ≠ [] := fun hnil => hne (String.toList_eq_nil_iff.mp hnil)
  rw [element_eq_opening]
  obtain ⟨hclosing, hquote⟩ := f.closing_harmless ' ' (b := ' ') (by decide)
  refine ⟨?_, ?_, (hsingle.append h.single fun _ => h.starts).append hclosing fun _ => hquote⟩
  · -- what comes first is what the field writes or, where it writes nothing, the term
    rw [List.head?_append_of_ne_nil _ (by simp [ht]), List.head?_append]
    cases hopening : (f.opening op).toList.head? with
    | none => exact h.starts
    | some c => rw [hopening] at hhead; exact hhead
  · unfold closing
    split
    · rw [show "\"".toList = ['"'] from rfl, List.getLast?_concat]
      decide
    · rw [String.toList_empty, List.append_nil, List.getLast?_append_of_ne_nil _ ht]
      exact h.ends

namespace Enumerates

variable {f : Field} {op : Operator} {ts : List String} {s : String}

theorem ne_empty (h : f.Enumerates op ts s) : s ≠ "" := by
  have hne {t : String} (ht : t ≠ "") : f.element op t ≠ "" := by
    intro hnil
    have hlist := congrArg String.toList hnil
    rw [element_eq_opening, String.toList_empty, List.append_eq_nil_iff, List.append_eq_nil_iff]
      at hlist
    exact ht (String.toList_eq_nil_iff.mp hlist.1.2)
  -- along the terms; one element that is not empty is enough
  induction h with
  | last ht => exact hne ht
  | next ht _ _ => simp [hne ht]

theorem apart (hf : f ∈ all) (h : f.Enumerates op ts s)
    (hts : ∀ t ∈ ts, Apart '(' ')' t.toList) : Apart '(' ')' s.toList := by
  induction h with
  | last _ => exact apart_element hf op (hts _ List.mem_cons_self)
  | next _ _ ih =>
    obtain ⟨ht, hrest⟩ := List.forall_mem_cons.mp hts
    rw [String.toList_append, String.toList_append]
    -- a joiner begins and ends with a blank, so nothing meets across it
    refine ((apart_element hf op ht).append ?_ fun _ => ?_).append (ih hrest) fun hlast => ?_
    · cases op <;> decide
    · rw [op.blank_joiner]
      simp
    · rw [op.blank_joiner, ← List.append_assoc, List.getLast?_concat] at hlast
      exact absurd hlast (by decide)

theorem trim (hf : f ∈ all) (h : f.Enumerates op ts s)
    (hts : ∀ t ∈ ts, Trim t.toList) : Trim s.toList := by
  induction h with
  | last hne => exact trim_element hf op hne (hts _ List.mem_cons_self)
  | @next t _ rest hne hrest ih =>
    obtain ⟨ht, hts⟩ := List.forall_mem_cons.mp hts
    have helement := trim_element hf op hne ht
    have ih := ih hts
    have hfull : rest.toList ≠ [] := fun hnil => hrest.ne_empty (String.toList_eq_nil_iff.mp hnil)
    rw [String.toList_append, String.toList_append]
    refine ⟨?_, ?_, (helement.single.append ?_ fun hlast => ?_).append ih.single fun _ => ih.starts⟩
    · rw [List.append_assoc, List.head?_append]
      cases hhead : (f.element op t).toList.head? with
      | none =>
        have hlast : f.Enumerates op [t] (f.element op t) := .last hne
        exact absurd (String.toList_eq_nil_iff.mp (List.head?_eq_none_iff.mp hhead)) hlast.ne_empty
      | some c => rw [Option.some_or, ← hhead]; exact helement.starts
    · rw [List.getLast?_append_of_ne_nil _ hfull]
      exact ih.ends
    · cases op <;> decide
    · exact absurd hlast helement.ends

end Enumerates

/-! ## The law -/

/-- What a field makes of a criterion. -/
structure ClauseLaw (f : Field) (c : Criterion) : Prop where
  present : (f.clause? c).isSome ↔ c.isEmpty = false ∧ (c.isRange = true ↔ f.kind = .range)
  withoutEmpty : f.clause? c.withoutEmpty = f.clause? c
  enumerates : f.kind ≠ .range → ∀ text, f.clause? c = some text ↔
    ∃ inner, text = "(" ++ inner ++ ")" ∧ f.Enumerates c.operator c.spoken inner
  /-- There is something in the parentheses. -/
  full : f.kind ≠ .range → ∀ inner, f.clause? c = some ("(" ++ inner ++ ")") → inner ≠ ""
  /-- Only a term can have parentheses around nothing. -/
  parentheses : f.kind ≠ .range → ∀ inner, f.clause? c = some ("(" ++ inner ++ ")") →
    "()".toList <:+: inner.toList → ∃ t ∈ c.spoken, "()".toList <:+: t.toList
  /-- Only a term can leave any operator's joiner dangling. -/
  joiners : f.kind ≠ .range → ∀ inner, f.clause? c = some ("(" ++ inner ++ ")") →
    (∀ t ∈ c.spoken, Trim t.toList) → ∀ op : Operator, ¬ Dangles op.joiner inner

theorem parenthesised_inj {s t : String} (h : "(" ++ s ++ ")" = "(" ++ t ++ ")") : s = t := by
  have hlist := congrArg String.toList h
  simp only [String.toList_append] at hlist
  exact String.toList_inj.mp (List.append_cancel_left (List.append_cancel_right hlist))

/-- **A clause exists exactly if there is something to say, and it says all of it once.** -/
theorem clauseLaw {f : Field} (hf : f ∈ all) (c : Criterion) : f.ClauseLaw c := by
  -- The last three laws are about what stands in the parentheses, and that is an enumeration.
  have hinner (hk : f.kind ≠ .range) {inner : String}
      (h : f.clause? c = some ("(" ++ inner ++ ")")) :
      f.Enumerates c.operator c.spoken inner := by
    obtain ⟨inner', heq, henum⟩ := (clause?_eq_some_iff hk).mp h
    rwa [parenthesised_inj heq]
  refine ⟨f.isSome_clause? c, f.clause?_withoutEmpty c, fun hk text => clause?_eq_some_iff hk,
    fun hk inner h => (hinner hk h).ne_empty, fun hk inner h hin => ?_,
    fun hk inner h htrim op => ((hinner hk h).trim hf htrim).not_dangles op⟩
  -- were no term to have them, they would have to meet somewhere between the terms
  by_contra hnone
  refine apart_iff.mp ((hinner hk h).apart hf fun t ht => apart_iff.mpr fun hin' => ?_) hin
  exact hnone ⟨t, ht, hin'⟩

/-- Two empty terms and a repeated one, all excluded. -/
theorem clauseLaw_sample :
    let f : Field := ⟨"tags", .text⟩
    let c : Criterion := .grouped .not ["", "a b", "", "c", "a b"]
    let inner := "-tags: \"a b\" AND -tags: \"c\" AND -tags: \"a b\""
    f ∈ all ∧ f.clause? c = some ("(" ++ inner ++ ")") ∧
      f.clause? (.grouped .not ["a b", "c", "a b"]) = f.clause? c ∧
      ¬ Dangles " AND " inner := by
  intro f c inner
  have hf : f ∈ all := by decide
  have hlaw : f.ClauseLaw c := clauseLaw hf c
  have hclause : f.clause? c = some ("(" ++ inner ++ ")") := by decide
  have hmem : c.spoken = ["a b", "c", "a b"] := by decide
  have htrim : ∀ t ∈ c.spoken, Trim t.toList := by
    -- each of the three terms is trim
    rw [hmem]
    intro t ht
    simp only [List.mem_cons, List.not_mem_nil, or_false] at ht
    rcases ht with rfl | rfl | rfl <;> exact ⟨by decide, by decide, by decide⟩
  exact ⟨hf, hclause, hlaw.withoutEmpty, hlaw.joiners (by decide) inner hclause htrim .not⟩

end Field
end ContentSearch
