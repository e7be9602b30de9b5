import ContentSearch.Filter.Basic
import Mathlib.Data.List.Basic

/-!
# What a filter demands

Many filters ask for the same. A scalar, a list of one and a group of one differ in how they were
said and not in what they say; so do an absent criterion and an empty one, and empty terms never
count. `Filter.meaning` is what is left when the manner of saying is taken away: one entry per
field, and in it nothing or a `Demand`.

The query is a function of the meaning alone, and this module says which one: every demand is a
*sentence*, a list of words, and the query is the sentences in parentheses, put together by
`assemble`. **`Filter.toQuery_eq_assemble`** is that equation. Everything about the query text
is then a statement about words.

A single term has no neighbour, so its operator shows only where it excludes. A demand does not keep
the difference (`Demand.ofTerms`), and the sentence does not need it (`sentence_ofTerms`).
-/

set_option autoImplicit false

namespace ContentSearch

/-- What a field is asked. -/
inductive Demand
  /-- Terms under an operator. -/
  | combined (op : Operator) (terms : List String)
  /-- A number between two ends, both included. -/
  | between (low high : Int)
  deriving Repr, DecidableEq

namespace Demand

/-- A single term has no neighbour, so it does not matter whether it has to hold with its
neighbours or instead of them. -/
def ofTerms : Operator → List String → Demand
  | .and, [t] => .combined .or [t]
  | op, ts => .combined op ts

/-- Terms are no demand on a range, a range is none on terms, and an empty criterion is none at
all. -/
def ofCriterion? (kind : FieldKind) (c : Criterion) : Option Demand :=
  if c.isEmpty then none
  else
    match c with
    | .range r => if kind = .range then some (.between r.low r.high) else none
    | .scalar t => if kind = .range then none else some (.ofTerms .or [t])
    | .list ts => if kind = .range then none else some (.ofTerms .or (ts.filter (· ≠ "")))
    | .grouped op ts => if kind = .range then none else some (.ofTerms op (ts.filter (· ≠ "")))

end Demand

def Criterion.terms : Criterion → List String
  | .scalar t => [t]
  | .list ts => ts
  | .range _ => []
  | .grouped _ ts => ts

/-- Where demands come from: a range that was given to a range, or the terms that are not empty of
a criterion that has one, under some operator. -/
theorem Demand.ofCriterion?_cases {kind : FieldKind} {c : Criterion} {d : Demand}
    (h : Demand.ofCriterion? kind c = some d) :
    (kind = .range ∧ ∃ low high, d = .between low high) ∨
      kind ≠ .range ∧ (∃ t ∈ c.terms, t ≠ "")
        ∧ ∃ op, d = .ofTerms op (c.terms.filter (· ≠ "")) := by
  unfold Demand.ofCriterion? at h
  split at h
  · exact absurd h (by simp)
  · rename_i hempty
    -- whatever shape the terms had, those that are not empty are left
    cases c with
    | range r =>
      dsimp only at h
      split at h
      · rename_i hk
        exact .inl ⟨hk, r.low, r.high, (Option.some.inj h).symm⟩
      · exact absurd h (by simp)
    | scalar t =>
      have ht : t ≠ "" := by simpa [Criterion.isEmpty] using hempty
      dsimp only at h
      split at h
      · exact absurd h (by simp)
      · rename_i hk
        refine .inr ⟨hk, ⟨t, List.mem_singleton.mpr rfl, ht⟩, .or, ?_⟩
        rw [Criterion.terms, List.filter_cons_of_pos (by simpa using ht), List.filter_nil]
        exact (Option.some.inj h).symm
    | list ts =>
      dsimp only at h
      split at h
      · exact absurd h (by simp)
      · rename_i hk
        exact .inr ⟨hk, by simpa [Criterion.isEmpty, Criterion.terms] using hempty, .or,
          (Option.some.inj h).symm⟩
    | grouped op ts =>
      dsimp only at h
      split at h
      · exact absurd h (by simp)
      · rename_i hk
        exact .inr ⟨hk, by simpa [Criterion.isEmpty, Criterion.terms] using hempty, op,
          (Option.some.inj h).symm⟩

namespace Filter

def demand? (f : Filter) (field : Field) : Option Demand :=
  (f.get? field.name).bind (Demand.ofCriterion? field.kind)

/-- **What a filter asks**, field by field in the order of the fields. -/
def meaning (f : Filter) : List (Option Demand) := Field.all.map f.demand?

theorem demand?_eq_of_meaning_eq {f g : Filter} (h : f.meaning = g.meaning) {field : Field}
    (hf : field ∈ Field.all) : f.demand? field = g.demand? field :=
  List.map_inj_left.mp h field hf

end Filter

/-! ## Sentences -/

/-- The sign in front of a term. -/
def Operator.sign (op : Operator) : String := if op = .not then "-" else ""

def Operator.word : Operator → String
  | .or => "OR"
  | .and => "AND"
  | .not => "AND"

namespace Field

/-- The words of one term: its label, if the field has one, and its spelling. -/
def termWords (f : Field) (op : Operator) (t : String) : List String :=
  if f.kind = .terms then [op.sign ++ t] else [op.sign ++ f.name ++ ":", f.spell t]

def sentence (f : Field) : Demand → List String
  | .combined op ts => [op.word].intercalate (ts.map (f.termWords op))
  | .between low high =>
    [f.name ++ ":", "[" ++ String.ofList (Text.Decimal.writeInt low), "TO",
     String.ofList (Text.Decimal.writeInt high) ++ "]"]

theorem termWords_ne_nil (f : Field) (op : Operator) (t : String) : f.termWords op t ≠ [] := by
  unfold termWords
  split <;> simp

end Field

/-- Sentences in parentheses, with `AND` between neighbours. -/
def assemble (sentences : List (List String)) : String :=
  " AND ".intercalate (sentences.map fun ws => "(" ++ " ".intercalate ws ++ ")")

namespace Filter

/-- The sentence of the last clause, which every query has. -/
def exclusionWords : List String := ["-type:", "\"code attachment\""]

def sentences (f : Filter) : List (List String) :=
  Field.all.filterMap fun field => (f.demand? field).map field.sentence

end Filter

/-! ## The query is its sentences -/

theorem Operator.joiner_eq (op : Operator) : op.joiner = " " ++ op.word ++ " " := by
  cases op <;> rfl

namespace Field

theorem written_eq_words (f : Field) (op : Operator) (t : String) :
    op.sign ++ f.label ++ f.spell t = " ".intercalate (f.termWords op t) := by
  unfold termWords label
  split
  · rename_i hk
    have hspell : f.spell t = t := by simp [spell, quoted, hk]
    rw [hspell, String.intercalate_singleton, String.append_empty]
  · rw [String.intercalate_cons_cons, String.intercalate_singleton]
    simp only [String.append_assoc]
    rfl

/-- Terms in one line are the words of all of them, with the operator's word in between. -/
theorem intercalate_termWords (f : Field) (op : Operator) (ts : List String) :
    op.joiner.intercalate (ts.map fun t => " ".intercalate (f.termWords op t))
      = " ".intercalate ([op.word].intercalate (ts.map (f.termWords op))) := by
  induction ts with
  | nil => rfl
  | cons t rest ih =>
    cases rest with
    | nil => simp
    | cons u us =>
      -- the words behind the first term are not nothing, so a blank comes before them
      have hne : [op.word].intercalate (f.termWords op u :: us.map (f.termWords op)) ≠ [] := by
        intro h
        cases us with
        | nil => exact f.termWords_ne_nil op u (by simpa using h)
        | cons v vs => simp [f.termWords_ne_nil op u] at h
      simp only [List.map_cons] at ih ⊢
      rw [String.intercalate_cons_cons, List.intercalate_cons_cons, ih,
        String.intercalate_append_of_ne_nil (by simp) hne,
        String.intercalate_append_of_ne_nil (f.termWords_ne_nil op t) (by simp),
        String.intercalate_singleton, op.joiner_eq]
      simp only [String.append_assoc]

theorem combine_eq (f : Field) (op : Operator) (ts : List String) :
    f.combine op ts
      = " ".intercalate ([op.word].intercalate ((ts.filter (· ≠ "")).map (f.termWords op))) := by
  rw [← f.intercalate_termWords]
  unfold combine written
  congr 1
  exact List.map_congr_left fun t _ => f.written_eq_words op t

/-- A single term is written alike under `and` and under `or`. -/
theorem sentence_ofTerms (f : Field) (op : Operator) (ts : List String) :
    f.sentence (.ofTerms op ts) = [op.word].intercalate (ts.map (f.termWords op)) := by
  unfold Demand.ofTerms
  split
  · simp only [sentence, List.map_cons, List.map_nil, List.intercalate_singleton]
    rfl
  · rfl

/-- **A clause is the sentence of what the criterion demands.** -/
theorem clause?_eq (f : Field) (c : Criterion) :
    f.clause? c
      = ((Demand.ofCriterion? f.kind c).map f.sentence).map
          fun ws => "(" ++ " ".intercalate ws ++ ")" := by
  unfold clause? expression? Demand.ofCriterion?
  split
  · rfl
  · rename_i hne
    -- a range is its own sentence, and terms are written with one joiner in either form
    cases c with
    | range r =>
      dsimp only
      split
      · simp only [Option.map_some, sentence, String.intercalate_cons_cons,
          String.intercalate_singleton, String.append_assoc]
        rfl
      · rfl
    | scalar t =>
      have ht : [t].filter (· ≠ "") = [t] := by simpa [Criterion.isEmpty] using hne
      dsimp only
      split
      · rfl
      · rw [Option.map_some, Option.map_some, Option.map_some, sentence_ofTerms, combine_eq, ht]
    | list ts =>
      dsimp only
      split
      · rfl
      · rw [Option.map_some, Option.map_some, Option.map_some, sentence_ofTerms, combine_eq]
    | grouped op ts =>
      dsimp only
      split
      · rfl
      · rw [Option.map_some, Option.map_some, Option.map_some, sentence_ofTerms, combine_eq]

end Field

namespace Filter

theorem clauses_eq (f : Filter) :
    f.clauses = f.sentences.map fun ws => "(" ++ " ".intercalate ws ++ ")" := by
  unfold clauses sentences
  rw [List.map_filterMap]
  refine List.filterMap_congr fun field _ => ?_
  unfold demand?
  cases f.get? field.name with
  | none => rfl
  | some c => exact field.clause?_eq c

/-- **The query is put together from the sentences of the filter and the last one.** -/
theorem toQuery_eq_assemble (f : Filter) :
    f.toQuery = assemble (f.sentences ++ [exclusionWords]) := by
  unfold toQuery assemble
  rw [clauses_eq, List.map_append]
  rfl

/-- The sentences say what the filter means and nothing else. -/
theorem sentences_congr {f g : Filter} (h : f.meaning = g.meaning) : f.sentences = g.sentences :=
  List.filterMap_congr fun _ hf => by rw [demand?_eq_of_meaning_eq h hf]

end Filter
end ContentSearch
