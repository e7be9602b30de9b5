import ContentSearch.Proofs.Json.Members
import ContentSearch.Program.Run
import Mathlib

/-!
# The order in which a filter is built

A query is a good key for what it asks only if it does not depend on how its filter came about. A
filter can be built one field after the other, be made of a list, or be read from JSON, and in each
case the last criterion that a field is given stands and those before it leave no trace
(**`get?_insertAll`**, **`get?_of_parse?`**). A list that is reordered without moving the criteria
of one field past each other has the same last ones, so it makes the same filter.

A filter that is at hand can be changed by setting one field. The query then has the clauses of the
other fields as they were and in the order in which they were (**`fieldClauses_insert`**): what
changes stands in one place.

Nothing here is about what clauses say. It is the map from fields to criteria that decides, and
equal maps are equal lists (`Keyed.ext`); so reading from JSON, building in steps and building from
a list are compared as maps.
-/

set_option autoImplicit false

namespace ContentSearch

open Entries (last? Reordered)

namespace Filter

theorem ext {f g : Filter} (h : ∀ k, f.get? k = g.get? k) : f = g := by
  cases f
  cases g
  exact congrArg Filter.mk (Keyed.ext h)

/-! ## Built step by step -/

/-- Sets one field after the other. -/
def insertAll (f : Filter) (es : List (String × Criterion)) : Filter :=
  es.foldl (fun g e => g.insert e.1 e.2) f

theorem entries_insertAll (f : Filter) (es : List (String × Criterion)) :
    (f.insertAll es).criteria.entries = Entries.insertAll f.criteria.entries es := by
  induction es generalizing f with
  | nil => rfl
  | cons e r ih => exact ih (f.insert e.1 e.2)

/-- **The last criterion of a field stands.** -/
theorem get?_insertAll (f : Filter) (es : List (String × Criterion)) (k : String) :
    (f.insertAll es).get? k = (last? k es).or (f.get? k) := by
  show Entries.find? k (f.insertAll es).criteria.entries = _
  rw [entries_insertAll, Entries.find?_insertAll_last]
  rfl

theorem ofList_eq_insertAll (es : List (String × Criterion)) : ofList es = empty.insertAll es := by
  have hbuilt : ∀ m : Keyed Criterion,
      (⟨es.foldl (fun m e => m.insert e.1 e.2) m⟩ : Filter) = insertAll ⟨m⟩ es := by
    induction es with
    | nil => exact fun m => rfl
    | cons e r ih => exact fun m => ih (m.insert e.1 e.2)
  exact hbuilt .empty

theorem get?_ofList (es : List (String × Criterion)) (k : String) :
    (ofList es).get? k = last? k es := by
  rw [ofList_eq_insertAll, get?_insertAll]
  exact Option.or_none

theorem insertAll_reordered (f : Filter) {es fs : List (String × Criterion)}
    (h : Reordered es fs) : f.insertAll es = f.insertAll fs :=
  ext fun k => by rw [get?_insertAll, get?_insertAll, h.last?_eq]

/-! ## Read from JSON -/

theorem ofJson_reordered {ms ms' : Entries Json.Value} (h : Reordered ms ms') :
    ofJson (.object ms) = ofJson (.object ms') := by
  show ofList _ = ofList _
  rw [ofList_eq_insertAll, ofList_eq_insertAll]
  exact insertAll_reordered empty (h.filterMap Criterion.ofJson?)

theorem get?_ofJson {ms : Entries Json.Value} (h : (Entries.names ms).Nodup) (k : String) :
    (ofJson (.object ms)).get? k = (Entries.find? k ms).bind Criterion.ofJson? := by
  show (ofList _).get? k = _
  rw [get?_ofList]
  exact Entries.last?_filterMap h Criterion.ofJson? k

/-- **The last member of a name decides**, and it leaves the field out if it has no reading. -/
theorem get?_of_parse? {text : String} {members : List (Option String × Json.Document)}
    (hobject : Json.Document.parse? text = some (.object members)) {f : Filter}
    (hf : parse? text = some f) (k : String) :
    f.get? k = (last? (some k) members).bind fun d =>
      (d.toValue? (Json.maxDepth - 1)).bind Criterion.ofJson? := by
  obtain ⟨v, hv, rfl⟩ := Option.map_eq_some_iff.mp hf
  obtain ⟨d, hd, hv⟩ := Option.bind_eq_some_iff.mp hv
  cases hobject.symm.trans hd
  -- the value has the last member of each name, and has it once
  obtain ⟨es, rfl, hsorted, hes⟩ := Json.Document.find?_of_toValue? hv
  rw [get?_ofJson hsorted.nodup_names, hes, Option.bind_assoc]
  rfl

/-- Texts of objects whose members are the same in another order have the same value. -/
theorem parse?_reordered {text text' : String}
    {members members' : List (Option String × Json.Document)}
    (hobject : Json.Document.parse? text = some (.object members))
    (hobject' : Json.Document.parse? text' = some (.object members'))
    (h : Reordered members members') : Json.Value.parse? text = Json.Value.parse? text' := by
  have hvalue : ∀ {t : String} {ms : List (Option String × Json.Document)},
      Json.Document.parse? t = some (.object ms) →
        Json.Value.parse? t = Json.Document.toValue? Json.maxDepth (.object ms) := by
    intro t ms ht
    show (Json.Document.parse? t).bind (Json.Document.toValue? Json.maxDepth) = _
    rw [ht, Option.bind_some]
  rw [hvalue hobject, hvalue hobject', Json.Document.toValue?_reordered h]

/-! ## One field set anew -/

/-- The clauses with the names of their fields, in the order of the fields. -/
def fieldClauses (f : Filter) : List (String × String) :=
  Field.all.filterMap fun field => ((f.get? field.name).bind field.clause?).map (field.name, ·)

theorem clauses_eq_map (f : Filter) : f.clauses = f.fieldClauses.map Prod.snd := by
  rw [clauses, fieldClauses, List.map_filterMap]
  refine List.filterMap_congr fun field _ => ?_
  rw [Option.map_map]
  exact Option.map_id'.symm

/-- **The clauses of the other fields stay**, and so does their order. -/
theorem fieldClauses_insert (f : Filter) (k : String) (c : Criterion) :
    (f.insert k c).fieldClauses.filter (·.1 ≠ k) = f.fieldClauses.filter (·.1 ≠ k) := by
  rw [fieldClauses, fieldClauses, List.filter_filterMap, List.filter_filterMap]
  refine List.filterMap_congr fun field _ => ?_
  -- the field that is set has no clause left to compare, and the others find what they found
  by_cases hk : field.name = k
  · have hleft : ∀ o : Option String,
        (o.map (field.name, ·)).filter (fun e => decide (e.1 ≠ k)) = none := by
      intro o
      cases o <;> simp [hk]
    rw [hleft, hleft]
  · rw [get?_insert, if_neg hk]

theorem fieldClauses_applyTerms (q : QueryArguments) (f : Filter) :
    (q.applyTerms f).fieldClauses.filter (·.1 ≠ "terms")
      = f.fieldClauses.filter (·.1 ≠ "terms") := by
  unfold QueryArguments.applyTerms
  split
  · exact f.fieldClauses_insert "terms" _
  · rfl

/-- A query looks at the criteria of the fields and at nothing else. -/
theorem toQuery_congr {f g : Filter}
    (h : ∀ field ∈ Field.all, f.get? field.name = g.get? field.name) : f.toQuery = g.toQuery := by
  have hclauses : f.clauses = g.clauses :=
    List.filterMap_congr fun field hfield => by rw [h field hfield]
  rw [toQuery, toQuery, hclauses]

/-- **The last criteria decide, however a filter came about.** Built one after the other, made of a
list or read from an object, what is reordered under different names is the same filter; a query
depends on the last criteria of the fields only; and a field that is set anew leaves the clauses of
the others as they are, in their order. -/
theorem last_criteria_decide :
    (∀ es fs : List (String × Criterion), Reordered es fs →
      ofList es = ofList fs ∧ (∀ f : Filter, f.insertAll es = f.insertAll fs) ∧
        ofList es = empty.insertAll fs ∧ (ofList es).toQuery = (ofList fs).toQuery) ∧
    (∀ es fs : List (String × Criterion),
      (∀ field ∈ Field.all, last? field.name es = last? field.name fs) →
        (ofList es).toQuery = (ofList fs).toQuery) ∧
    (∀ ms ms', Reordered ms ms' → ofJson (.object ms) = ofJson (.object ms')) ∧
    (∀ text text' members members', Json.Document.parse? text = some (.object members) →
      Json.Document.parse? text' = some (.object members') → Reordered members members' →
        (Json.Value.parse? text).map ofJson = (Json.Value.parse? text').map ofJson ∧
          parse? text = parse? text') ∧
    (∀ text members f, Json.Document.parse? text = some (.object members) →
      parse? text = some f → ∀ k, f.get? k = (last? (some k) members).bind fun d =>
        (d.toValue? (Json.maxDepth - 1)).bind Criterion.ofJson?) ∧
    (∀ f : Filter, f.clauses = f.fieldClauses.map Prod.snd ∧
      (∀ k c, (f.insert k c).fieldClauses.filter (·.1 ≠ k) = f.fieldClauses.filter (·.1 ≠ k)) ∧
      ∀ q : QueryArguments, (q.applyTerms f).fieldClauses.filter (·.1 ≠ "terms")
        = f.fieldClauses.filter (·.1 ≠ "terms")) := by
  refine ⟨fun es fs h => ?_, fun es fs h => ?_, fun ms ms' h => ofJson_reordered h,
    fun text text' members members' hobject hobject' h => ?_,
    fun text members f hobject hf k => get?_of_parse? hobject hf k,
    fun f => ⟨f.clauses_eq_map, f.fieldClauses_insert, fun q => fieldClauses_applyTerms q f⟩⟩
  · -- a list is inserted into the empty filter, so this is the case of any filter
    have hsame : ofList es = ofList fs := by
      rw [ofList_eq_insertAll, ofList_eq_insertAll, insertAll_reordered empty h]
    exact ⟨hsame, fun f => insertAll_reordered f h, hsame.trans (ofList_eq_insertAll fs),
      congrArg toQuery hsame⟩
  · exact toQuery_congr fun field hfield => by rw [get?_ofList, get?_ofList, h field hfield]
  · have hvalue := parse?_reordered hobject hobject' h
    exact ⟨congrArg _ hvalue, by rw [parse?, parse?, hvalue]⟩

/-- A title that is given twice, the second time by a number: it is left out wherever the tags
stand, and setting the terms of what was read changes nothing else. -/
theorem last_criteria_decide_sample :
    let title := (some "title", Json.Document.scalar (.string (some "a")))
    let again := (some "title", Json.Document.scalar (.numeral ⟨false, ['7'], [], none⟩))
    let tags := (some "tags", Json.Document.scalar (.string (some "b")))
    let early := "\x7b\"tags\":\"b\",\"title\":\"a\",\"title\":7\x7d"
    let late := "\x7b\"title\":\"a\",\"title\":7,\"tags\":\"b\"\x7d"
    Reordered [tags, title, again] [title, again, tags] ∧ parse? early = parse? late ∧
      ∃ f, parse? early = some f ∧ f.get? "title" = none ∧
        (f.insert "terms" (.scalar "c")).clauses = ["(c)", "(tags: \"b\")"] := by
  intro title again tags early late
  obtain ⟨-, -, -, hreordered, hlast, -⟩ := last_criteria_decide
  have hearly : Json.Document.parse? early = some (.object [tags, title, again]) := by cbv
  have hlate : Json.Document.parse? late = some (.object [title, again, tags]) := by cbv
  have h : Reordered [tags, title, again] [title, again, tags] := by
    intro k
    -- only the titles are two, and they keep their order
    by_cases htags : some "tags" = k
    · subst htags
      rfl
    · by_cases htitle : some "title" = k
      · subst htitle
        rfl
      · simp [title, again, tags, htags, htitle]
  have hf : parse? early = some (ofList [("tags", .scalar "b")]) := by
    decide +kernel
  refine ⟨h, (hreordered _ _ _ _ hearly hlate h).2, _, hf, ?_, by decide⟩
  rw [hlast _ _ _ hearly hf]
  rfl

end Filter
end ContentSearch
