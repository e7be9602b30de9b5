import ContentSearch.Proofs.Json.Settled
import ContentSearch.Proofs.Portal.Arrival
import ContentSearch.Proofs.Portal.PageBody
import Mathlib

/-!
# Pages that are written and read again

A page can be read from a text in two ways, straight from the document or from the value that the
document has, and it is written in one. Whichever way it came, writing it and reading it again loses
nothing, as long as there are no doubles in its results and its aggregations
(**`Page.reread`**): reading has brought its numbers into their ranges and its values into their
order, and that is all that reading asks for the second time.

The names are the ones that the portal uses, a field that was missing comes back as its default, and
aggregations that are missing are not written at all.

Both readers come to one description of a page, by the fields that are found (`ReadFrom`), and so do
the members that a page is written as (`readFrom_members`). What goes round is that the page is
settled: it is proved of every page that comes in (**`settled_of_read`**), and it is what the two
readers of a written page ask for (`parse?_render`, `ofText?_render`). None of the members is named
`error`, or the page that was written would be read as a complaint.
-/

set_option autoImplicit false

namespace ContentSearch.Page

open Json (Value Document)

/-- The page that a text is read as by way of its value, as the body of an answer is. -/
def ofText? (text : String) : Option Page := (Value.parse? text).bind ofJson?

/-- A page whose numbers are in range and whose values have been read. -/
structure Settled (p : Page) : Prop where
  total : p.total < Nat.pow 2 64
  start : IsInt64 p.start
  size : p.size < Nat.pow 2 32
  nextStart : IsInt64 p.nextStart
  results : (Value.array p.results).Settled (Json.maxDepth - 1)
  aggregations : ∀ a ∈ p.aggregations, a ≠ .null ∧ a.Settled (Json.maxDepth - 1)

/-! ## What was read is settled -/

/-- Whatever is found under the name of a field is settled, if it has no doubles. -/
def FoundSettled (found : String → Option Value) : Prop :=
  ∀ k ∈ fieldNames, ∀ v, found k = some v → v.doubleFree → v.Settled (Json.maxDepth - 1)

theorem ReadFrom.settled {p : Page} {found : String → Option Value} (h : p.ReadFrom found)
    (hfound : FoundSettled found) (hresults : Value.allDoubleFree p.results)
    (haggregations : ∀ a ∈ p.aggregations, a.doubleFree) : p.Settled where
  total := h.total.inRange (by decide)
  start := h.start.inRange (by decide)
  size := h.size.inRange (by decide)
  nextStart := h.nextStart.inRange (by decide)
  -- the values under the other two names were read themselves
  results := by
    rcases h.results with ⟨-, hnone⟩ | ⟨hsome, -⟩
    · rw [hnone]
      exact .array nofun
    · exact hfound "results" (by decide) _ hsome hresults
  aggregations := by
    intro a ha
    rcases h.aggregations with ⟨-, hnone⟩ | ⟨hsome, hnull⟩
    · rw [hnone] at ha
      cases ha
    · rw [ha] at hsome hnull
      refine ⟨fun heq => hnull (congrArg some heq), ?_⟩
      exact hfound "aggregations" (by decide) a hsome (haggregations a ha)

/-- The items of an array are found under the names in their places. -/
theorem foundSettled_zip {items : List Document} {vs : List Value}
    (h : Document.toValues? (Json.maxDepth - 1) items = some vs) :
    FoundSettled fun k => Entries.find? k (fieldNames.zip vs) := by
  intro k _ v hv
  have hmem : v ∈ vs := (List.of_mem_zip (Entries.mem_of_find? hv)).2
  exact Value.settled_of_toValues? _ items h v hmem

theorem readFrom_of_ofDocument? {d : Document} {p : Page} (h : ofDocument? d = some p) :
    ∃ found, FoundSettled found ∧ p.ReadFrom found := by
  obtain ⟨es, hes, hp⟩ := Option.bind_eq_some_iff.mp h
  refine ⟨_, ?_, ofFields?_eq_some_iff.mp hp⟩
  -- a record is read from an array by position and from an object by name
  cases d with
  | scalar s => cases hes
  | array items =>
    rw [Document.record?] at hes
    split at hes
    · rename_i vs hvs
      unfold Json.alongside? at hes
      split at hes
      · cases hes
        exact foundSettled_zip hvs
      · cases hes
    · cases hes
  | object members =>
    intro k hk v hv
    have hunder := (Document.fields?_eq_some hes).2 k hk
    have hfind : es.find? k = some v := hv
    rw [hfind] at hunder
    obtain ⟨d, -, hd⟩ := Document.valuesUnder_eq_singleton_iff.mp hunder
    exact Value.settled_of_toValue? _ d hd

theorem readFrom_of_ofJson? {d : Document} {v : Value} {p : Page}
    (hd : d.toValue? Json.maxDepth = some v) (h : ofJson? v = some p) :
    ∃ found, FoundSettled found ∧ p.ReadFrom found := by
  have hdepth : Json.maxDepth = Json.maxDepth - 1 + 1 := rfl
  rw [hdepth] at hd
  cases d with
  | scalar s =>
    rw [ofJson?_of_scalar hd] at h
    cases h
  | array items =>
    obtain ⟨vs, hvs, rfl⟩ := Option.map_eq_some_iff.mp hd
    exact ⟨_, foundSettled_zip hvs, (ofJson?_array_iff.mp h).2⟩
  | object members =>
    -- under each name the value is that of the last member there
    obtain ⟨es, rfl, -, hfind⟩ := Document.find?_of_toValue? hd
    refine ⟨_, fun k _ w hw => ?_, ofJson?_object_iff.mp h⟩
    rw [hfind] at hw
    obtain ⟨d, -, hd⟩ := Option.bind_eq_some_iff.mp hw
    exact Value.settled_of_toValue? _ d hd

/-- **A page that was read is settled**, whichever way it was read. -/
theorem settled_of_read {text : String} {p : Page}
    (h : parse? text = some p ∨ ofText? text = some p) (hresults : Value.allDoubleFree p.results)
    (haggregations : ∀ a ∈ p.aggregations, a.doubleFree) : p.Settled := by
  -- both ways end with fields that were read from what was found, and that is all that counts
  have hread : ∃ found, FoundSettled found ∧ p.ReadFrom found := by
    rcases h with h | h
    · obtain ⟨d, -, hp⟩ := Option.bind_eq_some_iff.mp h
      exact readFrom_of_ofDocument? hp
    · obtain ⟨v, hv, hp⟩ := Option.bind_eq_some_iff.mp h
      obtain ⟨d, -, hd⟩ := Option.bind_eq_some_iff.mp hv
      exact readFrom_of_ofJson? hd hp
  obtain ⟨found, hfound, hp⟩ := hread
  exact hp.settled hfound hresults haggregations

/-! ## What is settled is read again -/

/-- The members that a page is written as. -/
def members (p : Page) : Entries Value :=
  [("total", .nat p.total), ("start", .int p.start), ("num", .nat p.size),
    ("nextStart", .int p.nextStart), ("results", .array p.results)]
    ++ match p.aggregations with
      | some a => [("aggregations", a)]
      | none => []

theorem names_members (p : Page) :
    Entries.names p.members
      = ["total", "start", "num", "nextStart", "results"]
        ++ if p.aggregations.isSome then ["aggregations"] else [] := by
  unfold members
  cases p.aggregations <;> rfl

theorem nodup_names_members (p : Page) : (Entries.names p.members).Nodup := by
  rw [names_members]
  split <;> decide

theorem find?_error_members (p : Page) : Entries.find? "error" p.members = none := by
  refine Entries.find?_eq_none ?_
  rw [names_members]
  split <;> decide

theorem mem_names_members (p : Page) :
    "aggregations" ∈ Entries.names p.members ↔ p.aggregations.isSome := by
  rw [names_members]
  split
  · rename_i hsome
    exact iff_of_true (by decide) hsome
  · rename_i hnone
    exact iff_of_false (by decide) hnone

theorem document_render (p : Page) :
    Document.parse? p.toJson.render = some (.object (Value.memberDocuments p.members)) := by
  rw [Document.parse?, Value.render, String.toList_ofList, Document.read?_compact]
  rfl

namespace Settled

variable {p : Page}

/-- A page is read from the members that it is written as. -/
theorem readFrom_members (h : p.Settled) : p.ReadFrom fun k => Entries.find? k p.members where
  total := .inr ⟨rfl, h.total⟩
  start := .inr ⟨rfl, h.start⟩
  size := .inr ⟨rfl, h.size⟩
  nextStart := .inr ⟨rfl, h.nextStart⟩
  results := .inr ⟨rfl, trivial⟩
  aggregations := by
    have haggregations := h.aggregations
    unfold members
    cases ha : p.aggregations with
    | none => exact .inl ⟨rfl, rfl⟩
    | some a => exact .inr ⟨rfl, fun heq => (haggregations a ha).1 (Option.some.inj heq)⟩

theorem settled_member (h : p.Settled) {k : String} {v : Value} (hv : (k, v) ∈ p.members) :
    v.Settled (Json.maxDepth - 1) := by
  have hnat : ∀ {n : Nat}, n < Nat.pow 2 64 → (Value.nat n).Settled (Json.maxDepth - 1) :=
    fun hn => Value.settled_int (by omega) (Int.ofNat_lt.mpr hn)
  have hint : ∀ {n : Int}, IsInt64 n → (Value.int n).Settled (Json.maxDepth - 1) :=
    fun hn => Value.settled_int hn.1 (Int.lt_trans hn.2 (by decide))
  unfold members at hv
  -- four numbers and the results, and the aggregations if there are any
  rcases List.mem_append.mp hv with hv | hv
  · simp only [List.mem_cons, Prod.mk.injEq, List.not_mem_nil, or_false] at hv
    rcases hv with ⟨-, rfl⟩ | ⟨-, rfl⟩ | ⟨-, rfl⟩ | ⟨-, rfl⟩ | ⟨-, rfl⟩
    · exact hnat h.total
    · exact hint h.start
    · exact hnat (Nat.lt_trans h.size (by decide))
    · exact hint h.nextStart
    · exact h.results
  · split at hv
    · rename_i ha
      cases List.mem_singleton.mp hv
      exact (h.aggregations v ha).2
    · cases hv

/-- The document of a written page is read as the page. -/
theorem parse?_render (h : p.Settled) : parse? p.toJson.render = some p := by
  have hfields := Document.fields?_memberDocuments fieldNames (nodup_names_members p)
    fun _ _ hv => h.settled_member hv
  rw [parse?, document_render, Option.bind_some, ofDocument?, Document.record?, hfields,
    Option.bind_some, ofFields?_eq_some_iff]
  exact (ReadFrom.congr fun k hk => Entries.find?_filter hk p.members).mpr h.readFrom_members

/-- So is its value, the members of which are sorted. -/
theorem value_render (h : p.Settled) :
    ∃ es, Value.parse? p.toJson.render = some (.object es) ∧
      ∀ k, Entries.find? k es = Entries.find? k p.members := by
  -- none of the members lies too deep, and their order is not looked at
  have hfits : p.toJson.fits Json.maxDepth :=
    Value.membersFit_of fun _ _ hv => (h.settled_member hv).fits
  refine ⟨Value.sortedIn p.members, Value.parse?_render hfits, fun k => ?_⟩
  rw [Value.sortedIn, Value.sortedMembers_eq_self fun _ _ hv => h.settled_member hv,
    Entries.find?_insertAll (nodup_names_members p)]
  exact Option.or_none

theorem ofText?_render (h : p.Settled) : ofText? p.toJson.render = some p := by
  obtain ⟨es, hes, hfind⟩ := h.value_render
  rw [ofText?, hes, Option.bind_some, ofJson?_object_iff]
  exact (ReadFrom.congr fun k _ => hfind k).mpr h.readFrom_members

end Settled

/-- **Writing a page and reading it again loses nothing.** A page that was read from a text, in
either way and without doubles in its values, is written as a text that is read as the same page in
both ways, and is the same page as the body of an answer. So the page behind it is the same too, and
the text has aggregations exactly if the page has. -/
theorem reread {text : String} {p : Page} (h : parse? text = some p ∨ ofText? text = some p)
    (hresults : Value.allDoubleFree p.results)
    (haggregations : ∀ a ∈ p.aggregations, a.doubleFree) :
    (parse? p.toJson.render = some p ∧ ofText? p.toJson.render = some p ∧
        ∀ attempt most,
          (Answer.saying 200 none p.toJson.render).verdict attempt most = .ok (.success p)) ∧
      (∀ r, parse? p.toJson.render = some r ∨ ofText? p.toJson.render = some r →
        r.next? = p.next?) ∧
      ∃ members, Document.parse? p.toJson.render = some (.object members) ∧
        (some "aggregations" ∈ members.map Prod.fst ↔ p.aggregations.isSome) := by
  have hsettled := settled_of_read h hresults haggregations
  have hparse := hsettled.parse?_render
  have htext := hsettled.ofText?_render
  refine ⟨⟨hparse, htext, fun attempt most => ?_⟩, ?_, _, document_render p, ?_⟩
  · -- as the body of an answer it has no error in it, so the look for one lets it through
    obtain ⟨es, hes, hfind⟩ := hsettled.value_render
    have hpage : ofJson? (.object es) = some p := by
      rw [ofText?, hes] at htext
      exact htext
    have herror : (Value.object es).get? "error" = none := (hfind "error").trans
      (find?_error_members p)
    rw [Answer.verdict_eq_success_iff_result, Answer.result_eq_ok_iff, Answer.text_saying]
    exact ⟨rfl, _, hes, herror, hpage⟩
  · rintro r (hr | hr)
    · rw [Option.some.inj (hr.symm.trans hparse)]
    · rw [Option.some.inj (hr.symm.trans htext)]
  · rw [Value.names_memberDocuments, List.mem_map, ← mem_names_members]
    simp

/-- Members out of their order, an escape that nobody needs, the greatest integer that there is, and
aggregations that are null. -/
theorem reread_sample :
    let text :=
      "\x7b\"results\":[\x7b\"b\":\"\\/\",\"a\":18446744073709551615\x7d],\"aggregations\":null\x7d"
    ∃ p : Page, parse? text = some p ∧
      p.results.map Value.render = ["\x7b\"a\":18446744073709551615,\"b\":\"/\"\x7d"] ∧
      parse? p.toJson.render = some p ∧
      ∃ members, Document.parse? p.toJson.render = some (.object members) ∧
        some "aggregations" ∉ members.map Prod.fst := by
  intro text
  have hdocument : Document.parse? text = some (.object
      [(some "results", .array [.object [(some "b", .scalar (.string (some "/"))),
        (some "a", .scalar (.numeral ⟨false, "18446744073709551615".toList, [], none⟩))]]),
      (some "aggregations", .scalar .null)]) := by
    dsimp only [text]
    cbv
  have hread := congrArg (Option.bind · ofDocument?) hdocument
  obtain ⟨⟨hparse, -⟩, -, members, hmembers, hkey⟩ := reread (.inl hread) (by decide) (by decide)
  exact ⟨_, hread, by decide, hparse, members, hmembers,
    fun hmem => Bool.false_ne_true (hkey.mp hmem)⟩

end ContentSearch.Page
