import ContentSearch.Proofs.Keyed
import ContentSearch.Proofs.Text.Decimal
import ContentSearch.Proofs.Text.Form
import ContentSearch.Query

/-!
# The request says what the query says

A query has ten parameters that a portal gets to know. Four are always there, and the others where
the query has something to say; `parameters` is their table. The form of a query is that table
without its gaps (**`formPairs_eq`**), and the body of a request is the form, encoded so that it can
be read back. So whoever reads the body finds the parameters of the query and nothing else, each
with the query's own value for it: no value is read as a separator, and none reaches into the
parameter beside it (**`decode_formBody`**).

A query can be told from its parameters, but for its endpoint, which is where the request goes and
not what it says. Hence queries with the same body are the same query (**`compile_form_faithful`**).

Nothing is asked of what the options hold. Separators, percent signs and characters beyond ASCII
come through the form like any others.
-/

set_option autoImplicit false

namespace ContentSearch

open Text

theorem SortOrder.name_injective {a b : SortOrder} (h : a.name = b.name) : a = b := by
  cases a <;> cases b <;> first | rfl | exact absurd h (by decide)

namespace Query

/-- What a portal gets to know of a query, each name with its value if the query has one. -/
def parameters (q : Query) : Entries (Option String) :=
  [("f", some "json"), ("q", some q.text),
   ("start", some (String.ofList (Decimal.write q.page.start))),
   ("num", some (String.ofList (Decimal.write q.page.size))),
   ("sortField", q.sort.map Sorting.field), ("sortOrder", q.sort.map (·.order.name)),
   ("countFields", q.counts.map Counts.fields), ("countSize", q.counts.map fun _ => "200"),
   ("bbox", q.bbox), ("token", q.connection.credential.map Credential.secret)]

/-- The value of a parameter, where the query has one. -/
def parameter? (q : Query) (name : String) : Option String :=
  (q.parameters.find? name).join

def withoutEndpoint (q : Query) : Query :=
  { q with connection := { q.connection with endpoint := none } }

theorem nodup_parameters (q : Query) : (Entries.names q.parameters).Nodup := by
  show ["f", "q", "start", "num", "sortField", "sortOrder", "countFields", "countSize", "bbox",
    "token"].Nodup
  decide

/-- **The form is the table without its gaps.** -/
theorem formPairs_eq (q : Query) : q.formPairs = Entries.present q.parameters := by
  have hsize : String.ofList (Decimal.write Counts.size) = "200" := by decide
  unfold formPairs parameters
  rw [← hsize]
  cases q.sort <;> cases q.counts <;> cases q.bbox <;> cases q.connection.credential <;> rfl

/-- **Reading the body gives the parameters.** -/
theorem decode_formBody (q : Query) :
    Form.decode q.formBody.toList = Entries.present q.parameters := by
  rw [formBody, String.toList_ofList, Form.decode_encode, formPairs_eq]

theorem nodup_decode_formBody (q : Query) :
    (Entries.names (Form.decode q.formBody.toList)).Nodup := by
  rw [decode_formBody]
  exact (Entries.names_present q.parameters).nodup q.nodup_parameters

theorem find?_decode_formBody (q : Query) (name : String) :
    Entries.find? name (Form.decode q.formBody.toList) = q.parameter? name := by
  rw [decode_formBody, Entries.find?_present q.nodup_parameters]
  rfl

/-! ## Telling queries apart -/

theorem sort_eq {s t : Option Sorting} (hfield : s.map Sorting.field = t.map Sorting.field)
    (horder : s.map (·.order.name) = t.map (·.order.name)) : s = t := by
  cases s with
  | none =>
    cases t with
    | none => rfl
    | some t => exact absurd hfield (by simp)
  | some s =>
    cases t with
    | none => exact absurd hfield (by simp)
    | some t =>
      obtain ⟨field, order⟩ := s
      obtain ⟨field', order'⟩ := t
      have hfield' : field = field' := Option.some.inj hfield
      have horder' : order = order' := SortOrder.name_injective (Option.some.inj horder)
      rw [hfield', horder']

/-- **Queries with the same parameters** differ in their endpoint at most. -/
theorem withoutEndpoint_eq {q q' : Query} (h : ∀ name, q.parameter? name = q'.parameter? name) :
    q.withoutEndpoint = q'.withoutEndpoint := by
  have htext : some q.text = some q'.text := h "q"
  have hstart : q.page.start = q'.page.start :=
    Decimal.write_injective (String.ofList_injective (Option.some.inj (h "start")))
  have hsize : q.page.size = q'.page.size :=
    Decimal.write_injective (String.ofList_injective (Option.some.inj (h "num")))
  have hsort : q.sort = q'.sort := sort_eq (h "sortField") (h "sortOrder")
  have hcounts : q.counts.map Counts.fields = q'.counts.map Counts.fields := h "countFields"
  have hbbox : q.bbox = q'.bbox := h "bbox"
  have hsecret : q.connection.credential.map Credential.secret
      = q'.connection.credential.map Credential.secret := h "token"
  obtain ⟨text, sort, ⟨start, size⟩, counts, bbox, ⟨endpoint, credential⟩⟩ := q
  obtain ⟨text', sort', ⟨start', size'⟩, counts', bbox', ⟨endpoint', credential'⟩⟩ := q'
  simp only [Option.some.injEq] at htext hstart hsize hsort hbbox
  have hcounts' : counts = counts' :=
    Option.map_injective (fun a b hab => by cases a; cases b; cases hab; rfl) hcounts
  have hcredential : credential = credential' :=
    Option.map_injective (fun a b hab => by cases a; cases b; cases hab; rfl) hsecret
  subst htext hstart hsize hsort hbbox hcounts' hcredential
  rfl

/-- **The body tells the query.** -/
theorem formBody_eq_iff (q q' : Query) :
    q.formBody = q'.formBody ↔ q.withoutEndpoint = q'.withoutEndpoint := by
  constructor
  · intro h
    refine withoutEndpoint_eq fun name => ?_
    rw [← find?_decode_formBody, ← find?_decode_formBody, h]
  · intro h
    have hbody : ∀ q : Query, q.withoutEndpoint.formBody = q.formBody := fun _ => rfl
    rw [← hbody q, ← hbody q', h]

/-- **The body of a compiled query can be read for what the query says**: for its parameters, in
their order; under each name for the query's own value or for nothing, whatever the other values
are; and for the query itself, its endpoint aside. -/
theorem compile_form_faithful (filter : Filter) (options : Options) (service : Connection) :
    let q := compile filter options service
    Form.decode q.formBody.toList = Entries.present q.parameters ∧
      (∀ name, (Form.decode q.formBody.toList).filter (·.1 = name)
        = (q.parameter? name).toList.map (name, ·)) ∧
      ∀ filter' options' service',
        let q' := compile filter' options' service'
        q.formBody = q'.formBody ↔ q.withoutEndpoint = q'.withoutEndpoint := by
  intro q
  refine ⟨q.decode_formBody, fun name => ?_, fun filter' options' service' => ?_⟩
  · rw [Entries.filter_name q.nodup_decode_formBody, find?_decode_formBody]
  · exact formBody_eq_iff q (compile filter' options' service')

end Query
end ContentSearch
