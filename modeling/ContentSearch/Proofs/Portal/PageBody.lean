import ContentSearch.Proofs.Json.Members
import ContentSearch.Proofs.Json.Record
import ContentSearch.Proofs.Portal.Verdict

/-!
# The bodies that are pages

An answer is a page of results after four readers have let it through: the status, the JSON parser,
the look for an error, and the reader of pages, which has something to put in the place of every
field that is missing. The last one is easily pleased, so a body that the others let through by
mistake would be an empty page, and the program would end well.

What they let through together is said here without them. A page is read from its fields, each of
which is missing or has the type and the range of its number or list (`Page.ReadFrom`), and the
fields are the last members of their names in an object without an error, or the items of an array
in their places (`Page.Body`). The array is nobody's format: a page is read as a record, and records
are read from arrays too. An answer is reported as a page exactly if its status is one of success
and its body is such a document, whatever its header says and however often it was sent
(**`Answer.success_iff_body`**).
-/

set_option autoImplicit false

namespace ContentSearch

/-! ## Fields -/

theorem Json.Value.asInt?_eq_some_iff {v : Value} {n : Int} : v.asInt? = some n ↔ v = int n := by
  constructor
  · intro h
    unfold asInt? at h
    split at h
    · cases h
      rfl
    · cases h
  · rintro rfl
    rfl

/-- A whole number of 64 bits with a sign. -/
def IsInt64 (n : Int) : Prop := -Nat.pow 2 63 ≤ n ∧ n < Nat.pow 2 63

instance (n : Int) : Decidable (IsInt64 n) := inferInstanceAs (Decidable (_ ∧ _))

theorem Json.Value.asInt64?_eq_some_iff {v : Value} {n : Int} :
    v.asInt64? = some n ↔ v = int n ∧ IsInt64 n := by
  unfold asInt64?
  cases h : v.asInt? with
  | none =>
    refine iff_of_false nofun fun hv => ?_
    rw [asInt?_eq_some_iff.mpr hv.1] at h
    cases h
  | some m =>
    obtain rfl := asInt?_eq_some_iff.mp h
    have hint : int m = int n ↔ m = n := by simp [int]
    rw [hint]
    show (if IsInt64 m then some m else none) = some n ↔ _
    constructor
    · intro hm
      obtain ⟨hrange, hm⟩ := Option.ite_none_right_eq_some.mp hm
      cases hm
      exact ⟨rfl, hrange⟩
    · rintro ⟨rfl, hrange⟩
      exact if_pos hrange

theorem Json.Value.asArray?_eq_some_iff {v : Value} {items : List Value} :
    v.asArray? = some items ↔ v = .array items := by
  constructor
  · intro h
    unfold asArray? at h
    split at h
    · cases h
      rfl
    · cases h
  · rintro rfl
    rfl

namespace Page

theorem nullable_eq_some_iff {v : Json.Value} {o : Option Json.Value} :
    nullable v = some o ↔ v = o.getD .null ∧ o ≠ some .null := by
  unfold nullable
  -- null is read as a missing value, so a value that is there is never null
  split
  · constructor
    · intro h
      cases h
      exact ⟨rfl, nofun⟩
    · rintro ⟨hv, hnull⟩
      cases o with
      | none => rfl
      | some w => exact absurd (congrArg some hv.symm) hnull
  · rename_i hnull
    constructor
    · intro h
      cases h
      exact ⟨rfl, fun hv => hnull (Option.some.inj hv)⟩
    · rintro ⟨hv, -⟩
      cases o with
      | none => exact absurd hv hnull
      | some w => exact congrArg (some ∘ some) hv

/-- What was found in the place of a field is nothing, and the field has its default, or it is the
field as it is spelled, and that is one of those that there can be. -/
def FieldIs {α : Type} (found : Option Json.Value) (default : α) (spelled : α → Json.Value)
    (inRange : α → Prop) (x : α) : Prop :=
  (found = none ∧ x = default) ∨ (found = some (spelled x) ∧ inRange x)

/-- A field is in range if its default is. -/
theorem FieldIs.inRange {α : Type} {found : Option Json.Value} {default x : α}
    {spelled : α → Json.Value} {inRange : α → Prop} (h : FieldIs found default spelled inRange x)
    (hdefault : inRange default) : inRange x := by
  rcases h with ⟨-, rfl⟩ | ⟨-, hx⟩
  · exact hdefault
  · exact hx

theorem field?_eq_some_iff {α : Type} {read : Json.Value → Option α} (spelled : α → Json.Value)
    (inRange : α → Prop) {x : α} (hread : ∀ v, read v = some x ↔ v = spelled x ∧ inRange x)
    (es : Entries Json.Value) (name : String) (default : α) :
    Json.field? es name default read = some x ↔
      FieldIs (es.find? name) default spelled inRange x := by
  unfold Json.field? FieldIs
  cases es.find? name with
  | none => simp [eq_comm]
  | some v => simp [hread v]

/-- **The fields of a page**, from what was found under their names. Only the aggregations may be
null, and then they are missing. -/
structure ReadFrom (p : Page) (found : String → Option Json.Value) : Prop where
  total : FieldIs (found "total") 0 .nat (· < Nat.pow 2 64) p.total
  start : FieldIs (found "start") 0 .int IsInt64 p.start
  size : FieldIs (found "num") 0 .nat (· < Nat.pow 2 32) p.size
  nextStart : FieldIs (found "nextStart") (-1) .int IsInt64 p.nextStart
  results : FieldIs (found "results") [] .array (fun _ => True) p.results
  aggregations : FieldIs (found "aggregations") none (·.getD .null) (· ≠ some .null) p.aggregations

/-- Nothing is looked up under other names. -/
theorem ReadFrom.congr {p : Page} {found found' : String → Option Json.Value}
    (h : ∀ k ∈ fieldNames, found k = found' k) : p.ReadFrom found ↔ p.ReadFrom found' := by
  -- one direction is enough, since agreement goes both ways
  have himp : ∀ {f g : String → Option Json.Value}, (∀ k ∈ fieldNames, f k = g k) →
      p.ReadFrom f → p.ReadFrom g := by
    intro f g hfg hf
    exact
      { total := hfg "total" (by decide) ▸ hf.total
        start := hfg "start" (by decide) ▸ hf.start
        size := hfg "num" (by decide) ▸ hf.size
        nextStart := hfg "nextStart" (by decide) ▸ hf.nextStart
        results := hfg "results" (by decide) ▸ hf.results
        aggregations := hfg "aggregations" (by decide) ▸ hf.aggregations }
  exact ⟨himp h, himp fun k hk => (h k hk).symm⟩

theorem natField_iff (es : Entries Json.Value) (name : String) (default limit n : Nat) :
    Json.field? es name default (Json.Value.asNat? limit) = some n ↔
      FieldIs (es.find? name) default .nat (· < limit) n :=
  field?_eq_some_iff .nat (· < limit) (fun _ => Json.Value.asNat?_eq_some_iff) es name default

theorem intField_iff (es : Entries Json.Value) (name : String) (default n : Int) :
    Json.field? es name default Json.Value.asInt64? = some n ↔
      FieldIs (es.find? name) default .int IsInt64 n :=
  field?_eq_some_iff .int IsInt64 (fun _ => Json.Value.asInt64?_eq_some_iff) es name default

theorem arrayField_iff (es : Entries Json.Value) (name : String) (default items : List Json.Value) :
    Json.field? es name default Json.Value.asArray? = some items ↔
      FieldIs (es.find? name) default .array (fun _ => True) items :=
  field?_eq_some_iff .array (fun _ => True)
    (fun _ => by rw [and_true]; exact Json.Value.asArray?_eq_some_iff) es name default

theorem nullableField_iff (es : Entries Json.Value) (name : String) (o : Option Json.Value) :
    Json.field? es name none nullable = some o ↔
      FieldIs (es.find? name) none (·.getD .null) (· ≠ some .null) o :=
  field?_eq_some_iff (·.getD .null) (· ≠ some .null) (fun _ => nullable_eq_some_iff) es name none

theorem ofFields?_eq_some_iff {es : Entries Json.Value} {p : Page} :
    ofFields? es = some p ↔ p.ReadFrom fun k => es.find? k := by
  -- Reading the fields one after the other succeeds exactly if each of them can be read by itself.
  simp only [ofFields?, Option.bind_eq_bind, Option.bind_eq_some_iff, Option.pure_def,
    Option.some.injEq, natField_iff, intField_iff, arrayField_iff, nullableField_iff]
  constructor
  · rintro ⟨_, h₁, _, h₂, _, h₃, _, h₄, _, h₅, _, h₆, rfl⟩
    exact ⟨h₁, h₂, h₃, h₄, h₅, h₆⟩
  · rintro ⟨h₁, h₂, h₃, h₄, h₅, h₆⟩
    exact ⟨_, h₁, _, h₂, _, h₃, _, h₄, _, h₅, _, h₆, rfl⟩

theorem ofJson?_object_iff {members : Entries Json.Value} {p : Page} :
    ofJson? (.object members) = some p ↔ p.ReadFrom fun k => members.find? k := by
  show ofFields? (members.filter fun e => e.1 ∈ fieldNames) = some p ↔ _
  rw [ofFields?_eq_some_iff]
  exact ReadFrom.congr fun k hk => Entries.find?_filter hk members

theorem ofJson?_array_iff {items : List Json.Value} {p : Page} :
    ofJson? (.array items) = some p ↔
      items.length ≤ fieldNames.length
        ∧ p.ReadFrom fun k => Entries.find? k (fieldNames.zip items) := by
  show (Json.alongside? fieldNames items).bind ofFields? = some p ↔ _
  unfold Json.alongside?
  split
  · rename_i hlength
    rw [Option.bind_some, ofFields?_eq_some_iff]
    exact (and_iff_right hlength).symm
  · rename_i hlength
    rw [Option.bind_none]
    exact iff_of_false (Option.some_ne_none p).symm fun h => hlength h.1

/-! ## Bodies -/

/-- **The documents that are read as a page.** Every name in them spells a text, and every value can
be read. -/
inductive Body (p : Page) : Json.Document → Prop
  /-- An object without an error. Of two members with one name the later one counts. -/
  | object {members : List (Option String × Json.Document)} {es : Entries Json.Value}
      (hvalues : List.Forall₂ (fun m e => m.1 = some e.1 ∧
        m.2.toValue? (Json.maxDepth - 1) = some e.2) members es)
      (herror : ∀ m ∈ members, m.1 ≠ some "error")
      (hfields : p.ReadFrom fun k => Entries.last? k es) : Body p (.object members)
  /-- The first few of the fields without their names. -/
  | array {items : List Json.Document} {vs : List Json.Value}
      (hvalues : List.Forall₂ (fun d v => d.toValue? (Json.maxDepth - 1) = some v) items vs)
      (hlength : vs.length ≤ fieldNames.length)
      (hfields : p.ReadFrom fun k => Entries.find? k (fieldNames.zip vs)) : Body p (.array items)

theorem names_of_forall₂ {room : Nat} {members : List (Option String × Json.Document)}
    {es : Entries Json.Value}
    (h : List.Forall₂ (fun m e => m.1 = some e.1 ∧ m.2.toValue? room = some e.2) members es) :
    members.map Prod.fst = es.map fun e => some e.1 := by
  induction h with
  | nil => rfl
  | cons hm _ ih => rw [List.map_cons, List.map_cons, hm.1, ih]

/-- A name is missing among the values where it is missing among the members. -/
theorem last?_eq_none_of_forall₂ {room : Nat} {members : List (Option String × Json.Document)}
    {es : Entries Json.Value}
    (h : List.Forall₂ (fun m e => m.1 = some e.1 ∧ m.2.toValue? room = some e.2) members es)
    (k : String) : Entries.last? k es = none ↔ ∀ m ∈ members, m.1 ≠ some k := by
  have hnames : some k ∈ members.map Prod.fst ↔ some k ∈ es.map fun e => some e.1 := by
    rw [names_of_forall₂ h]
  rw [Entries.last?_eq_none_iff]
  simp only [List.mem_map, Option.some.injEq] at hnames
  constructor
  · intro hes m hm hk
    obtain ⟨e, he, hek⟩ := hnames.mp ⟨m, hm, hk⟩
    exact hes e he hek
  · intro hmembers e he hek
    obtain ⟨m, hm, hk⟩ := hnames.mpr ⟨e, he, hek⟩
    exact hmembers m hm hk

/-- An object without an error that is read as a page. -/
theorem body_object_iff {members : List (Option String × Json.Document)} {p : Page} :
    (∃ v, Json.Document.toValue? Json.maxDepth (.object members) = some v ∧
        v.get? "error" = none ∧ ofJson? v = some p) ↔ p.Body (.object members) := by
  have hdepth : Json.maxDepth = Json.maxDepth - 1 + 1 := rfl
  have hfind : ∀ (es : Entries Json.Value) (k : String),
      Entries.find? k (Entries.insertAll [] es) = Entries.last? k es := fun es k => by
    rw [Entries.find?_insertAll_last]
    exact Option.or_none
  -- The members are values with one level less to go; what they are read as is what they are sorted
  -- in as.
  rw [hdepth, Json.Document.toValue?_object]
  constructor
  · rintro ⟨v, hv, herror, hp⟩
    obtain ⟨es, hes, rfl⟩ := Option.map_eq_some_iff.mp hv
    have hvalues := Json.Document.toMembers?_eq_some_iff.mp hes
    refine .object hvalues ((last?_eq_none_of_forall₂ hvalues _).mp ?_) ?_
    · exact (hfind es "error").symm.trans herror
    · exact (ReadFrom.congr fun k _ => hfind es k).mp (ofJson?_object_iff.mp hp)
  · intro h
    cases h with
    | @object _ es hvalues herror hfields =>
      have hes := Json.Document.toMembers?_eq_some_iff.mpr hvalues
      refine ⟨.object (Entries.insertAll [] es), by rw [hes]; rfl, ?_, ?_⟩
      · exact (hfind es "error").trans ((last?_eq_none_of_forall₂ hvalues _).mpr herror)
      · exact ofJson?_object_iff.mpr ((ReadFrom.congr fun k _ => hfind es k).mpr hfields)

/-- An array that is read as a page; there is no error to be found in it. -/
theorem body_array_iff {items : List Json.Document} {p : Page} :
    (∃ v, Json.Document.toValue? Json.maxDepth (.array items) = some v ∧
        v.get? "error" = none ∧ ofJson? v = some p) ↔ p.Body (.array items) := by
  have hdepth : Json.maxDepth = Json.maxDepth - 1 + 1 := rfl
  rw [hdepth, Json.Document.toValue?]
  constructor
  · rintro ⟨v, hv, -, hp⟩
    obtain ⟨vs, hvs, rfl⟩ := Option.map_eq_some_iff.mp hv
    obtain ⟨hlength, hfields⟩ := ofJson?_array_iff.mp hp
    exact .array (Json.Document.toValues?_eq_some_iff.mp hvs) hlength hfields
  · intro h
    cases h with
    | @array _ vs hvalues hlength hfields =>
      have hvs := Json.Document.toValues?_eq_some_iff.mpr hvalues
      exact ⟨.array vs, by rw [hvs]; rfl, rfl, ofJson?_array_iff.mpr ⟨hlength, hfields⟩⟩

/-- A value that holds no other value is read as no page. -/
theorem ofJson?_of_scalar {s : Json.Scalar} {v : Json.Value} (h : s.toValue? = some v) :
    ofJson? v = none := by
  cases s with
  | null => cases h; rfl
  | bool b => cases h; rfl
  | numeral n =>
    obtain ⟨x, -, rfl⟩ := Option.map_eq_some_iff.mp h
    rfl
  | string t =>
    obtain ⟨x, -, rfl⟩ := Option.map_eq_some_iff.mp h
    rfl

/-- No other document has a value that is read as a page. -/
theorem not_body_scalar {s : Json.Scalar} {p : Page} :
    ¬ ∃ v, Json.Document.toValue? Json.maxDepth (.scalar s) = some v ∧
        v.get? "error" = none ∧ ofJson? v = some p := by
  rintro ⟨v, hv, -, hp⟩
  rw [Json.Document.toValue?] at hv
  rw [ofJson?_of_scalar hv] at hp
  cases hp

theorem body_iff {d : Json.Document} {p : Page} :
    (∃ v, d.toValue? Json.maxDepth = some v ∧ v.get? "error" = none ∧ ofJson? v = some p) ↔
      p.Body d := by
  cases d with
  | scalar s => exact iff_of_false not_body_scalar nofun
  | object members => exact body_object_iff
  | array items => exact body_array_iff

end Page

/-! ## Answers -/

namespace Answer

theorem result_eq_ok_iff {a : Answer} {p : Page} :
    a.result = .ok p ↔
      a.isSuccess ∧ ∃ v, Json.Value.parse? a.text = some v ∧ v.get? "error" = none ∧
        Page.ofJson? v = some p := by
  -- reader by reader: each but the last one can only turn the answer into an error
  unfold result
  split
  · rename_i hsuccess
    cases hparse : Json.Value.parse? a.text with
    | none => simp
    | some v =>
      cases herror : v.get? "error" with
      | none => cases hpage : Page.ofJson? v <;> simp [hsuccess, herror, hpage]
      | some e => cases hcomplaint : Complaint.ofJson? e <;> simp [herror, hcomplaint]
  · rename_i hsuccess
    simp [hsuccess]

/-- The advice to retry is no page, so what is reported as one is the result of the answer. -/
theorem verdict_eq_success_iff_result {a : Answer} {attempt most : Nat} {p : Page} :
    a.verdict attempt most = .ok (.success p) ↔ a.result = .ok p := by
  rw [verdict_eq]
  split
  · rename_i hretry
    have hlimited := (a.result_eq_rateLimited_iff a.retrySeconds).mpr ⟨hretry.1, rfl⟩
    simp [hlimited]
  · cases a.result <;> simp [Except.map]

theorem isSuccess_iff {a : Answer} : a.isSuccess ↔ 200 ≤ a.status ∧ a.status ≤ 299 := by
  simp [isSuccess]

theorem verdict_eq_success_iff {a : Answer} {attempt most : Nat} {p : Page} :
    a.verdict attempt most = .ok (.success p) ↔
      (200 ≤ a.status ∧ a.status ≤ 299) ∧
        ∃ d, Json.Document.parse? a.text = some d ∧ p.Body d := by
  rw [verdict_eq_success_iff_result, result_eq_ok_iff, isSuccess_iff]
  refine and_congr_right' ?_
  constructor
  · rintro ⟨v, hv, hp⟩
    obtain ⟨d, hd, hdv⟩ := Option.bind_eq_some_iff.mp hv
    exact ⟨d, hd, Page.body_iff.mp ⟨v, hdv, hp⟩⟩
  · rintro ⟨d, hd, hbody⟩
    obtain ⟨v, hdv, hp⟩ := Page.body_iff.mpr hbody
    exact ⟨v, Option.bind_eq_some_iff.mpr ⟨d, hd, hdv⟩, hp⟩

/-- **What is reported as a page, and when that takes an object.** An answer is a page exactly if
its status is one of success and its body is a document that is read as that page, with no error in
it and every field of its type and range; neither the header nor the attempts matter. Such a
document is an object, unless it is an array that is read as one. -/
theorem success_iff_body (a : Answer) :
    (∀ attempt most p, a.verdict attempt most = .ok (.success p) ↔
      (200 ≤ a.status ∧ a.status ≤ 299) ∧
        ∃ d, Json.Document.parse? a.text = some d ∧ p.Body d) ∧
      ((∀ attempt most p, a.verdict attempt most = .ok (.success p) →
          ∃ members, Json.Document.parse? a.text = some (.object members) ∧
            p.Body (.object members)) ↔
        ∀ items, Json.Document.parse? a.text = some (.array items) →
          ∀ attempt most p, a.verdict attempt most ≠ .ok (.success p)) := by
  refine ⟨fun attempt most p => verdict_eq_success_iff, ?_, ?_⟩
  · intro h items hitems attempt most p hp
    obtain ⟨members, hmembers, -⟩ := h attempt most p hp
    cases hitems.symm.trans hmembers
  · intro h attempt most p hp
    obtain ⟨-, d, hd, hbody⟩ := verdict_eq_success_iff.mp hp
    cases d with
    | object members => exact ⟨members, hd, hbody⟩
    | array items => exact absurd hp (h items hd attempt most p)
    | scalar s => cases hbody

/-- **Not only objects are pages**: a success whose body is the JSON text `[]` is reported as a page
without results. -/
theorem empty_array_is_page :
    let a : Answer := ⟨200, none, [0x5B, 0x5D]⟩
    a.verdict 0 3 = .ok (.success ⟨0, 0, 0, -1, [], none⟩) ∧
      ¬ ∀ (a : Answer) (attempt most : Nat) (p : Page), a.verdict attempt most = .ok (.success p) →
        ∃ members, Json.Document.parse? a.text = some (.object members) := by
  intro a
  have harray : Json.Document.parse? a.text = some (.array []) := by
    show Json.Document.read? ((String.ofList _).toList.map some) = _
    rw [String.toList_ofList]
    rfl
  have hbody : Page.Body ⟨0, 0, 0, -1, [], none⟩ (.array []) :=
    .array .nil (Nat.zero_le _) ⟨.inl ⟨rfl, rfl⟩, .inl ⟨rfl, rfl⟩, .inl ⟨rfl, rfl⟩,
      .inl ⟨rfl, rfl⟩, .inl ⟨rfl, rfl⟩, .inl ⟨rfl, rfl⟩⟩
  have hpage : a.verdict 0 3 = .ok (.success ⟨0, 0, 0, -1, [], none⟩) :=
    verdict_eq_success_iff.mpr ⟨by decide, _, harray, hbody⟩
  refine ⟨hpage, fun h => ?_⟩
  obtain ⟨members, hmembers⟩ := h a 0 3 _ hpage
  cases harray.symm.trans hmembers

end Answer
end ContentSearch
