import ContentSearch.Proofs.Cursor.Held
import ContentSearch.Proofs.Json.Parsed

/-!
# The two encodings of a query agree

A query is printed as JSON for people and written as a form for the portal. Each of the two leaves
out what the query does not have, and each has its own list of names. Both lists are tables with
gaps, and so is what is read back: from the text of the JSON (**`parse?_render_toJson`**) and from
the body of the form. Under a name that is not one encoding's alone both have the same value, or
neither has one (**`shared_eq`**).

Nothing empty is left in a compiled query (**`compile_filled`**), because an empty option counts as
none. That is also why leaving empty options out makes no difference to it (**`compile_congr`**).

The tables are compared name by name and not pair by pair, for the two encodings have their members
in different orders and one of them in two objects. No name stands twice in either
(`nodup_members`), so looking a name up says all there is to say.
-/

set_option autoImplicit false

namespace ContentSearch

open Text

/-- What a JSON value says, where it is a text or a whole number. -/
def Json.Value.plain? : Json.Value → Option String
  | .string s => some s
  | .number (.integer n) => some (String.ofList (Decimal.writeInt n))
  | _ => none

theorem Json.Value.plain?_nat (n : Nat) :
    (Json.Value.nat n).plain? = some (String.ofList (Decimal.write n)) := by
  have hn : ¬ (n : Int) < 0 := by omega
  show some (String.ofList (Decimal.writeInt n)) = _
  rw [Decimal.writeInt, if_neg hn, Int.natAbs_natCast]

namespace Query

/-! ## The JSON as two tables -/

/-- The members of a query's JSON, each with its value if the query has one. -/
def members (q : Query) : Entries (Option Json.Value) :=
  [("q", some (.string q.text)), ("sortField", q.sort.map fun s => .string s.field),
   ("sortOrder", q.sort.map fun s => .string s.order.name),
   ("params", some (.object q.paramMembers)), ("bbox", q.bbox.map .string),
   ("endpoint", q.connection.endpoint.map .string)]

/-- The members of the object in it that is about the page. -/
def pageMembers (q : Query) : Entries (Option Json.Value) :=
  [("start", some (.nat q.page.start)), ("num", some (.nat q.page.size)),
   ("countFields", q.counts.map fun c => .string c.fields),
   ("countSize", q.counts.map fun _ => .nat 200)]

theorem toJson_eq (q : Query) : q.toJson = .object (Entries.present q.members) := by
  unfold toJson members sortMembers optional
  cases q.sort <;> cases q.bbox <;> cases q.connection.endpoint <;> rfl

theorem paramMembers_eq (q : Query) : q.paramMembers = Entries.present q.pageMembers := by
  unfold paramMembers pageMembers
  cases q.counts <;> rfl

theorem nodup_members (q : Query) : (Entries.names q.members).Nodup := by
  show ["q", "sortField", "sortOrder", "params", "bbox", "endpoint"].Nodup
  decide

theorem nodup_pageMembers (q : Query) : (Entries.names q.pageMembers).Nodup := by
  show ["start", "num", "countFields", "countSize"].Nodup
  decide

/-- What a reader of the JSON gets to see at its top. -/
def topRead (q : Query) : Entries Json.Value :=
  Json.Value.sortedIn (Entries.present q.members)

/-- What a reader of the JSON gets to see about the page. -/
def pageRead (q : Query) : Entries Json.Value :=
  Json.Value.sortedIn (Entries.present q.pageMembers)

theorem find?_topRead (q : Query) (key : String) :
    Entries.find? key q.topRead = (q.members.find? key).join.map Json.Value.sorted := by
  have hnodup := (Entries.names_present q.members).nodup q.nodup_members
  rw [topRead, Json.Value.find?_sortedIn hnodup, Entries.find?_present q.nodup_members]

theorem find?_pageRead (q : Query) (key : String) :
    Entries.find? key q.pageRead = (q.pageMembers.find? key).join.map Json.Value.sorted := by
  have hnodup := (Entries.names_present q.pageMembers).nodup q.nodup_pageMembers
  rw [pageRead, Json.Value.find?_sortedIn hnodup, Entries.find?_present q.nodup_pageMembers]

theorem find?_params (q : Query) :
    Entries.find? "params" q.topRead = some (.object q.pageRead) := by
  rw [find?_topRead, pageRead, ← paramMembers_eq]
  rfl

/-! ## The JSON is read back -/

theorem fits_nat {n : Nat} (h : n < Decimal.limit32) (room : Nat) :
    (Json.Value.nat n).fits room := by
  have hlimit : Decimal.limit32 < Nat.pow 2 64 := by decide
  simp only [Json.Value.nat, Json.Value.fits, Bool.and_eq_true, decide_eq_true_eq]
  omega

theorem fits_paramMembers {q : Query} (h : q.page.Sound) (room : Nat) :
    (Json.Value.object q.paramMembers).fits (room + 1) := by
  rw [paramMembers_eq]
  refine Json.Value.membersFit_of (Entries.forall_present ?_)
  simp only [pageMembers, List.forall_mem_cons, Option.map_eq_some_iff, Option.some.injEq]
  refine ⟨?_, ?_, ?_, ?_, by simp⟩
  · rintro _ rfl
    exact fits_nat h.start_lt room
  · rintro _ rfl
    exact fits_nat h.size_lt room
  · rintro _ ⟨c, -, rfl⟩
    rfl
  · rintro _ ⟨c, -, rfl⟩
    exact fits_nat (by decide) room

theorem fits_toJson {q : Query} (h : q.page.Sound) (room : Nat) : q.toJson.fits (room + 2) := by
  rw [toJson_eq]
  refine Json.Value.membersFit_of (Entries.forall_present ?_)
  simp only [members, List.forall_mem_cons, Option.map_eq_some_iff, Option.some.injEq]
  refine ⟨?_, ?_, ?_, ?_, ?_, ?_, by simp⟩
  · rintro _ rfl
    rfl
  · rintro _ ⟨s, -, rfl⟩
    rfl
  · rintro _ ⟨s, -, rfl⟩
    rfl
  · rintro _ rfl
    exact fits_paramMembers h room
  · rintro _ ⟨b, -, rfl⟩
    rfl
  · rintro _ ⟨e, -, rfl⟩
    rfl

/-- **The text of the JSON is read back** as what is in the two tables. -/
theorem parse?_render_toJson {q : Query} (h : q.page.Sound) :
    Json.Value.parse? q.toJson.render = some (.object q.topRead) := by
  -- two levels of objects are far from the depth that a reader allows
  rw [Json.Value.parse?_render (fits_toJson h 125), toJson_eq]
  rfl

/-! ## Nothing empty -/

/-- Nothing that may be absent is there and empty. -/
structure Filled (q : Query) : Prop where
  sort : ∀ s, q.sort = some s → s.field ≠ ""
  counts : ∀ c, q.counts = some c → c.fields ≠ ""
  bbox : ∀ b, q.bbox = some b → b ≠ ""
  endpoint : ∀ e, q.connection.endpoint = some e → e ≠ ""

theorem ne_of_nonEmpty {o : Option String} {s : String} (h : nonEmpty o = some s) : s ≠ "" := by
  obtain ⟨-, hs⟩ := Option.filter_eq_some_iff.mp h
  exact of_decide_eq_true hs

theorem ne_of_sortOf? {field : Option String} {order : Option SortOrder} {s : Sorting}
    (h : sortOf? field order = some s) : s.field ≠ "" := by
  unfold sortOf? at h
  split at h
  · rename_i hfield
    cases h
    exact ne_of_nonEmpty hfield
  · cases h

theorem ne_of_resolve {call service : Connection} {e : String}
    (h : (call.resolve service).endpoint = some e) : e ≠ "" := by
  change (nonEmpty call.endpoint).orElse (fun _ => nonEmpty service.endpoint) = some e at h
  cases hown : nonEmpty call.endpoint with
  | none =>
    rw [hown, Option.orElse_none] at h
    exact ne_of_nonEmpty h
  | some own =>
    rw [hown, Option.orElse_some] at h
    exact ne_of_nonEmpty (hown.trans h)

/-- **What compiling takes over is not empty.** -/
theorem compile_filled (filter : Filter) (options : Options) (service : Connection) :
    (compile filter options service).Filled := by
  refine ⟨fun s hs => ne_of_sortOf? hs, fun c hc => ?_, fun b hb => ne_of_nonEmpty hb,
    fun e he => ne_of_resolve he⟩
  obtain ⟨fields, hfields, rfl⟩ := Option.map_eq_some_iff.mp hc
  exact ne_of_nonEmpty hfields

/-- A value that says something, unless it is the query text, which is always there. -/
def Spoken (key : String) (v : Json.Value) : Prop :=
  v ≠ .null ∧ (v = .string "" → key = "q")

theorem spoken_string {key s : String} (h : s ≠ "") : Spoken key (.string s) :=
  ⟨nofun, fun hs => absurd (Json.Value.string.inj hs) h⟩

/-- Sorting members in leaves them saying what they say. -/
theorem spoken_sortedIn {t : Entries (Option Json.Value)}
    (h : ∀ e ∈ t, ∀ v, e.2 = some v → Spoken e.1 v.sorted) :
    ∀ e ∈ Json.Value.sortedIn (Entries.present t), Spoken e.1 e.2 := by
  intro e he
  obtain ⟨v, hv, hsorted⟩ := Json.Value.mem_sortedIn he
  rw [hsorted]
  exact Entries.forall_present (p := fun key v => Spoken key v.sorted) h _ v hv

theorem pageRead_spoken {q : Query} (h : q.Filled) : ∀ e ∈ q.pageRead, Spoken e.1 e.2 := by
  -- member by member; only the names of the counts are a text, and they are not empty
  apply spoken_sortedIn
  simp only [pageMembers, List.forall_mem_cons, Option.map_eq_some_iff, Option.some.injEq]
  refine ⟨?_, ?_, ?_, ?_, by simp⟩
  · rintro _ rfl
    exact ⟨nofun, nofun⟩
  · rintro _ rfl
    exact ⟨nofun, nofun⟩
  · rintro _ ⟨c, hc, rfl⟩
    exact spoken_string (h.counts c hc)
  · rintro _ ⟨c, -, rfl⟩
    exact ⟨nofun, nofun⟩

theorem topRead_spoken {q : Query} (h : q.Filled) : ∀ e ∈ q.topRead, Spoken e.1 e.2 := by
  apply spoken_sortedIn
  simp only [members, List.forall_mem_cons, Option.map_eq_some_iff, Option.some.injEq]
  refine ⟨?_, ?_, ?_, ?_, ?_, ?_, by simp⟩
  · rintro _ rfl
    exact ⟨nofun, fun _ => rfl⟩
  · rintro _ ⟨s, hs, rfl⟩
    exact spoken_string (h.sort s hs)
  · rintro _ ⟨s, -, rfl⟩
    exact spoken_string (by cases s.order <;> decide)
  · rintro _ rfl
    exact ⟨nofun, nofun⟩
  · rintro _ ⟨b, hb, rfl⟩
    exact spoken_string (h.bbox b hb)
  · rintro _ ⟨e, he, rfl⟩
    exact spoken_string (h.endpoint e he)

/-! ## Side by side -/

/-- What is under a key at the top of the JSON or else about the page. -/
def under? (top page : Entries Json.Value) (key : String) : Option Json.Value :=
  (Entries.find? key top).or (Entries.find? key page)

theorem under?_read (q : Query) (key : String) :
    under? q.topRead q.pageRead key
      = ((q.members.find? key).join.or (q.pageMembers.find? key).join).map Json.Value.sorted := by
  rw [under?, find?_topRead, find?_pageRead, Option.map_or]

/-- The names that are one encoding's alone. -/
def unshared : List String := ["f", "params", "endpoint", "token"]

/-- **What the two encodings share**: under a key that is not one's alone, the same. -/
theorem shared_eq (q : Query) {key : String} (h : key ∉ unshared) :
    (under? q.topRead q.pageRead key).map Json.Value.plain? = (q.parameter? key).map some := by
  rw [under?_read, parameter?]
  -- The shared keys are eight, and under each of them both encodings write the same part of the
  -- query.
  by_cases hkey : key ∈ ["q", "start", "num", "sortField", "sortOrder", "countFields",
      "countSize", "bbox"]
  · obtain ⟨text, sort, page, counts, bbox, connection⟩ := q
    simp only [List.mem_cons, List.not_mem_nil, or_false] at hkey
    rcases hkey with rfl | rfl | rfl | rfl | rfl | rfl | rfl | rfl
    · rfl
    · exact congrArg some (Json.Value.plain?_nat page.start)
    · exact congrArg some (Json.Value.plain?_nat page.size)
    · cases sort <;> rfl
    · cases sort <;> rfl
    · cases counts <;> rfl
    · cases counts with
      | none => rfl
      | some c => exact congrArg some (Json.Value.plain?_nat Counts.size)
    · cases bbox <;> rfl
  · -- No other key is in any of the three tables.
    simp only [unshared, List.mem_cons, List.not_mem_nil, or_false, not_or] at h hkey
    have htop : key ∉ Entries.names q.members := by
      simp [Entries.names, members, h, hkey]
    have hpage : key ∉ Entries.names q.pageMembers := by
      simp [Entries.names, pageMembers, hkey]
    have hform : key ∉ Entries.names q.parameters := by
      simp [Entries.names, parameters, h, hkey]
    rw [Entries.find?_eq_none htop, Entries.find?_eq_none hpage, Entries.find?_eq_none hform]
    rfl

/-- How the members of a query's JSON, at its top and about its page, and the pairs of its form
go together. -/
structure Agree (q : Query) (top page : Entries Json.Value) (form : Entries String) : Prop where
  params : Entries.find? "params" top = some (.object page)
  spoken : ∀ e ∈ top ++ page, Spoken e.1 e.2
  shared : ∀ key ∉ unshared,
    (under? top page key).map Json.Value.plain? = (Entries.find? key form).map some
  endpoint : under? top page "endpoint" = q.connection.endpoint.map .string ∧
    Entries.find? "endpoint" form = none
  token : under? top page "token" = none ∧
    Entries.find? "token" form = q.connection.credential.map Credential.secret
  sort : (under? top page "sortField").isSome = (under? top page "sortOrder").isSome
  counts : (under? top page "countFields").isSome = (under? top page "countSize").isSome

theorem agree {q : Query} (h : q.Filled) :
    Agree q q.topRead q.pageRead (Form.decode q.formBody.toList) := by
  refine ⟨q.find?_params, fun e he => ?_, fun key hkey => ?_, ⟨?_, ?_⟩, ⟨?_, ?_⟩, ?_, ?_⟩
  · rcases List.mem_append.mp he with he | he
    · exact topRead_spoken h e he
    · exact pageRead_spoken h e he
  · rw [shared_eq q hkey, find?_decode_formBody]
  · -- the endpoint is in the JSON alone
    rw [under?_read]
    obtain ⟨text, sort, page, counts, bbox, ⟨endpoint, credential⟩⟩ := q
    cases endpoint <;> rfl
  · exact find?_decode_formBody q "endpoint"
  · -- and the token is in the form alone
    exact under?_read q "token"
  · exact find?_decode_formBody q "token"
  · rw [under?_read, under?_read]
    obtain ⟨text, sort, page, counts, bbox, connection⟩ := q
    cases sort <;> rfl
  · rw [under?_read, under?_read]
    obtain ⟨text, sort, page, counts, bbox, connection⟩ := q
    cases counts <;> rfl

end Query

/-! ## Leaving empty options out -/

/-- The second is the first, or it is absent where the first is empty. -/
inductive Drops {α : Type} (empty : α) : Option α → Option α → Prop
  | kept (o : Option α) : Drops empty o o
  | dropped : Drops empty (some empty) none

theorem Drops.nonEmpty_eq {o o' : Option String} (h : Drops "" o o') :
    nonEmpty o' = nonEmpty o := by
  cases h with
  | kept => rfl
  | dropped => rfl

theorem Drops.usable_eq {o o' : Option Credential} (h : Drops ⟨""⟩ o o') :
    Connection.usable o' = Connection.usable o := by
  cases h with
  | kept => rfl
  | dropped => rfl

/-- An empty token is the token of no cursor. -/
theorem Drops.decode_eq {o o' : Option String} (h : Drops "" o o') :
    Cursor.decode o' = Cursor.decode o := by
  cases h with
  | kept => rfl
  | dropped => decide

/-- A connection without some of its empty parts. -/
structure Connection.Pruned (c c' : Connection) : Prop where
  endpoint : Drops "" c.endpoint c'.endpoint
  credential : Drops ⟨""⟩ c.credential c'.credential

/-- Options without some of their empty parts. -/
structure Options.Pruned (o o' : Options) : Prop where
  page : Drops "" o.page o'.page
  sortField : Drops "" o.sortField o'.sortField
  sortOrder : o'.sortOrder = o.sortOrder
  aggregations : Drops "" o.aggregations o'.aggregations
  bbox : Drops "" o.bbox o'.bbox
  connection : o.connection.Pruned o'.connection

theorem Connection.resolve_congr {call call' service service' : Connection}
    (hcall : call.Pruned call') (hservice : service.Pruned service') :
    call'.resolve service' = call.resolve service := by
  rw [resolve, resolve, hcall.endpoint.nonEmpty_eq, hservice.endpoint.nonEmpty_eq,
    hcall.credential.usable_eq, hservice.credential.usable_eq]

namespace Query

theorem sortOf?_congr {field field' : Option String} (h : Drops "" field field')
    (order : Option SortOrder) : sortOf? field' order = sortOf? field order := by
  unfold sortOf?
  rw [h.nonEmpty_eq]

/-- **Empty options make no difference.** -/
theorem compile_congr (filter : Filter) {options options' : Options}
    {service service' : Connection} (hoptions : options.Pruned options')
    (hservice : service.Pruned service') :
    compile filter options' service' = compile filter options service := by
  rw [compile, compile, hoptions.page.decode_eq, hoptions.sortOrder,
    sortOf?_congr hoptions.sortField, hoptions.aggregations.nonEmpty_eq,
    hoptions.bbox.nonEmpty_eq, Connection.resolve_congr hoptions.connection hservice]

/-- **The JSON of a compiled query and its form agree, and what is absent is left out.** The text of
the JSON is read back as an object, an object in it is about the page, and the two together have,
under every key that is not one encoding's alone, what is found in the form. Options and settings
that are empty might as well not be there. -/
theorem compile_encodings_agree (filter : Filter) (options : Options) (service : Connection) :
    let q := compile filter options service
    (∃ top page, Json.Value.parse? q.toJson.render = some (.object top) ∧
      Agree q top page (Form.decode q.formBody.toList)) ∧
      ∀ options' service', options.Pruned options' → service.Pruned service' →
        compile filter options' service' = q := by
  intro q
  refine ⟨⟨q.topRead, q.pageRead, ?_, ?_⟩, fun options' service' hoptions hservice => ?_⟩
  · exact parse?_render_toJson (Cursor.decode_sound options.page)
  · exact agree (compile_filled filter options service)
  · exact compile_congr filter hoptions hservice

/-- A call whose empty page, box and endpoint are left out, and a service whose empty credential
is. -/
theorem compile_encodings_agree_sample :
    let call : Connection := ⟨some "", some ⟨"secret"⟩⟩
    let service : Connection := ⟨some "https://example.com", some ⟨""⟩⟩
    let options : Options := ⟨some "", some "title", some .asc, some "type", some "", call⟩
    let call' : Connection := ⟨none, some ⟨"secret"⟩⟩
    let service' : Connection := ⟨some "https://example.com", none⟩
    let options' : Options := ⟨none, some "title", some .asc, some "type", none, call'⟩
    let q := compile .empty options service
    options.Pruned options' ∧ service.Pruned service' ∧ compile .empty options' service' = q ∧
      ∃ top page, Json.Value.parse? q.toJson.render = some (.object top) ∧
        Agree q top page (Form.decode q.formBody.toList) := by
  intro call service options call' service' options' q
  have hcall : call.Pruned call' := ⟨.dropped, .kept _⟩
  have hservice : service.Pruned service' := ⟨.kept _, .dropped⟩
  have hoptions : options.Pruned options' :=
    ⟨.dropped, .kept _, rfl, .kept _, .dropped, hcall⟩
  obtain ⟨hagree, hcongr⟩ := compile_encodings_agree .empty options service
  exact ⟨hoptions, hservice, hcongr options' service' hoptions hservice, hagree⟩

end Query
end ContentSearch
