import ContentSearch.Proofs.Filter.Plain
import ContentSearch.Proofs.Filter.Scan

/-!
# The last clause and what can hide it

Every query ends in the clause that keeps code attachments out. The clause does its work only where
a reader of the query takes it for a clause: outside quoted strings, with nothing left open.

Labels, signs, operators and the terms of fields that do not quote leave a scan where it was, and
each clause closes the parenthesis that it opened. So everything hangs on the quoted terms, and
they are **not** harmless in general: nothing is escaped, and a term that holds a quote ends its own
string (`Filter.quote_hides_exclusion`). What is true is an equivalence. A single filter keeps its
last clause exactly if its quoted terms, each between two quotes, take a scan back to where it
started; and terms of a kind are safe to use in any number and on any field exactly if each of them
leaves a quoted string as it found it.

For the first, a scan runs over the query and only the quoted terms move it, so the whole comes to a
fold over them (`Filter.keepsExclusion_iff_foldl`). For the second, filters with one term under one
title are enough to show that a term has to be harmless (`Filter.titled`); that harmless terms do no
harm in any number is the first part again.
-/

set_option autoImplicit false

namespace ContentSearch

/-! ## What a scan sees of a sentence -/

/-- A text without quotes and parentheses. -/
def Quiet (s : String) : Prop := ∀ c ∈ s.toList, c ≠ '"' ∧ c ≠ '(' ∧ c ≠ ')'

instance (s : String) : Decidable (Quiet s) := inferInstanceAs (Decidable (∀ c ∈ s.toList, _))

theorem Quiet.append {s t : String} (hs : Quiet s) (ht : Quiet t) : Quiet (s ++ t) :=
  Text.every_append hs ht

theorem Bare.quiet {s : String} (h : Bare s) : Quiet s := fun c hc =>
  ⟨(h c hc).2.2.2, (h c hc).2.1, (h c hc).2.2.1⟩

def Demand.terms : Demand → List String
  | .combined _ ts => ts
  | .between _ _ => []

theorem Demand.mem_terms_of_ofCriterion? {kind : FieldKind} {c : Criterion} {d : Demand}
    (h : Demand.ofCriterion? kind c = some d) {t : String} (ht : t ∈ d.terms) : t ∈ c.terms := by
  rcases Demand.ofCriterion?_cases h with ⟨-, low, high, rfl⟩ | ⟨-, -, op, rfl⟩
  · exact absurd ht List.not_mem_nil
  · have hmem : t ∈ c.terms.filter (· ≠ "") := by
      unfold Demand.ofTerms at ht
      split at ht
      · rename_i u hu
        rw [hu]
        exact ht
      · exact ht
    exact (List.mem_filter.mp hmem).1

namespace Scan

theorem run_sentenceText (ws : List String) (σ : Scan) :
    σ.run (sentenceText ws) = ws.foldl (fun τ w => τ.run w.toList) σ := by
  -- word by word; the blanks between them are noticed nowhere
  induction ws generalizing σ with
  | nil => rfl
  | cons w rest ih =>
    cases rest with
    | nil => simp [sentenceText]
    | cons v vs =>
      have hblank : (σ.run w.toList).run [' '] = σ.run w.toList :=
        run_of_quiet (by decide) _
      unfold sentenceText at ih ⊢
      rw [List.map_cons, List.map_cons, List.intercalate_cons_cons, run_append, run_append, hblank,
        List.foldl_cons, ← ih]
      rfl

theorem foldl_quiet {ws : List String} (h : ∀ w ∈ ws, Quiet w) (σ : Scan) :
    ws.foldl (fun τ w => τ.run w.toList) σ = σ := by
  induction ws with
  | nil => rfl
  | cons w rest ih =>
    rw [List.foldl_cons, run_of_quiet (h w List.mem_cons_self)]
    exact ih fun v hv => h v (List.mem_cons_of_mem _ hv)

end Scan

namespace Field

/-- The first word of a quoted term is quiet, and the second is the term between quotes. -/
theorem foldl_termWords {f : Field} (hf : f ∈ all) (hk : f.kind = .text) (op : Operator)
    (t : String) (σ : Scan) :
    (f.termWords op t).foldl (fun τ w => τ.run w.toList) σ = σ.quoted t := by
  have hlabel : Quiet (op.sign ++ f.name ++ ":") :=
    ((op.bare_sign.append (bare_name f hf).1).append (by decide)).quiet
  have hspell : (f.spell t).toList = '"' :: (t.toList ++ ['"']) := by
    unfold spell quoted
    rw [if_pos (by simpa using hk), String.toList_append, String.toList_append]
    rfl
  unfold termWords
  rw [if_neg (by rw [hk]; decide), List.foldl_cons, List.foldl_cons, List.foldl_nil,
    Scan.run_of_quiet hlabel, hspell]
  show (σ.step '"').run (t.toList ++ ['"']) = _
  rw [Scan.run_append]
  rfl

/-- **On a field that quotes, a scan sees the terms** and nothing of the words around them. -/
theorem run_sentence_of_text {f : Field} (hf : f ∈ all) (hk : f.kind = .text) (d : Demand)
    (σ : Scan) : σ.run (sentenceText (f.sentence d)) = d.terms.foldl Scan.quoted σ := by
  rw [Scan.run_sentenceText]
  cases d with
  | between low high =>
    exact Scan.foldl_quiet (fun w hw => (bare_sentence_between hf low high w hw).quiet) σ
  | combined op ts =>
    show ([op.word].intercalate (ts.map (f.termWords op))).foldl _ σ = ts.foldl Scan.quoted σ
    -- term by term, from whatever state the terms before have led to
    induction ts generalizing σ with
    | nil => rfl
    | cons t rest ih =>
      cases rest with
      | nil =>
        rw [List.map_cons, List.map_nil, List.intercalate_singleton, foldl_termWords hf hk]
        rfl
      | cons u us =>
        have ih' := ih (σ.quoted t)
        rw [List.map_cons] at ih'
        rw [List.map_cons, List.map_cons, List.intercalate_cons_cons, List.foldl_append,
          List.foldl_append, foldl_termWords hf hk, List.foldl_cons, List.foldl_nil,
          Scan.run_of_quiet op.bare_word.quiet, ih']
        rfl

theorem run_sentence_of_quiet {f : Field} (hf : f ∈ all) (hk : f.kind ≠ .text) {d : Demand}
    (hd : ∀ t ∈ d.terms, Quiet t) (σ : Scan) : σ.run (sentenceText (f.sentence d)) = σ := by
  rw [Scan.run_sentenceText]
  refine Scan.foldl_quiet (fun w hw => ?_) σ
  -- every word of the sentence is quiet: the joiner, the label, and by assumption the term
  cases d with
  | between low high => exact (bare_sentence_between hf low high w hw).quiet
  | combined op ts =>
    rcases mem_of_mem_intercalate hw with rfl | ⟨b, hb, hwb⟩
    · exact op.bare_word.quiet
    · obtain ⟨t, ht, rfl⟩ := List.mem_map.mp hb
      have hspell : f.spell t = t := by simp [spell, quoted, hk]
      unfold termWords at hwb
      split at hwb
      · rw [List.mem_singleton.mp hwb]
        exact op.bare_sign.quiet.append (hd t ht)
      · rcases List.mem_cons.mp hwb with rfl | hwb
        · exact ((op.bare_sign.append (bare_name f hf).1).append (by decide)).quiet
        · rw [List.mem_singleton.mp hwb, hspell]
          exact hd t ht

end Field

/-! ## What it sees of a query -/

namespace Filter

/-- A filter whose terms are quiet on every field that does not quote them. -/
def QuietBeside (f : Filter) : Prop :=
  ∀ field ∈ Field.all, field.kind ≠ .text → ∀ c ∈ f.get? field.name, ∀ t ∈ c.terms, Quiet t

instance (f : Filter) : Decidable f.QuietBeside :=
  inferInstanceAs (Decidable (∀ field ∈ Field.all, field.kind ≠ .text →
    ∀ c ∈ f.get? field.name, ∀ t ∈ c.terms, _))

def quotedTerms (f : Filter) : List (List String) :=
  (Field.all.filter (·.kind = .text)).filterMap fun field => (f.demand? field).map Demand.terms

/-- **The last clause is a clause**: a reader gets to it outside quoted strings with nothing open,
and gets through the whole query. -/
def KeepsExclusion (f : Filter) : Prop :=
  ∃ front, f.toQuery.toList = front ++ exclusion.toList ∧ Scan.start.run front = .start
    ∧ Scan.start.run f.toQuery.toList = .start

/-- A clause with the `AND` behind it. -/
def clauseText (ws : List String) : List Char :=
  '(' :: (sentenceText ws ++ ')' :: " AND ".toList)

def front (f : Filter) : List Char := f.sentences.flatMap clauseText

theorem toList_toQuery (f : Filter) : f.toQuery.toList = f.front ++ exclusion.toList := by
  rw [toQuery_eq_assemble]
  unfold front
  generalize f.sentences = ss
  -- each clause but the last has an `AND` behind it, so it belongs to the clause in front
  induction ss with
  | nil => rfl
  | cons ws rest ih =>
    rw [List.flatMap_cons, List.append_assoc, ← ih]
    cases rest with
    | nil =>
      show (assemble [ws, exclusionWords]).toList = _
      rw [toList_assemble_cons_cons]
      simp only [clauseText, List.cons_append, List.append_assoc, List.nil_append]
    | cons vs rest =>
      show (assemble (ws :: vs :: (rest ++ [exclusionWords]))).toList = _
      rw [toList_assemble_cons_cons]
      simp only [clauseText, List.cons_append, List.append_assoc]

/-- The last clause holds one harmless term, so it is noticed nowhere. -/
theorem run_exclusion (σ : Scan) : σ.run exclusion.toList = σ := by
  -- how deep the scan stands does not matter, and at depth zero there are two scans to run
  obtain ⟨inside, depth⟩ := σ
  have hshift : (⟨inside, depth⟩ : Scan) = Scan.shift depth ⟨inside, 0⟩ := by
    simp [Scan.shift]
  rw [hshift, Scan.run_shift]
  cases inside <;> rfl

theorem quiet_of_demand? {f : Filter} (hf : f.QuietBeside) {field : Field}
    (hmem : field ∈ Field.all) (hk : field.kind ≠ .text) {d : Demand}
    (hd : f.demand? field = some d) : ∀ t ∈ d.terms, Quiet t := by
  intro t ht
  obtain ⟨c, hc, hcd⟩ := Option.bind_eq_some_iff.mp hd
  exact hf field hmem hk c hc t (Demand.mem_terms_of_ofCriterion? hcd ht)

theorem run_clauseText_of_text {field : Field} (hmem : field ∈ Field.all) (hk : field.kind = .text)
    (d : Demand) (σ : Scan) : σ.run (clauseText (field.sentence d)) = σ.clause d.terms := by
  have hand : ∀ τ : Scan, τ.run " AND ".toList = τ := Scan.run_of_quiet (by decide)
  show (σ.step '(').run (sentenceText (field.sentence d) ++ ')' :: " AND ".toList) = _
  rw [Scan.run_append, field.run_sentence_of_text hmem hk]
  exact hand _

theorem run_clauseText_of_quiet {field : Field} (hmem : field ∈ Field.all) (hk : field.kind ≠ .text)
    {d : Demand} (hd : ∀ t ∈ d.terms, Quiet t) (σ : Scan) :
    σ.run (clauseText (field.sentence d)) = σ := by
  have hand : ∀ τ : Scan, τ.run " AND ".toList = τ := Scan.run_of_quiet (by decide)
  show (σ.step '(').run (sentenceText (field.sentence d) ++ ')' :: " AND ".toList) = _
  rw [Scan.run_append, field.run_sentence_of_quiet hmem hk hd]
  exact (hand _).trans σ.step_open_close

/-- **A scan sees of the clauses what is quoted in them.** The induction is on the fields, one
after the other. -/
theorem run_front {f : Filter} (hf : f.QuietBeside) (σ : Scan) :
    σ.run f.front = f.quotedTerms.foldl Scan.clause σ := by
  -- over any list of fields, since the induction takes them off the front
  suffices h : ∀ l : List Field, (∀ field ∈ l, field ∈ Field.all) → ∀ τ : Scan,
      τ.run ((l.filterMap fun field => (f.demand? field).map field.sentence).flatMap clauseText)
        = ((l.filter (·.kind = .text)).filterMap fun field =>
            (f.demand? field).map Demand.terms).foldl Scan.clause τ from
    h Field.all (fun _ hfield => hfield) σ
  intro l
  induction l with
  | nil => intro _ _; rfl
  | cons field rest ih =>
    intro hall τ
    have hmem : field ∈ Field.all := hall field List.mem_cons_self
    have ih' := ih fun x hx => hall x (List.mem_cons_of_mem _ hx)
    by_cases hk : field.kind = .text
    · rw [List.filter_cons_of_pos (by simpa using hk)]
      cases hd : f.demand? field with
      | none => simpa [hd] using ih' τ
      | some d =>
        simp only [List.filterMap_cons, hd, Option.map_some, List.flatMap_cons, List.foldl_cons]
        rw [Scan.run_append, run_clauseText_of_text hmem hk, ih']
    · rw [List.filter_cons_of_neg (by simpa using hk)]
      cases hd : f.demand? field with
      | none => simpa [hd] using ih' τ
      | some d =>
        simp only [List.filterMap_cons, hd, Option.map_some, List.flatMap_cons]
        rw [Scan.run_append, run_clauseText_of_quiet hmem hk (quiet_of_demand? hf hmem hk hd), ih']

/-- The two places where a scan has to stand well are one. -/
theorem keepsExclusion_iff_run_front (f : Filter) :
    f.KeepsExclusion ↔ Scan.start.run f.front = .start := by
  constructor
  · rintro ⟨front, hquery, hfront, -⟩
    rw [toList_toQuery] at hquery
    rw [List.append_cancel_right hquery]
    exact hfront
  · intro h
    refine ⟨f.front, f.toList_toQuery, h, ?_⟩
    rw [toList_toQuery, Scan.run_append, h, run_exclusion]

theorem foldl_clause_of_harmless {cs : List (List String)} (h : ∀ ts ∈ cs, ∀ t ∈ ts, Harmless t) :
    cs.foldl Scan.clause .start = .start := by
  -- each clause leads back to where the scan started
  induction cs with
  | nil => rfl
  | cons ts rest ih =>
    rw [List.foldl_cons, Harmless.clause_eq (h ts List.mem_cons_self)]
    exact ih fun us hus => h us (List.mem_cons_of_mem _ hus)

def titled (t : String) : Filter := ofList [("title", .scalar t)]

theorem get?_titled (t name : String) :
    (titled t).get? name = if name = "title" then some (.scalar t) else none :=
  get?_insert .empty "title" name (.scalar t)

theorem demand?_titled {t : String} (ht : t ≠ "") {field : Field} (hk : field.kind = .text) :
    (titled t).demand? field
      = if field.name = "title" then some (.combined .or [t]) else none := by
  have htext : Demand.ofCriterion? .text (.scalar t) = some (.combined .or [t]) := by
    rw [Demand.ofCriterion?, if_neg (by simpa [Criterion.isEmpty] using ht)]
    rfl
  unfold demand?
  rw [get?_titled]
  split
  · rw [Option.bind_some, hk, htext]
  · rfl

theorem quotedTerms_titled {t : String} (ht : t ≠ "") : (titled t).quotedTerms = [[t]] := by
  have hterms : ∀ field ∈ Field.all.filter (·.kind = .text),
      ((titled t).demand? field).map Demand.terms
        = if field.name = "title" then some [t] else none := by
    intro field hfield
    have hk : field.kind = .text := by simpa using (List.mem_filter.mp hfield).2
    rw [demand?_titled ht hk]
    split <;> rfl
  unfold quotedTerms
  rw [List.filterMap_congr hterms]
  rfl

theorem quietBeside_titled (t : String) : (titled t).QuietBeside := by
  intro field hmem hk c hc
  have htitle : ∀ f ∈ Field.all, f.name = "title" → f.kind = .text := by decide
  rw [get?_titled] at hc
  split at hc
  · rename_i hname
    exact absurd (htitle field hmem hname) hk
  · exact absurd hc (by simp)

theorem keepsExclusion_iff_foldl {f : Filter} (hf : f.QuietBeside) :
    f.KeepsExclusion ↔ f.quotedTerms.foldl Scan.clause .start = .start := by
  rw [keepsExclusion_iff_run_front, run_front hf]

theorem keepsExclusion_of_harmless {f : Filter} (hf : f.QuietBeside)
    (h : ∀ field ∈ Field.all, field.kind = .text → ∀ c ∈ f.get? field.name, ∀ t ∈ c.terms,
      Harmless t) : f.KeepsExclusion := by
  rw [keepsExclusion_iff_foldl hf]
  refine foldl_clause_of_harmless fun ts hts t ht => ?_
  obtain ⟨field, hfield, hsome⟩ := List.mem_filterMap.mp hts
  obtain ⟨hmem, hk⟩ := List.mem_filter.mp hfield
  obtain ⟨d, hd, rfl⟩ := Option.map_eq_some_iff.mp hsome
  obtain ⟨c, hc, hcd⟩ := Option.bind_eq_some_iff.mp hd
  exact h field hmem (by simpa using hk) c hc t (Demand.mem_terms_of_ofCriterion? hcd ht)

/-- A title of its own finds out whether a term is harmless. -/
theorem harmless_of_titled {t : String} (h : (titled t).KeepsExclusion) : Harmless t := by
  -- the empty term is quoted as an empty string, which is harmless, though no title is made of it
  by_cases hempty : t = ""
  · subst hempty
    rfl
  · rw [keepsExclusion_iff_foldl (quietBeside_titled t), quotedTerms_titled hempty] at h
    exact Harmless.of_clause_singleton h

/-- **When the last clause is kept.** A filter keeps it exactly if its quoted terms take a scan back
to where it started. And terms of a kind can be used in any number on any quoted field exactly if
each of them leaves a quoted string as it found it. -/
theorem keepsExclusion_iff (f : Filter) (hf : f.QuietBeside) (P : String → Prop) :
    (f.KeepsExclusion ↔ f.quotedTerms.foldl Scan.clause .start = .start) ∧
      ((∀ g : Filter, g.QuietBeside →
          (∀ field ∈ Field.all, field.kind = .text → ∀ c ∈ g.get? field.name, ∀ t ∈ c.terms, P t) →
            g.KeepsExclusion) ↔
        ∀ t, P t → Harmless t) := by
  refine ⟨keepsExclusion_iff_foldl hf, fun h t ht => ?_, fun h g hg hP => ?_⟩
  · refine harmless_of_titled (h (titled t) (quietBeside_titled t) fun field _ _ c hc u hu => ?_)
    rw [get?_titled] at hc
    split at hc
    · cases hc
      rw [List.mem_singleton.mp hu]
      exact ht
    · cases hc
  · exact keepsExclusion_of_harmless hg fun field hmem hk c hc t ht =>
      h t (hP field hmem hk c hc t ht)

/-- A term may hold the language of a query, and two quotes around it do no harm; neither does any
term that holds no quote. -/
theorem keepsExclusion_iff_sample :
    let f := ofList [("tags", .list ["a) AND (b", "\") OR (\""])]
    let g := ofList [("title", .scalar ") OR ("), ("owner", .scalar "me")]
    f.QuietBeside ∧ f.KeepsExclusion ∧ g.QuietBeside ∧ g.KeepsExclusion := by
  intro f g
  have hquiet : f.QuietBeside := by decide
  have hlaw := keepsExclusion_iff f hquiet fun t => '"' ∉ t.toList
  have hf : f.KeepsExclusion := hlaw.1.mpr (by decide)
  have hg : g.KeepsExclusion :=
    hlaw.2.mpr (fun _ h => .of_no_quote h) g (by decide) (by decide)
  exact ⟨hquiet, hf, by decide, hg⟩

/-- **One quote is enough to hide the last clause**: behind it the reader is inside a string. -/
theorem quote_hides_exclusion :
    (titled "\"").QuietBeside ∧ ¬ (titled "\"").KeepsExclusion := by
  refine ⟨quietBeside_titled _, ?_⟩
  rw [keepsExclusion_iff_run_front]
  decide

end Filter
end ContentSearch
