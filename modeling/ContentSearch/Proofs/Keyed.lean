import ContentSearch.Keyed

/-!
# Finding entries

What is written out is often a table of names with a value *where there is one*. Leaving the others
out is harmless as long as no name stands twice: what is found under a name is what the table has
for it (**`find?_present`**), and nothing else is there (**`filter_name`**).

A list of entries that is sorted in by name loses the order in which they came, and of those with
one name all but the last (**`find?_insertAll_last`**). With no name twice, nothing else is lost
(**`find?_insertAll`**).

Two lists with the same last entry under each name are the same map. Entries may therefore change
places as long as those with one name keep theirs (`Reordered`), and what a filter, an object or a
table of settings makes of its entries does not depend on more.
-/

set_option autoImplicit false

namespace ContentSearch.Entries

variable {α : Type}

def names (es : Entries α) : List String := es.map Prod.fst

theorem find?_eq_none {es : Entries α} {k : String} (h : k ∉ names es) : find? k es = none := by
  induction es with
  | nil => rfl
  | cons e r ih =>
    obtain ⟨k', v⟩ := e
    obtain ⟨hne, hr⟩ := not_or.mp (mt List.mem_cons.mpr h)
    rw [find?, if_neg hne]
    exact ih hr

theorem mem_of_find? {es : Entries α} {k : String} {v : α}
    (h : find? k es = some v) : (k, v) ∈ es := by
  induction es with
  | nil => cases h
  | cons e r ih =>
    obtain ⟨k', v'⟩ := e
    rw [find?] at h
    split at h
    · rename_i hk
      rw [hk, Option.some.inj h]
      exact List.mem_cons_self
    · exact List.mem_cons_of_mem _ (ih h)

/-- Leaving out what has other names keeps what is found under a name. -/
theorem find?_filter {kept : List String} {k : String} (hk : k ∈ kept) (es : Entries α) :
    find? k (es.filter fun e => e.1 ∈ kept) = find? k es := by
  induction es with
  | nil => rfl
  | cons e r ih =>
    obtain ⟨k', v⟩ := e
    by_cases hmem : k' ∈ kept
    · rw [List.filter_cons_of_pos (by simpa using hmem), find?, find?, ih]
    · have hne : k ≠ k' := fun heq => hmem (heq ▸ hk)
      rw [List.filter_cons_of_neg (by simpa using hmem), find?, if_neg hne, ih]

/-- **All that is there under a name** is what is found there. -/
theorem filter_name {es : Entries α} (hnodup : (names es).Nodup) (k : String) :
    es.filter (·.1 = k) = (find? k es).toList.map (k, ·) := by
  induction es with
  | nil => rfl
  | cons e r ih =>
    obtain ⟨k', v⟩ := e
    obtain ⟨hfresh, hr⟩ := List.nodup_cons.mp hnodup
    -- under a name that is here there is nothing further on, for no name stands twice
    by_cases hk : k = k'
    · subst hk
      rw [List.filter_cons_of_pos (by simp), ih hr, find?_eq_none hfresh, find?, if_pos rfl]
      rfl
    · rw [List.filter_cons_of_neg (by simp [Ne.symm hk]), ih hr, find?, if_neg hk]

/-! ## Tables with gaps -/

/-- The entries that have a value. -/
def present (t : Entries (Option α)) : Entries α := t.filterMap fun e => e.2.map (e.1, ·)

theorem present_cons (k : String) (o : Option α) (r : Entries (Option α)) :
    present ((k, o) :: r) = o.toList.map (k, ·) ++ present r := by
  cases o <;> rfl

theorem mem_present {t : Entries (Option α)} {k : String} {v : α} :
    (k, v) ∈ present t ↔ (k, some v) ∈ t := by
  constructor
  · intro h
    obtain ⟨⟨k', o⟩, he, ho⟩ := List.mem_filterMap.mp h
    obtain ⟨w, rfl, hw⟩ := Option.map_eq_some_iff.mp ho
    cases hw
    exact he
  · intro h
    exact List.mem_filterMap.mpr ⟨(k, some v), h, rfl⟩

/-- What holds of all that is there holds of every value in the table. -/
theorem forall_present {t : Entries (Option α)} {p : String → α → Prop}
    (h : ∀ e ∈ t, ∀ v, e.2 = some v → p e.1 v) (k : String) (v : α) (hv : (k, v) ∈ present t) :
    p k v :=
  h (k, some v) (mem_present.mp hv) v rfl

theorem names_present (t : Entries (Option α)) : (names (present t)).Sublist (names t) := by
  induction t with
  | nil => exact List.Sublist.refl []
  | cons e r ih =>
    obtain ⟨k, o⟩ := e
    cases o with
    | none => exact ih.cons k
    | some v => exact ih.cons_cons k

/-- **Leaving the gaps out loses nothing.** -/
theorem find?_present {t : Entries (Option α)} (hnodup : (names t).Nodup) (k : String) :
    find? k (present t) = (find? k t).join := by
  induction t with
  | nil => rfl
  | cons e r ih =>
    obtain ⟨k', o⟩ := e
    obtain ⟨hfresh, hr⟩ := List.nodup_cons.mp hnodup
    -- The name may be here with a gap. Then it is missing behind as well, since no name stands
    -- twice.
    by_cases hk : k = k'
    · subst hk
      have hrest : find? k (present r) = none := by
        rw [ih hr, find?_eq_none hfresh]
        rfl
      cases o with
      | none => simpa [present_cons, find?] using hrest
      | some v => simp [present_cons, find?]
    · have hrest := ih hr
      cases o with
      | none => simpa [present_cons, find?, hk] using hrest
      | some v => simpa [present_cons, find?, hk] using hrest

/-! ## Sorting in -/

theorem insert_insert (k : String) (v w : α) (es : Entries α) :
    insert k w (insert k v es) = insert k w es := by
  induction es with
  | nil => simp [insert]
  | cons e r ih =>
    obtain ⟨k', v'⟩ := e
    simp only [insert]
    by_cases hlt : k < k'
    · simp [hlt, insert]
    · by_cases heq : k = k'
      · subst heq
        simp [insert]
      · simp [hlt, heq, insert, ih]

theorem mem_insertAll {es old : Entries α} {e : String × α} (h : e ∈ insertAll old es) :
    e ∈ es ∨ e ∈ old := by
  induction es generalizing old with
  | nil => exact .inr h
  | cons a r ih =>
    rcases ih h with h | h
    · exact .inl (List.mem_cons_of_mem a h)
    · rcases mem_insert h with rfl | h
      · exact .inl List.mem_cons_self
      · exact .inr h

/-! ## The last entry under a name -/

section Last

variable {κ : Type} [DecidableEq κ]

/-- The last value that a list has under a name. -/
def last? (k : κ) (es : List (κ × α)) : Option α := (List.find? (·.1 = k) es.reverse).map Prod.snd

theorem last?_eq_none_iff {es : List (κ × α)} {k : κ} :
    last? k es = none ↔ ∀ e ∈ es, e.1 ≠ k := by
  simp [last?, List.find?_eq_none]

theorem last?_append (k : κ) (es fs : List (κ × α)) :
    last? k (es ++ fs) = (last? k fs).or (last? k es) := by
  rw [last?, List.reverse_append, List.find?_append, Option.map_or]
  rfl

theorem last?_singleton (k k' : κ) (v : α) :
    last? k [(k', v)] = if k = k' then some v else none := by
  by_cases h : k = k'
  · simp [last?, h]
  · simp [last?, h, Ne.symm h]

theorem last?_cons (k k' : κ) (v : α) (r : List (κ × α)) :
    last? k ((k', v) :: r) = (last? k r).or (if k = k' then some v else none) := by
  rw [← List.singleton_append, last?_append, last?_singleton]

theorem last?_filter (k : κ) (es : List (κ × α)) :
    last? k (es.filter (·.1 = k)) = last? k es := by
  induction es with
  | nil => rfl
  | cons e r ih =>
    obtain ⟨k', v⟩ := e
    by_cases h : k' = k
    · rw [List.filter_cons_of_pos (by simpa using h), last?_cons, last?_cons, ih]
    · rw [List.filter_cons_of_neg (by simpa using h), last?_cons, if_neg (Ne.symm h), ih,
        Option.or_none]

/-- The same entries under each name and in the same order there: one list is the other with entries
of different names moved past each other. -/
def Reordered (es fs : List (κ × α)) : Prop := ∀ k, es.filter (·.1 = k) = fs.filter (·.1 = k)

namespace Reordered

variable {es fs : List (κ × α)}

theorem mem (h : Reordered es fs) {e : κ × α} (he : e ∈ es) : e ∈ fs := by
  have hunder : e ∈ es.filter (·.1 = e.1) := List.mem_filter.mpr ⟨he, by simp⟩
  rw [h e.1] at hunder
  exact (List.mem_filter.mp hunder).1

theorem symm (h : Reordered es fs) : Reordered fs es := fun k => (h k).symm

theorem last?_eq (h : Reordered es fs) (k : κ) : last? k es = last? k fs := by
  rw [← last?_filter k es, h k, last?_filter]

/-- Values that are read one by one, those without a reading left out, come in the same order. -/
theorem filterMap {β : Type} (h : Reordered es fs) (read : α → Option β) :
    Reordered (es.filterMap fun e => (read e.2).map (e.1, ·))
      (fs.filterMap fun e => (read e.2).map (e.1, ·)) := by
  -- reading keeps the names, so it can be done before or behind the choice of one
  have hunder : ∀ (gs : List (κ × α)) (k : κ),
      (gs.filterMap fun e => (read e.2).map (e.1, ·)).filter (·.1 = k)
        = (gs.filter (·.1 = k)).filterMap fun e => (read e.2).map (e.1, ·) := by
    intro gs k
    induction gs with
    | nil => rfl
    | cons e r ih =>
      by_cases hk : e.1 = k <;> cases hread : read e.2 <;> simp [hk, hread, ← ih]
  intro k
  rw [hunder, hunder, h k]

/-- With no name twice, all orders are alike. -/
theorem of_perm (hnodup : (es.map Prod.fst).Nodup) (h : es.Perm fs) : Reordered es fs := by
  intro k
  have hperm : (es.filter (·.1 = k)).Perm (fs.filter (·.1 = k)) := h.filter _
  have hsub : (es.filter (·.1 = k)).Sublist es := List.filter_sublist
  have hnames : ((es.filter (·.1 = k)).map Prod.fst).Nodup := hnodup.sublist (hsub.map Prod.fst)
  have hunder : ∀ e ∈ es.filter (·.1 = k), e.1 = k := fun e he => by
    simpa using (List.mem_filter.mp he).2
  generalize es.filter (·.1 = k) = under at hperm hnames hunder
  match under with
  | [] => exact (List.nil_perm.mp hperm).symm
  | [e] => exact List.singleton_perm.mp hperm
  | e :: e' :: r =>
    -- two entries under one name
    have heq : e.1 = e'.1 := by rw [hunder e (by simp), hunder e' (by simp)]
    simp [heq] at hnames

end Reordered

end Last

/-- With no name twice, the last entry under a name is the one that is found there. -/
theorem last?_eq_find? {es : Entries α} (hnodup : (names es).Nodup) (k : String) :
    last? k es = find? k es := by
  induction es with
  | nil => rfl
  | cons e r ih =>
    obtain ⟨k', v⟩ := e
    obtain ⟨hfresh, hr⟩ := List.nodup_cons.mp hnodup
    rw [last?_cons, ih hr, find?]
    by_cases hk : k = k'
    · subst hk
      rw [if_pos rfl, if_pos rfl, find?_eq_none hfresh]
      rfl
    · rw [if_neg hk, if_neg hk, Option.or_none]

/-- Values that are read one by one, those without a reading left out. -/
theorem last?_filterMap {β : Type} {es : Entries α} (hnodup : (names es).Nodup)
    (read : α → Option β) (k : String) :
    last? k (es.filterMap fun e => (read e.2).map (e.1, ·)) = (find? k es).bind read := by
  induction es with
  | nil => rfl
  | cons e r ih =>
    obtain ⟨k', v⟩ := e
    obtain ⟨hfresh, hr⟩ := List.nodup_cons.mp hnodup
    have hrest := ih hr
    by_cases hk : k = k'
    · subst hk
      rw [find?_eq_none hfresh, Option.bind_none] at hrest
      cases hread : read v with
      | none => simp [hread, find?, hrest]
      | some w => simp [hread, find?, last?_cons, hrest]
    · cases hread : read v with
      | none => simp [hread, find?, hk, hrest]
      | some w => simp [hread, find?, hk, last?_cons, hrest]

/-- **What is found among entries that were put in one after the other** is the last of them. -/
theorem find?_insertAll_last (es old : Entries α) (k : String) :
    find? k (insertAll old es) = (last? k es).or (find? k old) := by
  -- along what is put in; the entry in front counts if no later one has its name
  induction es generalizing old with
  | nil => rfl
  | cons e r ih =>
    obtain ⟨k', v⟩ := e
    show find? k (insertAll (insert k' v old) r) = _
    rw [ih, find?_insert, last?_cons, Option.or_assoc]
    by_cases hk : k = k'
    · rw [if_pos hk, if_pos hk]
      rfl
    · rw [if_neg hk, if_neg hk]
      rfl

theorem find?_insertAll {es : Entries α} (hnodup : (names es).Nodup) (old : Entries α)
    (k : String) : find? k (insertAll old es) = (find? k es).or (find? k old) := by
  rw [find?_insertAll_last, last?_eq_find? hnodup]

theorem Sorted.nodup_names {es : Entries α} (h : Sorted es) : (names es).Nodup := by
  have hascending : (names es).Pairwise (· < ·) := List.pairwise_map.mpr h
  refine hascending.imp ?_
  rintro k _ hlt rfl
  exact String.lt_irrefl k hlt

/-- Sorted entries that are sorted in are what they were. -/
theorem Sorted.insertAll_nil {es : Entries α} (h : Sorted es) : Entries.insertAll [] es = es := by
  -- two sorted lists in which the same is found are one list
  refine (Sorted.insertAll es List.Pairwise.nil).ext h fun k => ?_
  rw [find?_insertAll h.nodup_names]
  exact Option.or_none

end ContentSearch.Entries
