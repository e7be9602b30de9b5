/-!
# Entries by name

A finite map from names to values, kept as the list of its entries in ascending order of their
names. Strings are ordered by their code points, which is also the order of their UTF-8 bytes.

Order in the type is what makes equality mean something: two maps that answer every `find?` alike
are equal (`ext`), however they were built.

The operations work on plain lists of entries, because a JSON object holds one; `Keyed` adds the
order as a field of its type.

Inserting puts the new value in the place of an old one, and no entry is ever taken out again. Who
wants some of the entries only makes a list of those.
-/

set_option autoImplicit false

namespace ContentSearch

/-- A list of entries by name. -/
abbrev Entries (α : Type) := List (String × α)

namespace Entries

variable {α β : Type}

/-- Puts a value under a name; an entry of the same name gives way. -/
def insert (k : String) (v : α) : Entries α → Entries α
  | [] => [(k, v)]
  | (k', v') :: r =>
    if k < k' then (k, v) :: (k', v') :: r
    else if k = k' then (k, v) :: r
    else (k', v') :: insert k v r

def find? (k : String) : Entries α → Option α
  | [] => none
  | (k', v) :: r => if k = k' then some v else find? k r

/-- Puts entries one after the other: of two with the same name the later one stays. -/
def insertAll (es : Entries α) (from_ : Entries α) : Entries α :=
  from_.foldl (fun acc e => insert e.1 e.2 acc) es

/-- Ascending names, hence no name twice. -/
def Sorted (es : Entries α) : Prop :=
  es.Pairwise fun a b => a.1 < b.1

theorem mem_insert {k : String} {v : α} {es : Entries α} {e : String × α}
    (h : e ∈ insert k v es) : e = (k, v) ∨ e ∈ es := by
  induction es with
  | nil => simpa [insert] using h
  | cons a r ih =>
    obtain ⟨k', v'⟩ := a
    simp only [insert] at h
    split at h
    · simpa using h
    · split at h
      · rcases List.mem_cons.1 h with h | h
        · exact .inl h
        · exact .inr (List.mem_cons_of_mem _ h)
      · rcases List.mem_cons.1 h with h | h
        · exact .inr (h ▸ List.mem_cons_self)
        · exact (ih h).imp id (List.mem_cons_of_mem _)

theorem Sorted.insert {k : String} {v : α} {es : Entries α} (h : Sorted es) :
    Sorted (Entries.insert k v es) := by
  induction es with
  | nil => simp [Entries.insert, Sorted]
  | cons a r ih =>
    obtain ⟨k', v'⟩ := a
    obtain ⟨hhead, htail⟩ := List.pairwise_cons.1 h
    simp only [Entries.insert]
    split
    · rename_i hlt
      refine List.pairwise_cons.2 ⟨fun e he => ?_, h⟩
      rcases List.mem_cons.1 he with he | he
      · exact he ▸ hlt
      · exact String.lt_trans hlt (hhead e he)
    · split
      · rename_i heq
        subst heq
        exact List.pairwise_cons.2 ⟨hhead, htail⟩
      · rename_i hnlt hne
        refine List.pairwise_cons.2 ⟨fun e he => ?_, ih htail⟩
        rcases mem_insert he with he | he
        · subst he
          show k' < k
          grind
        · exact hhead e he

theorem Sorted.insertAll {es : Entries α} (from_ : Entries α) (h : Sorted es) :
    Sorted (Entries.insertAll es from_) := by
  induction from_ generalizing es with
  | nil => exact h
  | cons a r ih => exact ih (Sorted.insert h)

/-- What is found after a put: the new value under its name, and the old ones elsewhere. -/
theorem find?_insert (k k' : String) (v : α) (es : Entries α) :
    find? k' (insert k v es) = if k' = k then some v else find? k' es := by
  induction es with
  | nil => simp [insert, find?]
  | cons a r ih =>
    obtain ⟨k₀, v₀⟩ := a
    simp only [insert]
    split
    · simp [find?]
    · split <;> grind [find?]

theorem find?_eq_none_of_lt {k : String} {es : Entries α} (h : ∀ e ∈ es, k < e.1) :
    find? k es = none := by
  induction es with
  | nil => rfl
  | cons a r ih =>
    obtain ⟨k', v'⟩ := a
    have hlt : k < k' := h (k', v') (by simp)
    have hne : k ≠ k' := by grind
    simp only [find?, if_neg hne]
    exact ih fun e he => h e (List.mem_cons_of_mem _ he)

/-- A name below the first one is not among sorted entries. -/
theorem Sorted.find?_eq_none {b : String × α} {s : Entries α} (h : Sorted (b :: s)) {k : String}
    (hk : k < b.1) : find? k (b :: s) = none := by
  refine find?_eq_none_of_lt fun e he => ?_
  rcases List.mem_cons.1 he with rfl | he
  · exact hk
  · exact String.lt_trans hk ((List.pairwise_cons.1 h).1 e he)

/-- Sorted entries that answer alike are the same list. -/
theorem Sorted.ext {es fs : Entries α} (he : Sorted es) (hf : Sorted fs)
    (h : ∀ k, find? k es = find? k fs) : es = fs := by
  -- along both lists; of two different first names the lower one is missing in the other list
  induction es generalizing fs with
  | nil =>
    cases fs with
    | nil => rfl
    | cons b s => have := h b.1; simp [find?] at this
  | cons a r ih =>
    obtain ⟨k, v⟩ := a
    obtain ⟨hhead, htail⟩ := List.pairwise_cons.1 he
    cases fs with
    | nil => have := h k; simp [find?] at this
    | cons b s =>
      obtain ⟨k', v'⟩ := b
      obtain ⟨hhead', htail'⟩ := List.pairwise_cons.1 hf
      have hnotBelow : ¬ k < k' := by
        intro hk
        have := h k
        rw [hf.find?_eq_none hk] at this
        simp [find?] at this
      have hnotAbove : ¬ k' < k := by
        intro hk
        have := h k'
        rw [he.find?_eq_none hk] at this
        simp [find?] at this
      have hkk : k = k' := by grind
      subst hkk
      have hv : v = v' := by have := h k; simpa [find?] using this
      subst hv
      congr 1
      refine ih htail htail' fun j => ?_
      by_cases hj : j = k
      · subst hj
        rw [find?_eq_none_of_lt hhead, find?_eq_none_of_lt hhead']
      · have := h j
        simpa [find?, hj] using this

end Entries

/-- A finite map from names to values. -/
structure Keyed (α : Type) where
  entries : Entries α
  sorted : entries.Sorted

namespace Keyed

variable {α : Type}

def empty : Keyed α := ⟨[], List.Pairwise.nil⟩

instance : EmptyCollection (Keyed α) := ⟨empty⟩

instance [DecidableEq α] : DecidableEq (Keyed α) := fun a b =>
  decidable_of_iff (a.entries = b.entries)
    ⟨fun h => by cases a; cases b; cases h; rfl, fun h => h ▸ rfl⟩

def insert (m : Keyed α) (k : String) (v : α) : Keyed α :=
  ⟨m.entries.insert k v, m.sorted.insert⟩

def get? (m : Keyed α) (k : String) : Option α := m.entries.find? k

def isEmpty (m : Keyed α) : Bool := m.entries.isEmpty

/-- Later entries win over earlier ones of the same name. -/
def ofList (es : Entries α) : Keyed α :=
  es.foldl (fun m e => m.insert e.1 e.2) empty

@[simp] theorem get?_empty (k : String) : (empty : Keyed α).get? k = none := rfl

theorem get?_insert (m : Keyed α) (k k' : String) (v : α) :
    (m.insert k v).get? k' = if k' = k then some v else m.get? k' :=
  Entries.find?_insert k k' v m.entries

/-- **Extensionality**: a map is what it answers. -/
theorem ext {m n : Keyed α} (h : ∀ k, m.get? k = n.get? k) : m = n := by
  cases m with
  | mk es he =>
    cases n with
    | mk fs hf =>
      have heq : es = fs := Entries.Sorted.ext he hf h
      subst heq
      rfl

end Keyed
end ContentSearch
