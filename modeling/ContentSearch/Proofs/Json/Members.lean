import ContentSearch.Json.Document
import ContentSearch.Proofs.Keyed
import Mathlib.Data.List.Forall2

/-!
# The members of an object

A document has the members of an object in the order and as often as they stand; a value has them
sorted, each name once. What is found under a name is the value of the last member of that name
(**`Document.find?_of_toValue?`**), so members that are moved past each other make no difference, as
long as those of one name keep their order (**`Document.toValue?_reordered`**).

Whether an object has a value at all is another matter: every member must have one, the ones that
give way to a later member included.

Both readers that look at members go by the last one of a name; that is why a list of members is
compared with another under each name on its own (`last?`) and never as a whole.
-/

set_option autoImplicit false

namespace ContentSearch.Json.Document

variable {room : Nat} {members members' : List (Option String × Document)}

theorem toMembers?_cons (room : Nat) (name : Option String) (d : Document)
    (r : List (Option String × Document)) :
    toMembers? room ((name, d) :: r) =
      name.bind fun k => (d.toValue? room).bind fun v => (toMembers? room r).map ((k, v) :: ·) := by
  rw [toMembers?.eq_def]
  dsimp only
  cases name with
  | none => rfl
  | some k => cases toValue? room d <;> cases toMembers? room r <;> rfl

/-- The members are read one by one, and each must have a name and a value. -/
theorem toMembers?_eq_some_iff {es : Entries Value} :
    toMembers? room members = some es ↔
      List.Forall₂ (fun m e => m.1 = some e.1 ∧ m.2.toValue? room = some e.2) members es := by
  induction members generalizing es with
  | nil =>
    rw [toMembers?, Option.some.injEq, List.forall₂_nil_left_iff]
    exact eq_comm
  | cons m r ih =>
    obtain ⟨name, d⟩ := m
    simp only [toMembers?_cons, Option.bind_eq_some_iff, Option.map_eq_some_iff]
    constructor
    · rintro ⟨k, rfl, v, hd, es', hr, rfl⟩
      exact .cons ⟨rfl, hd⟩ (ih.mp hr)
    · rintro (_ | ⟨⟨rfl, hd⟩, hr⟩)
      exact ⟨_, rfl, _, hd, _, ih.mpr hr, rfl⟩

theorem isSome_toMembers?_iff :
    (toMembers? room members).isSome ↔
      ∀ m ∈ members, m.1.isSome ∧ (m.2.toValue? room).isSome := by
  induction members with
  | nil => exact iff_of_true rfl nofun
  | cons m r ih =>
    obtain ⟨name, d⟩ := m
    rw [List.forall_mem_cons, ← ih, toMembers?_cons]
    cases name <;> cases toValue? room d <;> cases toMembers? room r <;> simp

theorem find?_of_forall₂ {es : Entries Value}
    (h : List.Forall₂ (fun m e => m.1 = some e.1 ∧ m.2.toValue? room = some e.2) members es)
    (k : String) :
    (List.find? (·.1 = k) es).map Prod.snd
      = ((members.find? (·.1 = some k)).map Prod.snd).bind (toValue? room) := by
  induction h with
  | nil => rfl
  | @cons m e r es' hm _ ih =>
    obtain ⟨name, d⟩ := m
    obtain ⟨k', v⟩ := e
    obtain ⟨rfl, hd⟩ := hm
    by_cases hk : k' = k
    · rw [List.find?_cons_of_pos (by simpa using hk), List.find?_cons_of_pos (by simpa using hk),
        Option.map_some, Option.map_some, Option.bind_some, hd]
    · rw [List.find?_cons_of_neg (by simpa using hk), List.find?_cons_of_neg (by simpa using hk),
        ih]

/-- Under a name is what the last member of that name has. -/
theorem last?_of_toMembers? {es : Entries Value} (h : toMembers? room members = some es)
    (k : String) :
    Entries.last? k es = (Entries.last? (some k) members).bind (toValue? room) :=
  find?_of_forall₂ (List.rel_reverse (toMembers?_eq_some_iff.mp h)) k

theorem toValue?_object (room : Nat) (members : List (Option String × Document)) :
    toValue? (room + 1) (.object members)
      = (toMembers? room members).map fun es => .object (Entries.insertAll [] es) := by
  rw [toValue?]

/-- **What an object has for its value.** -/
theorem find?_of_toValue? {v : Value} (h : toValue? (room + 1) (.object members) = some v) :
    ∃ es : Entries Value, v = .object es ∧ Entries.Sorted es ∧
      ∀ k, Entries.find? k es = (Entries.last? (some k) members).bind (toValue? room) := by
  rw [toValue?_object] at h
  obtain ⟨es, hes, rfl⟩ := Option.map_eq_some_iff.mp h
  refine ⟨_, rfl, Entries.Sorted.insertAll es List.Pairwise.nil, fun k => ?_⟩
  rw [Entries.find?_insertAll_last, last?_of_toMembers? hes]
  exact Option.or_none

/-- **The order of the members does not matter**, but for members of one name. -/
theorem toValue?_reordered (h : Entries.Reordered members members') :
    toValue? room (.object members) = toValue? room (.object members') := by
  cases room with
  | zero => rfl
  | succ room =>
    have hsome : (toValue? (room + 1) (.object members)).isSome
        ↔ (toValue? (room + 1) (.object members')).isSome := by
      simp only [toValue?_object, Option.isSome_map, isSome_toMembers?_iff]
      exact ⟨fun hall m hm => hall m (h.symm.mem hm), fun hall m hm => hall m (h.mem hm)⟩
    cases hv : toValue? (room + 1) (.object members) with
    | none =>
      rw [hv] at hsome
      exact (Option.not_isSome_iff_eq_none.mp (hsome.not.mp nofun)).symm
    | some v =>
      rw [hv] at hsome
      obtain ⟨v', hv'⟩ := Option.isSome_iff_exists.mp (hsome.mp rfl)
      obtain ⟨es, rfl, hsorted, hes⟩ := find?_of_toValue? hv
      obtain ⟨es', rfl, hsorted', hes'⟩ := find?_of_toValue? hv'
      have heq : es = es' := Entries.Sorted.ext hsorted hsorted' fun k => by
        rw [hes, hes', h.last?_eq]
      rw [hv', heq]

end ContentSearch.Json.Document
