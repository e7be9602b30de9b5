import ContentSearch.Proofs.Json.Printed
import ContentSearch.Proofs.Keyed

/-!
# The value that a printed value is read as

A reader of values gives numerals a meaning, keeps to a depth, and sorts the members of an object.
A value whose integers fit 64 bits, that has no doubles in it and that does not lie too deep comes
through all three, and what comes out is the value itself with its members sorted
(**`Value.parse?_render`**). Under a name of an object there is what was put there
(**`Value.find?_sortedIn`**), as long as no name stands twice.

Doubles are left out: a printed double is a numeral, but reading a numeral takes three roundings,
and it may come to a neighbour.

Names are sorted by their code points, and a name that stands twice keeps its last value. Both are
decided while reading, so the sorting is done to what is printed before the two are compared
(`Value.sorted`).
-/

set_option autoImplicit false

namespace ContentSearch.Json

mutual

/-- No doubles, integers of 64 bits, and containers at most so deep. -/
def Value.fits : Nat → Value → Bool
  | _, .number (.integer n) => -Nat.pow 2 63 ≤ n && n < Nat.pow 2 64
  | _, .number (.double _) => false
  | 0, .array _ => false
  | room + 1, .array items => Value.allFit room items
  | 0, .object _ => false
  | room + 1, .object members => Value.membersFit room members
  | _, _ => true
termination_by structural _ v => v

def Value.allFit : Nat → List Value → Bool
  | _, [] => true
  | room, v :: vs => v.fits room && Value.allFit room vs
termination_by structural _ vs => vs

def Value.membersFit : Nat → List (String × Value) → Bool
  | _, [] => true
  | room, (_, v) :: ms => v.fits room && Value.membersFit room ms
termination_by structural _ ms => ms

end

mutual

/-- The value with the members of its objects in the order of their names. -/
def Value.sorted : Value → Value
  | .array items => .array (Value.sortedItems items)
  | .object members => .object (Entries.insertAll [] (Value.sortedMembers members))
  | v => v
termination_by structural v => v

def Value.sortedItems : List Value → List Value
  | [] => []
  | v :: vs => v.sorted :: Value.sortedItems vs
termination_by structural vs => vs

def Value.sortedMembers : Entries Value → Entries Value
  | [] => []
  | (k, v) :: ms => (k, v.sorted) :: Value.sortedMembers ms
termination_by structural ms => ms

end

namespace Value

mutual

/-- **The document of a value has the value for its meaning**, its members sorted. -/
theorem toValue?_document (room : Nat) (v : Value) (h : v.fits room) :
    v.document.toValue? room = some v.sorted := by
  -- by the shape of the value; what lies in a container has one level less to go
  cases v with
  | null => rfl
  | bool b => rfl
  | number n =>
    cases n with
    | integer n =>
      obtain ⟨hlow, hhigh⟩ := Bool.and_eq_true_iff.mp h
      have hnumber := Numeral.toNumber?_ofInt (of_decide_eq_true hlow) (of_decide_eq_true hhigh)
      show (Numeral.ofInt n).toNumber?.map Value.number = _
      rw [hnumber]
      rfl
    | double x => exact absurd h Bool.false_ne_true
  | string s => rfl
  | array items =>
    cases room with
    | zero => exact absurd h Bool.false_ne_true
    | succ room =>
      show (Document.toValues? room (documents items)).map Value.array = _
      rw [toValues?_documents room items h]
      rfl
  | object members =>
    cases room with
    | zero => exact absurd h Bool.false_ne_true
    | succ room =>
      show (Document.toMembers? room (memberDocuments members)).map _ = _
      rw [toMembers?_memberDocuments room members h]
      rfl
termination_by structural v

theorem toValues?_documents (room : Nat) (vs : List Value) (h : allFit room vs) :
    Document.toValues? room (documents vs) = some (sortedItems vs) := by
  cases vs with
  | nil => rfl
  | cons v vs =>
    obtain ⟨hv, hvs⟩ := Bool.and_eq_true_iff.mp h
    rw [documents, Document.toValues?, toValue?_document room v hv,
      toValues?_documents room vs hvs]
    rfl
termination_by structural vs

theorem toMembers?_memberDocuments (room : Nat) (ms : List (String × Value))
    (h : membersFit room ms) :
    Document.toMembers? room (memberDocuments ms) = some (sortedMembers ms) := by
  cases ms with
  | nil => rfl
  | cons m ms =>
    obtain ⟨k, v⟩ := m
    obtain ⟨hv, hms⟩ := Bool.and_eq_true_iff.mp h
    simp only [memberDocuments, Document.toMembers?, toValue?_document room v hv,
      toMembers?_memberDocuments room ms hms]
    rfl
termination_by structural ms

end

/-- **A printed value is read back**, its members sorted. -/
theorem parse?_render {v : Value} (h : v.fits maxDepth) :
    Value.parse? v.render = some v.sorted := by
  rw [Value.parse?, render, String.toList_ofList, Value.read?, Document.read?_compact,
    Option.bind_some, toValue?_document maxDepth v h]

/-! ## Members -/

theorem membersFit_of {room : Nat} {ms : Entries Value}
    (h : ∀ k v, (k, v) ∈ ms → v.fits room) : membersFit room ms := by
  induction ms with
  | nil => rfl
  | cons m ms ih =>
    obtain ⟨k, v⟩ := m
    have hv : v.fits room := h k v List.mem_cons_self
    have hms : membersFit room ms := ih fun k v hm => h k v (List.mem_cons_of_mem _ hm)
    exact Bool.and_eq_true_iff.mpr ⟨hv, hms⟩

theorem mem_sortedMembers {ms : Entries Value} {k : String} {w : Value}
    (h : (k, w) ∈ sortedMembers ms) : ∃ v, (k, v) ∈ ms ∧ w = v.sorted := by
  induction ms with
  | nil => exact absurd h List.not_mem_nil
  | cons m ms ih =>
    obtain ⟨k', v⟩ := m
    rcases List.mem_cons.mp h with heq | h
    · cases heq
      exact ⟨v, List.mem_cons_self, rfl⟩
    · obtain ⟨v, hv, hw⟩ := ih h
      exact ⟨v, List.mem_cons_of_mem _ hv, hw⟩

theorem names_sortedMembers (ms : Entries Value) :
    Entries.names (sortedMembers ms) = Entries.names ms := by
  induction ms with
  | nil => rfl
  | cons m ms ih =>
    obtain ⟨k, v⟩ := m
    exact congrArg (k :: ·) ih

theorem find?_sortedMembers (ms : Entries Value) (k : String) :
    Entries.find? k (sortedMembers ms) = (Entries.find? k ms).map sorted := by
  induction ms with
  | nil => rfl
  | cons m ms ih =>
    obtain ⟨k', v⟩ := m
    rw [sortedMembers, Entries.find?, Entries.find?]
    split
    · rfl
    · exact ih

/-- The members of an object, as they are once the object has been read. -/
def sortedIn (ms : Entries Value) : Entries Value := Entries.insertAll [] (sortedMembers ms)

theorem mem_sortedIn {ms : Entries Value} {k : String} {w : Value} (h : (k, w) ∈ sortedIn ms) :
    ∃ v, (k, v) ∈ ms ∧ w = v.sorted := by
  rcases Entries.mem_insertAll h with h | h
  · exact mem_sortedMembers h
  · exact absurd h List.not_mem_nil

/-- **Sorting keeps what is under a name.** -/
theorem find?_sortedIn {ms : Entries Value} (h : (Entries.names ms).Nodup) (k : String) :
    Entries.find? k (sortedIn ms) = (Entries.find? k ms).map sorted := by
  rw [← names_sortedMembers] at h
  rw [sortedIn, Entries.find?_insertAll h, find?_sortedMembers]
  exact Option.or_none

end Value
end ContentSearch.Json
