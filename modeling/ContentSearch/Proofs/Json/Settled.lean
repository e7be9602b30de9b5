import ContentSearch.Proofs.Json.Members
import ContentSearch.Proofs.Json.Parsed
import ContentSearch.Proofs.Json.Record

/-!
# Values that reading has settled

Reading a value decides what its text left open: which number a numeral is, how deep containers may
lie, and in which order the members of an object stand. So a value that was read and has no doubles
in it is *settled* (**`Value.settled_of_toValue?`**): its integers have 64 bits, it does not lie too
deep, and sorting it changes nothing. What is settled comes through printing and reading as it is
(**`Value.Settled.toValue?_document`**), as the whole of a text and as a field of a record
(**`Document.fields?_memberDocuments`**).

Of two members with one name the earlier one is lost in reading. It may hold a double, and the value
that was read has none for all that; so what is said of members is said of each on its own.

The depth is part of it: a value that was read with a certain room is settled for that room, and an
item for one less. So the induction is along the document, for every room at once.
-/

set_option autoImplicit false

namespace ContentSearch

namespace Json

/-- An integer that a numeral stands for has 64 bits, with a sign or without. -/
theorem Numeral.bounds_of_toNumber? {x : Numeral} {n : Int} (h : x.toNumber? = some (.integer n)) :
    -Nat.pow 2 63 ≤ n ∧ n < Nat.pow 2 64 := by
  unfold toNumber? at h
  simp only [Bool.and_eq_true, decide_eq_true_eq] at h
  -- a numeral without a point is an integer, with the sign or without it, or it is a double
  split at h
  · rename_i hplain
    cases h
    omega
  · split at h
    · rename_i hminus
      cases h
      omega
    · obtain ⟨y, -, hy⟩ := Option.map_eq_some_iff.mp h
      cases hy

/-! ## Values without doubles -/

mutual

/-- There is no double in the value, however deep. -/
def Value.doubleFree : Value → Bool
  | .number (.double _) => false
  | .array items => Value.allDoubleFree items
  | .object members => Value.membersDoubleFree members
  | _ => true
termination_by structural v => v

def Value.allDoubleFree : List Value → Bool
  | [] => true
  | v :: vs => v.doubleFree && Value.allDoubleFree vs
termination_by structural vs => vs

def Value.membersDoubleFree : List (String × Value) → Bool
  | [] => true
  | (_, v) :: ms => v.doubleFree && Value.membersDoubleFree ms
termination_by structural ms => ms

end

namespace Value

theorem doubleFree_of_mem {vs : List Value} (h : allDoubleFree vs) {v : Value} (hv : v ∈ vs) :
    v.doubleFree := by
  induction vs with
  | nil => cases hv
  | cons w vs ih =>
    obtain ⟨hw, hvs⟩ := Bool.and_eq_true_iff.mp h
    rcases List.mem_cons.mp hv with rfl | hv
    · exact hw
    · exact ih hvs hv

theorem doubleFree_of_mem_members {ms : Entries Value} (h : membersDoubleFree ms) {k : String}
    {v : Value} (hv : (k, v) ∈ ms) : v.doubleFree := by
  induction ms with
  | nil => cases hv
  | cons m ms ih =>
    obtain ⟨k', w⟩ := m
    obtain ⟨hw, hms⟩ := Bool.and_eq_true_iff.mp h
    rcases List.mem_cons.mp hv with heq | hv
    · cases heq
      exact hw
    · exact ih hms hv

/-! ## Settled values -/

/-- A value that printing and reading leave as it is, within so many levels. -/
structure Settled (room : Nat) (v : Value) : Prop where
  fits : v.fits room
  sorted : v.sorted = v

theorem settled_int {room : Nat} {n : Int} (hlow : -Nat.pow 2 63 ≤ n) (hhigh : n < Nat.pow 2 64) :
    (int n).Settled room :=
  ⟨Bool.and_eq_true_iff.mpr ⟨decide_eq_true hlow, decide_eq_true hhigh⟩, rfl⟩

theorem Settled.array {room : Nat} {vs : List Value} (h : ∀ v ∈ vs, v.Settled room) :
    (Value.array vs).Settled (room + 1) := by
  have hitems : allFit room vs ∧ sortedItems vs = vs := by
    induction vs with
    | nil => exact ⟨rfl, rfl⟩
    | cons v vs ih =>
      obtain ⟨hv, hvs⟩ := List.forall_mem_cons.mp h
      obtain ⟨hfit, hsorted⟩ := ih hvs
      exact ⟨Bool.and_eq_true_iff.mpr ⟨hv.fits, hfit⟩, by rw [sortedItems, hv.sorted, hsorted]⟩
  exact ⟨hitems.1, congrArg Value.array hitems.2⟩

theorem sortedMembers_eq_self {room : Nat} {ms : Entries Value}
    (h : ∀ k v, (k, v) ∈ ms → v.Settled room) : sortedMembers ms = ms := by
  induction ms with
  | nil => rfl
  | cons m ms ih =>
    obtain ⟨k, v⟩ := m
    rw [sortedMembers, (h k v List.mem_cons_self).sorted,
      ih fun k w hw => h k w (List.mem_cons_of_mem _ hw)]

theorem Settled.object {room : Nat} {ms : Entries Value} (hsorted : Entries.Sorted ms)
    (h : ∀ k v, (k, v) ∈ ms → v.Settled room) : (Value.object ms).Settled (room + 1) := by
  have hfits : membersFit room ms := membersFit_of fun k v hv => (h k v hv).fits
  refine ⟨hfits, ?_⟩
  rw [Value.sorted, sortedMembers_eq_self h, hsorted.insertAll_nil]

mutual

/-- **A value that was read is settled**, if it has no doubles. -/
theorem settled_of_toValue? (room : Nat) (d : Document) {v : Value} (h : d.toValue? room = some v)
    (hv : v.doubleFree) : v.Settled room := by
  -- by the shape of the document; what lies in a container is settled for one level less
  cases d with
  | scalar s =>
    cases s with
    | null => cases h; exact ⟨rfl, rfl⟩
    | bool b => cases h; exact ⟨rfl, rfl⟩
    | numeral x =>
      obtain ⟨n, hn, rfl⟩ := Option.map_eq_some_iff.mp h
      cases n with
      | integer n =>
        obtain ⟨hlow, hhigh⟩ := Numeral.bounds_of_toNumber? hn
        exact settled_int hlow hhigh
      | double x => cases hv
    | string s =>
      obtain ⟨s, -, rfl⟩ := Option.map_eq_some_iff.mp h
      exact ⟨rfl, rfl⟩
  | array items =>
    cases room with
    | zero => cases h
    | succ room =>
      obtain ⟨vs, hvs, rfl⟩ := Option.map_eq_some_iff.mp h
      exact .array fun v hmem =>
        settled_of_toValues? room items hvs v hmem (doubleFree_of_mem hv hmem)
  | object members =>
    cases room with
    | zero => cases h
    | succ room =>
      obtain ⟨es, hes, rfl⟩ := Option.map_eq_some_iff.mp h
      refine .object (Entries.Sorted.insertAll es List.Pairwise.nil) fun k w hw => ?_
      have hfree := doubleFree_of_mem_members hv hw
      rcases Entries.mem_insertAll hw with hw | hw
      · exact settled_of_toMembers? room members hes k w hw hfree
      · cases hw
termination_by structural d

theorem settled_of_toValues? (room : Nat) (ds : List Document) {vs : List Value}
    (h : Document.toValues? room ds = some vs) : ∀ v ∈ vs, v.doubleFree → v.Settled room := by
  cases ds with
  | nil =>
    cases h
    nofun
  | cons d ds =>
    rw [Document.toValues?] at h
    split at h
    · rename_i v vs' hd hds
      cases h
      have hrest := settled_of_toValues? room ds hds
      exact List.forall_mem_cons.mpr ⟨settled_of_toValue? room d hd, hrest⟩
    · cases h
termination_by structural ds

theorem settled_of_toMembers? (room : Nat) (ms : List (Option String × Document))
    {es : Entries Value} (h : Document.toMembers? room ms = some es) :
    ∀ k v, (k, v) ∈ es → v.doubleFree → v.Settled room := by
  cases ms with
  | nil =>
    cases h
    nofun
  | cons m ms =>
    obtain ⟨name, d⟩ := m
    rw [Document.toMembers?_cons] at h
    obtain ⟨k, -, hvalue⟩ := Option.bind_eq_some_iff.mp h
    obtain ⟨v, hd, hrest⟩ := Option.bind_eq_some_iff.mp hvalue
    obtain ⟨es, hms, rfl⟩ := Option.map_eq_some_iff.mp hrest
    have hfirst := settled_of_toValue? room d hd
    have hrest := settled_of_toMembers? room ms hms
    -- each member on its own, be it one that a later member of its name replaces
    intro k' w hw
    rcases List.mem_cons.mp hw with heq | hw
    · cases heq
      exact hfirst
    · exact hrest k' w hw
termination_by structural ms

end

/-- **A settled value is the meaning of its document.** -/
theorem Settled.toValue?_document {room : Nat} {v : Value} (h : v.Settled room) :
    v.document.toValue? room = some v := by
  rw [Value.toValue?_document room v h.fits, h.sorted]

end Value

/-! ## Fields of records -/

theorem Value.names_memberDocuments (ms : Entries Value) :
    (memberDocuments ms).map Prod.fst = (Entries.names ms).map some := by
  induction ms with
  | nil => rfl
  | cons m ms ih => exact congrArg (some m.1 :: ·) ih

/-- **The fields of a printed record** are its members under the names that are known. -/
theorem Document.fields?_memberDocuments {ms : Entries Value} (names : List String)
    (hnodup : (Entries.names ms).Nodup) (h : ∀ k v, (k, v) ∈ ms → v.Settled (maxDepth - 1)) :
    fields? names (Value.memberDocuments ms) = some (ms.filter fun e => e.1 ∈ names) := by
  -- member by member; a known name is not known twice, so nothing is refused
  induction ms with
  | nil => rfl
  | cons m ms ih =>
    obtain ⟨k, v⟩ := m
    obtain ⟨hfresh, hnodup⟩ := List.nodup_cons.mp hnodup
    have hv := (h k v List.mem_cons_self).toValue?_document
    have hms := ih hnodup fun k w hw => h k w (List.mem_cons_of_mem _ hw)
    rw [Value.memberDocuments, fields?]
    by_cases hk : k ∈ names
    · have hnone : Entries.find? k (ms.filter fun e => e.1 ∈ names) = none := by
        rw [Entries.find?_filter hk, Entries.find?_eq_none hfresh]
      rw [if_pos hk, hv, hms, List.filter_cons_of_pos (by simpa using hk)]
      simp [hnone]
    · rw [if_neg hk, hms, List.filter_cons_of_neg (by simpa using hk)]

end Json
end ContentSearch
