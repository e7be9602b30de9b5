import ContentSearch.Proofs.Keyed
import ContentSearch.Toml.Document

/-!
# The numbers of a document

An integer of a document has 64 bits with a sign, however deep it lies: it is read so in the first
place (`Node.inRange_ofWord?`), values that are put together of others hold no numbers of their own
(`readsInRange`, along the fuel of the reader), and adding statements up moves values without
changing them (`inRange_descend`). So it is with every entry of a document that is read
(**`inRange_read?`**).

The four readers of values call one another, so what is said of them is one structure with a field
for each (`ReadsInRange`), by induction on the fuel that they share. Statements change a table at
the end of a path, and going down the path is the same for all of them: what a change has to keep is
said for any change (`Change.KeepsRange`), and `descend` is looked at once.
-/

set_option autoImplicit false

namespace ContentSearch.Toml

/-- Every integer in the node is below `2 ^ 63`. -/
inductive Node.InRange : Node → Prop
  | string (s : String) : InRange (.string s)
  | integer {n : Int} (h : n < Nat.pow 2 63) : InRange (.integer n)
  | float (text : List Char) : InRange (.float text)
  | boolean (b : Bool) : InRange (.boolean b)
  | dateTime (text : List Char) : InRange (.dateTime text)
  | array {items : List Node} (h : ∀ v ∈ items, InRange v) : InRange (.array items)
  | table {origin : Origin} {es : Entries Node} (h : ∀ e ∈ es, InRange e.2) :
    InRange (.table origin es)
  | tables {elements : List (Entries Node)} (h : ∀ es ∈ elements, ∀ e ∈ es, InRange e.2) :
    InRange (.tables elements)

/-- Every node among the entries is so. -/
def EntriesInRange (es : Entries Node) : Prop := ∀ e ∈ es, e.2.InRange

theorem EntriesInRange.nil : EntriesInRange [] := fun _ h => absurd h List.not_mem_nil

/-! ## Values -/

theorem lt_of_fitting? {n m : Int} (h : fitting? n = some m) : m < Nat.pow 2 63 := by
  unfold fitting? at h
  split at h
  · rename_i hfits
    rw [← Option.some.inj h]
    exact hfits.2
  · cases h

theorem lt_of_integer? {w : List Char} {n : Int} (h : integer? w = some n) : n < Nat.pow 2 63 := by
  unfold integer? at h
  split at h
  -- in every base the digits have to fit in the end
  all_goals
    obtain ⟨ds, -, hfitting⟩ := Option.bind_eq_some_iff.mp h
    exact lt_of_fitting? hfitting

theorem Node.inRange_ofWord? {w : List Char} {v : Node} (h : ofWord? w = some v) : v.InRange := by
  unfold ofWord? at h
  split at h
  · rw [← Option.some.inj h]
    exact .boolean true
  · split at h
    · rw [← Option.some.inj h]
      exact .boolean false
    · split at h
      · rename_i hinteger
        rw [← Option.some.inj h]
        exact .integer (lt_of_integer? hinteger)
      · split at h
        · rw [← Option.some.inj h]
          exact .float w
        · split at h
          · rw [← Option.some.inj h]
            exact .dateTime w
          · cases h

theorem inRange_wordValue? {s r : List Char} {v : Node} (h : wordValue? s = some (v, r)) :
    v.InRange := by
  have hmap : ∀ {w : List Char} {r' : List Char},
      (Node.ofWord? w).map (fun v => (v, r')) = some (v, r) → v.InRange := by
    intro w r' hw
    obtain ⟨v', hv', heq⟩ := Option.map_eq_some_iff.mp hw
    obtain ⟨rfl, -⟩ := Prod.mk.inj heq
    exact Node.inRange_ofWord? hv'
  unfold wordValue? at h
  dsimp only at h
  split at h
  · split at h
    · exact hmap h
    · exact hmap h
  · exact hmap h

/-! ## Tables -/

theorem EntriesInRange.insert {es : Entries Node} (h : EntriesInRange es) {k : String} {v : Node}
    (hv : v.InRange) : EntriesInRange (es.insert k v) := by
  intro e he
  rcases Entries.mem_insert he with rfl | he
  · exact hv
  · exact h e he

theorem EntriesInRange.of_find? {es : Entries Node} (h : EntriesInRange es) {k : String} {v : Node}
    (hv : es.find? k = some v) : v.InRange :=
  h (k, v) (Entries.mem_of_find? hv)

/-- A change that keeps tables in range. -/
def Change.KeepsRange (change : Change) : Prop :=
  ∀ origin es es', EntriesInRange es → change origin es = some es' → EntriesInRange es'

theorem keepsRange_addValue (k : String) {v : Node} (hv : v.InRange) :
    Change.KeepsRange (addValue k v) := by
  intro origin es es' hes h
  unfold addValue at h
  split at h
  · cases h
  · rw [← Option.some.inj h]
    exact hes.insert hv

/-- **What is done to a table down a path** leaves the tables on the way as they were. -/
theorem inRange_descend (dots : Bool) {change : Change} (hchange : change.KeepsRange)
    (path : List String) : Change.KeepsRange (descend dots change path) := by
  -- along the path: a table on the way is made new, opened, or the last one of an array of tables
  induction path with
  | nil => exact hchange
  | cons k ks ih =>
    intro origin es es' hes h
    rw [descend] at h
    split at h
    · obtain ⟨child, hchild, heq⟩ := Option.map_eq_some_iff.mp h
      rw [← heq]
      exact hes.insert (.table (ih _ _ _ .nil hchild))
    · rename_i inner child hfound
      split at h
      · cases h
      · obtain ⟨child', hchild', heq⟩ := Option.map_eq_some_iff.mp h
        have hchild : EntriesInRange child := by
          cases hes.of_find? hfound with
          | table hin => exact hin
        rw [← heq]
        exact hes.insert (.table (ih _ _ _ hchild hchild'))
    · rename_i last front hfound
      obtain ⟨last', hlast', heq⟩ := Option.map_eq_some_iff.mp h
      have hall : ∀ es ∈ last :: front, EntriesInRange es := by
        cases hes.of_find? hfound with
        | tables hin => exact hin
      have hkept := ih _ _ _ (hall last List.mem_cons_self) hlast'
      rw [← heq]
      refine hes.insert (.tables fun es hmem => ?_)
      rcases List.mem_cons.mp hmem with rfl | hmem
      · exact hkept
      · exact hall es (List.mem_cons_of_mem last hmem)
    · cases h

theorem inRange_addPair {path : List String} {v : Node} (hv : v.InRange) {es es' : Entries Node}
    (hes : EntriesInRange es) (h : addPair path v es = some es') : EntriesInRange es' := by
  unfold addPair at h
  split at h
  · cases h
  · refine inRange_descend true (fun origin es es' hes h => ?_) _ _ _ _ hes h
    split at h
    · cases h
    · exact keepsRange_addValue _ hv _ _ _ hes h

theorem inRange_addHeader {path : List String} {es es' : Entries Node} (hes : EntriesInRange es)
    (h : addHeader path es = some es') : EntriesInRange es' := by
  unfold addHeader at h
  -- the header opens a new table, or one that was only implied before
  split at h
  · cases h
  · refine inRange_descend false (fun origin es es' hes h => ?_) _ _ _ _ hes h
    split at h
    · rw [← Option.some.inj h]
      exact hes.insert (.table nofun)
    · rename_i hfound
      rw [← Option.some.inj h]
      refine hes.insert ?_
      cases hes.of_find? hfound with
      | table hin => exact .table hin
    · cases h

theorem inRange_addElement {path : List String} {es es' : Entries Node} (hes : EntriesInRange es)
    (h : addElement path es = some es') : EntriesInRange es' := by
  unfold addElement at h
  split at h
  · cases h
  · refine inRange_descend false (fun origin es es' hes h => ?_) _ _ _ _ hes h
    split at h
    · rw [← Option.some.inj h]
      refine hes.insert (.tables fun table htable => ?_)
      rw [List.mem_singleton.mp htable]
      exact nofun
    · rename_i hfound
      rw [← Option.some.inj h]
      refine hes.insert (.tables fun table htable => ?_)
      rcases List.mem_cons.mp htable with rfl | hmem
      · exact nofun
      · cases hes.of_find? hfound with
        | tables hin => exact hin table hmem
    · cases h

/-- The nodes that a statement brings. -/
def Statement.InRange : Statement → Prop
  | .pair _ v => v.InRange
  | _ => True

theorem State.inRange_add {s s' : State} {st : Statement} (hst : st.InRange)
    (hs : EntriesInRange s.entries) (h : s.add st = some s') : EntriesInRange s'.entries := by
  cases st with
  | pair path v =>
    obtain ⟨es, hes, heq⟩ := Option.map_eq_some_iff.mp h
    rw [← heq]
    exact inRange_descend false (fun _ es es' hes hadd => inRange_addPair hst hes hadd)
      _ _ _ _ hs hes
  | header path =>
    obtain ⟨es, hes, heq⟩ := Option.map_eq_some_iff.mp h
    rw [← heq]
    exact inRange_addHeader hs hes
  | element path =>
    obtain ⟨es, hes, heq⟩ := Option.map_eq_some_iff.mp h
    rw [← heq]
    exact inRange_addElement hs hes

/-- Steps that may stop keep, one after the other, what each of them keeps. -/
theorem foldlM_keeps {α β : Type} {P : α → Prop} {f : α → β → Option α} {l : List β}
    (hstep : ∀ b ∈ l, ∀ a a', P a → f a b = some a' → P a') {a a' : α} (ha : P a)
    (h : l.foldlM f a = some a') : P a' := by
  -- along the steps
  induction l generalizing a with
  | nil =>
    obtain rfl : a = a' := Option.some.inj h
    exact ha
  | cons b r ih =>
    obtain ⟨c, hc, hrest⟩ := Option.bind_eq_some_iff.mp h
    have hkept : P c := hstep b List.mem_cons_self a c ha hc
    exact ih (fun b' hb' => hstep b' (List.mem_cons_of_mem b hb')) hkept hrest

theorem inRange_ofStatements? {sts : List Statement} (hsts : ∀ st ∈ sts, st.InRange)
    {es : Entries Node} (h : ofStatements? sts = some es) : EntriesInRange es := by
  obtain ⟨s, hs, rfl⟩ := Option.map_eq_some_iff.mp h
  have hstep : ∀ st ∈ sts, ∀ s s' : State, EntriesInRange s.entries → s.add st = some s' →
      EntriesInRange s'.entries := fun st hst _ _ => State.inRange_add (hsts st hst)
  exact foldlM_keeps hstep .nil hs

/-! ## Reading -/

/-- What the reader of values promises of everything that it reads with so much fuel. -/
structure ReadsInRange (fuel : Nat) : Prop where
  value : ∀ {room s v r}, value? room fuel s = some (v, r) → v.InRange
  items : ∀ {room s vs r}, items? room fuel s = some (vs, r) → ∀ v ∈ vs, v.InRange
  inlineTable : ∀ {room s v r}, inlineTable? room fuel s = some (v, r) → v.InRange
  pairs : ∀ {room s ps r}, pairs? room fuel s = some (ps, r) → ∀ p ∈ ps, p.2.InRange

theorem ReadsInRange.value_succ {fuel : Nat} (ih : ReadsInRange fuel) {room : Nat}
    {s r : List Char} {v : Node} (h : value? room (fuel + 1) s = some (v, r)) : v.InRange := by
  unfold value? at h
  split at h
  · obtain ⟨p, -, heq⟩ := Option.map_eq_some_iff.mp h
    obtain ⟨rfl, -⟩ := Prod.mk.inj heq
    exact .string _
  · obtain ⟨p, -, heq⟩ := Option.map_eq_some_iff.mp h
    obtain ⟨rfl, -⟩ := Prod.mk.inj heq
    exact .string _
  · split at h
    · cases h
    · obtain ⟨p, hp, heq⟩ := Option.map_eq_some_iff.mp h
      obtain ⟨rfl, -⟩ := Prod.mk.inj heq
      exact .array (ih.items hp)
  · split at h
    · cases h
    · exact ih.inlineTable h
  · exact inRange_wordValue? h

theorem ReadsInRange.items_succ {fuel : Nat} (ih : ReadsInRange fuel) {room : Nat}
    {s r : List Char} {vs : List Node} (h : items? room (fuel + 1) s = some (vs, r)) :
    ∀ v ∈ vs, v.InRange := by
  rw [items?] at h
  -- no item at all, one with others behind a comma, or the last one
  split at h
  · cases h
  · obtain ⟨rfl, -⟩ := Prod.mk.inj (Option.some.inj h)
    exact List.forall_mem_nil _
  · split at h
    · cases h
    · rename_i v r' hv
      have hvalue := ih.value hv
      split at h
      · obtain ⟨p, hp, heq⟩ := Option.map_eq_some_iff.mp h
        obtain ⟨rfl, -⟩ := Prod.mk.inj heq
        intro w hw
        rcases List.mem_cons.mp hw with rfl | hw
        · exact hvalue
        · exact ih.items hp w hw
      · obtain ⟨rfl, -⟩ := Prod.mk.inj (Option.some.inj h)
        intro w hw
        rw [List.mem_singleton.mp hw]
        exact hvalue
      · cases h

theorem ReadsInRange.inlineTable_succ {fuel : Nat} (ih : ReadsInRange fuel) {room : Nat}
    {s r : List Char} {v : Node} (h : inlineTable? room (fuel + 1) s = some (v, r)) :
    v.InRange := by
  rw [inlineTable?] at h
  split at h
  · obtain ⟨rfl, -⟩ := Prod.mk.inj (Option.some.inj h)
    exact .table EntriesInRange.nil
  · split at h
    · cases h
    · rename_i ps r' hps
      obtain ⟨es, hes, heq⟩ := Option.map_eq_some_iff.mp h
      obtain ⟨rfl, -⟩ := Prod.mk.inj heq
      have hstep : ∀ p ∈ ps, ∀ es es', EntriesInRange es → addPair p.1 p.2 es = some es' →
          EntriesInRange es' := fun p hp _ _ => inRange_addPair (ih.pairs hps p hp)
      exact .table (foldlM_keeps hstep .nil hes)

theorem ReadsInRange.pairs_succ {fuel : Nat} (ih : ReadsInRange fuel) {room : Nat}
    {s r : List Char} {ps : List (List String × Node)}
    (h : pairs? room (fuel + 1) s = some (ps, r)) : ∀ p ∈ ps, p.2.InRange := by
  rw [pairs?] at h
  split at h
  · split at h
    · cases h
    · rename_i v r' hv
      have hvalue := ih.value hv
      split at h
      · obtain ⟨q, hq, heq⟩ := Option.map_eq_some_iff.mp h
        obtain ⟨rfl, -⟩ := Prod.mk.inj heq
        intro p hp
        rcases List.mem_cons.mp hp with rfl | hp
        · exact hvalue
        · exact ih.pairs hq p hp
      · obtain ⟨rfl, -⟩ := Prod.mk.inj (Option.some.inj h)
        intro p hp
        rw [List.mem_singleton.mp hp]
        exact hvalue
      · cases h
  · cases h

/-- **Whatever the fuel, what is read is in range.** -/
theorem readsInRange (fuel : Nat) : ReadsInRange fuel := by
  -- The four readers call each other with less fuel, so the induction is over all of them at once.
  induction fuel with
  | zero =>
    refine ⟨fun h => ?_, fun h => ?_, fun h => ?_, fun h => ?_⟩
    · rw [value?] at h
      cases h
    · rw [items?] at h
      cases h
    · rw [inlineTable?] at h
      cases h
    · rw [pairs?] at h
      cases h
  | succ fuel ih => exact ⟨ih.value_succ, ih.items_succ, ih.inlineTable_succ, ih.pairs_succ⟩

theorem inRange_statement? {s r : List Char} {st : Statement} (h : statement? s = some (st, r)) :
    st.InRange := by
  unfold statement? at h
  split at h
  · split at h
    · obtain ⟨rfl, -⟩ := Prod.mk.inj (Option.some.inj h)
      exact trivial
    · cases h
  · split at h
    · obtain ⟨rfl, -⟩ := Prod.mk.inj (Option.some.inj h)
      exact trivial
    · cases h
  · split at h
    · obtain ⟨p, hp, heq⟩ := Option.map_eq_some_iff.mp h
      obtain ⟨rfl, -⟩ := Prod.mk.inj heq
      exact (readsInRange _).value hp
    · cases h

theorem inRange_statements? {fuel : Nat} {s : List Char} {sts : List Statement}
    (h : statements? fuel s = some sts) : ∀ st ∈ sts, st.InRange := by
  -- line by line; blank lines and comments bring no statement
  induction fuel generalizing s sts with
  | zero =>
    rw [statements?] at h
    cases h
  | succ fuel ih =>
    rw [statements?] at h
    split at h
    · cases h
      exact nofun
    · exact ih h
    · exact ih h
    · obtain ⟨r, -, hr⟩ := Option.bind_eq_some_iff.mp h
      exact ih hr
    · split at h
      · cases h
      · rename_i st r hst
        split at h
        · cases h
        · obtain ⟨sts', hsts', rfl⟩ := Option.map_eq_some_iff.mp h
          intro st' hmem
          rcases List.mem_cons.mp hmem with rfl | hmem
          · exact inRange_statement? hst
          · exact ih hsts' st' hmem

/-- **The numbers of a document that is read are in range.** -/
theorem inRange_read? {text : String} {es : Entries Node} (h : read? text = some es) :
    EntriesInRange es := by
  unfold read? at h
  obtain ⟨sts, hsts, hes⟩ := Option.bind_eq_some_iff.mp h
  exact inRange_ofStatements? (inRange_statements? hsts) hes

end ContentSearch.Toml
