import ContentSearch.Proofs.Text.Every

/-!
# Text with quoted strings

A double quote opens a quoted string and the next one closes it; there are no escapes. What stands
outside can be cut at a separator, and a separator inside a string cuts nothing.

`piecesOutside` is the reader: it cuts. `Closed` is the property of a text that cutting leaves
alone, and **`piecesOutside_intercalate`** puts the two together: closed texts that were joined by
the separator come apart again as they were. A language whose words are closed therefore has one
reading at most, whatever stands inside the quotes.

A text that is not closed can swallow the separators behind it, up to the next quote. Whether a text
is closed depends on the text and the separator, and on nothing around them.
-/

set_option autoImplicit false

namespace ContentSearch.Text

/-- Whether the text behind `c` is inside a quoted string, given whether `c` is. -/
def toggle (c : Char) (quoted : Bool) : Bool := if c = '"' then !quoted else quoted

/-- The pieces between one separator outside quoted strings and the next. `quoted` says whether the
text starts inside a string. -/
def piecesOutside (sep : Char) : Bool → List Char → List (List Char)
  | _, [] => [[]]
  | quoted, c :: r =>
    if c = sep ∧ quoted = false then [] :: piecesOutside sep false r
    else
      match piecesOutside sep (toggle c quoted) r with
      | p :: ps => (c :: p) :: ps
      | [] => [[c]]

/-- A text with no separator outside quoted strings and with no string left open. -/
def Closed (sep : Char) : Bool → List Char → Prop
  | quoted, [] => quoted = false
  | quoted, c :: r => (c = sep → quoted = true) ∧ Closed sep (toggle c quoted) r

/-! ## Closed texts -/

section Closed

variable {sep : Char}

theorem Closed.append {s t : List Char} (ht : Closed sep false t) :
    ∀ {quoted : Bool}, Closed sep quoted s → Closed sep quoted (s ++ t) := by
  induction s with
  | nil =>
    intro quoted hs
    rw [show quoted = false from hs]
    exact ht
  | cons c r ih =>
    intro quoted hs
    exact ⟨hs.1, ih hs.2⟩

theorem Closed.of_bare {s : List Char} (h : ∀ c ∈ s, c ≠ sep ∧ c ≠ '"') : Closed sep false s := by
  induction s with
  | nil => rfl
  | cons c r ih =>
    obtain ⟨hsep, hquote⟩ := h c List.mem_cons_self
    refine ⟨fun hc => absurd hc hsep, ?_⟩
    rw [toggle, if_neg hquote]
    exact ih fun d hd => h d (List.mem_cons_of_mem _ hd)

/-- Inside a string anything but a quote may stand, and the quote behind it closes. -/
theorem Closed.inside {s : List Char} (h : '"' ∉ s) : Closed sep true (s ++ ['"']) := by
  induction s with
  | nil => exact ⟨fun _ => rfl, rfl⟩
  | cons c r ih =>
    have hc : c ≠ '"' := fun hc => h (hc ▸ List.mem_cons_self)
    refine ⟨fun _ => rfl, ?_⟩
    rw [toggle, if_neg hc]
    exact ih fun hr => h (List.mem_cons_of_mem _ hr)

theorem Closed.quote {s : List Char} (hsep : sep ≠ '"') (h : '"' ∉ s) :
    Closed sep false ('"' :: (s ++ ['"'])) :=
  ⟨fun hc => absurd hc.symm hsep, Closed.inside h⟩

theorem Closed.intercalate {glue : List Char} (hglue : Closed sep false glue) :
    ∀ {ws : List (List Char)}, (∀ w ∈ ws, Closed sep false w) →
      Closed sep false (glue.intercalate ws) := by
  intro ws
  induction ws with
  | nil => intro _; rfl
  | cons w rest ih =>
    intro h
    have hw : Closed sep false w := h w List.mem_cons_self
    have hrest := ih fun x hx => h x (List.mem_cons_of_mem _ hx)
    cases rest with
    | nil => rw [List.intercalate_singleton]; exact hw
    | cons v vs =>
      rw [List.intercalate_cons_cons]
      exact hrest.append (hglue.append hw)

end Closed

/-! ## Cutting -/

theorem piecesOutside_of_closed {sep : Char} {s : List Char} :
    ∀ {quoted : Bool}, Closed sep quoted s → piecesOutside sep quoted s = [s] := by
  induction s with
  | nil => intro _ _; rfl
  | cons c r ih =>
    intro quoted h
    have hno : ¬(c = sep ∧ quoted = false) := by
      rintro ⟨hc, hq⟩
      rw [h.1 hc] at hq
      exact Bool.noConfusion hq
    rw [piecesOutside, if_neg hno, ih h.2]

/-- The first separator behind a closed text ends the first piece. -/
theorem piecesOutside_append_cons {sep : Char} {s : List Char} (r : List Char) :
    ∀ {quoted : Bool}, Closed sep quoted s →
      piecesOutside sep quoted (s ++ sep :: r) = s :: piecesOutside sep false r := by
  induction s with
  | nil =>
    intro quoted h
    rw [show quoted = false from h, List.nil_append, piecesOutside, if_pos ⟨rfl, rfl⟩]
  | cons c s ih =>
    intro quoted h
    have hno : ¬(c = sep ∧ quoted = false) := by
      rintro ⟨hc, hq⟩
      rw [h.1 hc] at hq
      exact Bool.noConfusion hq
    rw [List.cons_append, piecesOutside, if_neg hno, ih h.2]

/-- **Joining closed texts loses nothing**: cut at the separator they come apart again. -/
theorem piecesOutside_intercalate {sep : Char} {ws : List (List Char)} (hne : ws ≠ [])
    (h : ∀ w ∈ ws, Closed sep false w) : piecesOutside sep false ([sep].intercalate ws) = ws := by
  induction ws with
  | nil => exact absurd rfl hne
  | cons w rest ih =>
    have hw : Closed sep false w := h w List.mem_cons_self
    cases rest with
    | nil =>
      rw [List.intercalate_singleton]
      exact piecesOutside_of_closed hw
    | cons v vs =>
      have hrest : piecesOutside sep false ([sep].intercalate (v :: vs)) = v :: vs :=
        ih (List.cons_ne_nil v vs) fun x hx => h x (List.mem_cons_of_mem _ hx)
      rw [List.intercalate_cons_cons, List.append_assoc, List.singleton_append,
        piecesOutside_append_cons _ hw, hrest]

end ContentSearch.Text
