/-!
# Pieces of a text

A text cut at its separators. There is one piece more than there are separators, so the empty text
is one empty piece, and a separator at either end leaves an empty piece there.

Pieces are cut wherever a separator stands. Texts in which a separator may also be meant as a
character, as inside quotes, are cut by readers of their own.
-/

set_option autoImplicit false

namespace ContentSearch.Text

/-- The pieces between one separator and the next. -/
def pieces (isSeparator : Char → Bool) : List Char → List (List Char)
  | [] => [[]]
  | c :: r =>
    if isSeparator c then [] :: pieces isSeparator r
    else match pieces isSeparator r with
      | p :: ps => (c :: p) :: ps
      | [] => [[c]]

theorem pieces_eq_singleton {isSeparator : Char → Bool} {s : List Char}
    (h : ∀ c ∈ s, isSeparator c = false) : pieces isSeparator s = [s] := by
  induction s with
  | nil => rfl
  | cons c r ih =>
    have hc : isSeparator c = false := h c (by simp)
    rw [pieces, ih fun d hd => h d (by simp [hd])]
    simp [hc]

/-- A separator ends the piece in front of it and starts the one behind it. -/
theorem pieces_append_cons {isSeparator : Char → Bool} {s : List Char} {c : Char} (r : List Char)
    (h : ∀ d ∈ s, isSeparator d = false) (hc : isSeparator c) :
    pieces isSeparator (s ++ c :: r) = s :: pieces isSeparator r := by
  induction s with
  | nil => simp [pieces, hc]
  | cons d s ih =>
    have hd : isSeparator d = false := h d (by simp)
    rw [List.cons_append, pieces, ih fun e he => h e (by simp [he])]
    simp [hd]

end ContentSearch.Text
