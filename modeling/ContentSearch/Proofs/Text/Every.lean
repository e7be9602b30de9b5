/-!
# Every character of a text

A statement about every character of a text is decided by going through the text, and it holds of
two texts together if it holds of each. A run of characters that are all of one kind is dropped to
its end.

Most properties of texts in this library are of this kind: bare, plain, blank, digits only.
-/

set_option autoImplicit false

namespace ContentSearch.Text

/-- Decided on the text and not on all characters that there are. -/
instance decidableEvery {p : Char → Prop} [DecidablePred p] (s : List Char) :
    Decidable (∀ c ∈ s, p c) :=
  List.decidableBAll p s

theorem every_append {p : Char → Prop} {s t : String} (hs : ∀ c ∈ s.toList, p c)
    (ht : ∀ c ∈ t.toList, p c) : ∀ c ∈ (s ++ t).toList, p c := by
  intro c hc
  rw [String.toList_append, List.mem_append] at hc
  rcases hc with hc | hc
  · exact hs c hc
  · exact ht c hc

theorem dropWhile_of_every {p : Char → Bool} {s : List Char} (h : ∀ c ∈ s, p c) :
    s.dropWhile p = [] := by
  rw [← List.append_nil s, List.dropWhile_append_of_pos h]
  rfl

end ContentSearch.Text
