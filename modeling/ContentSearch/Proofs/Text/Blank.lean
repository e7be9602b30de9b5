import ContentSearch.Proofs.Text.Every
import ContentSearch.Text.Blank

/-!
# Trimming

What stands around a text and is blank makes no difference to the trimmed text, a text without
blanks is trimmed already, and what is trimmed away from a text is blank. Trimming one character at
the end leaves none of it there.

A text that is trimmed can be put together again from what was taken off (`exists_surroundings`), so
a statement about trimmed texts is one about texts between blanks.
-/

set_option autoImplicit false

namespace ContentSearch.Text

/-- Blanks behind a text go before anything in it does. -/
theorem dropWhile_isBlank_append {s w : List Char} (hw : ∀ c ∈ w, isBlank c) :
    ∃ w', (s ++ w).dropWhile isBlank = s.dropWhile isBlank ++ w' ∧ ∀ c ∈ w', isBlank c := by
  by_cases hs : (s.dropWhile isBlank).isEmpty
  · refine ⟨[], ?_, fun c hc => absurd hc List.not_mem_nil⟩
    have hnil : s.dropWhile isBlank = [] := List.isEmpty_iff.mp hs
    rw [List.dropWhile_append, if_pos hs, hnil, dropWhile_of_every hw]
    rfl
  · refine ⟨w, ?_, hw⟩
    rw [List.dropWhile_append, if_neg hs]

/-- **Blanks around a text are trimmed away with its own.** -/
theorem trimBlanks_surrounded {v w : List Char} (s : List Char) (hv : ∀ c ∈ v, isBlank c)
    (hw : ∀ c ∈ w, isBlank c) : trimBlanks (v ++ s ++ w) = trimBlanks s := by
  obtain ⟨w', hdrop, hw'⟩ := dropWhile_isBlank_append (s := s) hw
  unfold trimBlanks
  rw [List.append_assoc, List.dropWhile_append_of_pos hv, hdrop, List.reverse_append,
    List.dropWhile_append_of_pos fun c hc => hw' c (List.mem_reverse.mp hc)]

/-- **Nothing but blanks is trimmed away.** -/
theorem exists_surroundings (s : List Char) :
    ∃ v w, s = v ++ trimBlanks s ++ w ∧ (∀ c ∈ v, isBlank c) ∧ ∀ c ∈ w, isBlank c := by
  have hblank : ∀ t : List Char, ∀ c ∈ t.takeWhile isBlank, isBlank c := fun t =>
    List.all_eq_true.mp (List.all_takeWhile (l := t))
  have hleft : s.takeWhile isBlank ++ s.dropWhile isBlank = s := List.takeWhile_append_dropWhile
  have hright : trimBlanks s ++ ((s.dropWhile isBlank).reverse.takeWhile isBlank).reverse
      = s.dropWhile isBlank := by
    rw [trimBlanks, ← List.reverse_append, List.takeWhile_append_dropWhile, List.reverse_reverse]
  refine ⟨s.takeWhile isBlank, ((s.dropWhile isBlank).reverse.takeWhile isBlank).reverse, ?_,
    hblank s, fun c hc => hblank _ c (List.mem_reverse.mp hc)⟩
  rw [List.append_assoc, hright, hleft]

theorem trimBlanks_eq_self {s : List Char} (h : ∀ c ∈ s, ¬ isBlank c) : trimBlanks s = s := by
  have hkeep : ∀ t : List Char, (∀ c ∈ t, ¬ isBlank c) → t.dropWhile isBlank = t := by
    intro t ht
    cases t with
    | nil => rfl
    | cons c r => rw [List.dropWhile_cons_of_neg (ht c List.mem_cons_self)]
  unfold trimBlanks
  rw [hkeep s h, hkeep _ fun c hc => h c (List.mem_reverse.mp hc), List.reverse_reverse]

/-- What is removed at the end is copies of the one character, and none of them is left. -/
theorem exists_dropTrailing (c : Char) (s : List Char) :
    ∃ n, s = dropTrailing c s ++ List.replicate n c ∧ (dropTrailing c s).getLast? ≠ some c := by
  refine ⟨(s.reverse.takeWhile (· == c)).length, ?_, ?_⟩
  · have hcopies : s.reverse.takeWhile (· == c)
        = List.replicate (s.reverse.takeWhile (· == c)).length c :=
      List.eq_replicate_iff.mpr ⟨rfl, fun b hb => by
        simpa using List.all_eq_true.mp (List.all_takeWhile (l := s.reverse)) b hb⟩
    have hsplit := congrArg List.reverse
      (List.takeWhile_append_dropWhile (p := (· == c)) (l := s.reverse))
    rw [List.reverse_append, List.reverse_reverse, hcopies, List.reverse_replicate] at hsplit
    exact hsplit.symm
  · intro hlast
    rw [dropTrailing, List.getLast?_reverse] at hlast
    have hhead := List.head?_dropWhile_not (· == c) s.reverse
    rw [hlast] at hhead
    simp at hhead

theorem dropTrailing_append_replicate (c : Char) (s : List Char) (n : Nat) :
    dropTrailing c (s ++ List.replicate n c) = dropTrailing c s := by
  induction n with
  | zero => rw [List.replicate_zero, List.append_nil]
  | succ n ih =>
    rw [List.replicate_succ', ← List.append_assoc, dropTrailing_append_self, ih]

theorem dropTrailing_dropTrailing (c : Char) (s : List Char) :
    dropTrailing c (dropTrailing c s) = dropTrailing c s := by
  obtain ⟨n, hsplit, -⟩ := exists_dropTrailing c s
  have htwice := congrArg (dropTrailing c) hsplit
  rw [dropTrailing_append_replicate] at htwice
  exact htwice.symm

/-- Another character is never trimmed away. -/
theorem dropTrailing_ne_nil {c d : Char} {s : List Char} (hd : d ∈ s) (hne : d ≠ c) :
    dropTrailing c s ≠ [] := by
  intro hnil
  obtain ⟨n, hsplit, -⟩ := exists_dropTrailing c s
  rw [hnil, List.nil_append] at hsplit
  rw [hsplit] at hd
  exact hne (List.eq_of_mem_replicate hd)

end ContentSearch.Text
