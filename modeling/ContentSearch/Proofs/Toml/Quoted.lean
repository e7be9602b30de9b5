import ContentSearch.Toml.Quoted

/-!
# Written strings are read back

A string is written on one line between two quotes. What stands for each of its characters is read
as that character, whatever follows (`basic?_writeChar`), so the whole is read up to the closing
quote (**`any?_write`**). Three quotes in a row would open a string of several lines; an empty
string has two, and what is written of any other begins with no quote.

Each character is written in one way only, while a reader takes several; what is proved is the one
direction that a written document needs.
-/

set_option autoImplicit false

namespace ContentSearch.Toml.Quoted

open Text

theorem numbered?_digits {c : Char} (h : c.toNat < 256) :
    numbered? ['0', '0', Hex.digit (c.toNat / 16), Hex.digit (c.toNat % 16)] = some c := by
  have hhigh := Hex.value?_digit (n := c.toNat / 16) (by omega)
  have hlow := Hex.value?_digit (n := c.toNat % 16) (by omega)
  have hzero : Hex.value? '0' = some 0 := by decide
  have hnumber : Hex.number? ['0', '0', Hex.digit (c.toNat / 16), Hex.digit (c.toNat % 16)]
      = some (c.toNat / 16 * 16 + c.toNat % 16) := by
    simp [Hex.number?, hzero, hhigh, hlow]
  have hsum : c.toNat / 16 * 16 + c.toNat % 16 = c.toNat := by omega
  rw [numbered?, hnumber, hsum]
  dsimp only
  rw [if_pos (.inl (by omega)), Char.ofNat_toNat]

/-- **What is written for a character is read as it**, whatever follows. -/
theorem basic?_writeChar (c : Char) (r : List Char) :
    basic? (writeChar c ++ r) = push c (basic? r) := by
  unfold writeChar
  split
  · rename_i hquote
    rw [hquote]
    rfl
  · rename_i hquote
    split
    · rename_i hslash
      rw [hslash]
      rfl
    · rename_i hslash
      split
      · rename_i hcontrol
        have hnumbered := numbered?_digits (c := c) (by omega)
        show basic? ('\\' :: 'u' :: '0' :: '0' :: _ :: _ :: r) = _
        rw [basic?, hnumbered]
      · rename_i hcontrol
        have hvisible : isVisible c := by
          have hnumber : 0x20 ≤ c.toNat ∧ c.toNat ≠ 0x7F := by omega
          simp [isVisible, hnumber]
        show basic? (c :: r) = _
        rw [basic?]
        · simp [hslash, hvisible]
        all_goals simp_all

theorem basic?_writeChars (s r : List Char) :
    basic? (s.flatMap writeChar ++ '"' :: r) = some (s, r) := by
  induction s with
  | nil => rfl
  | cons c s ih =>
    rw [List.flatMap_cons, List.append_assoc, basic?_writeChar, ih]
    rfl

theorem writeChar_ne_quote_cons (c : Char) (r : List Char) :
    ∃ d r', d ≠ '"' ∧ writeChar c ++ r = d :: r' := by
  unfold writeChar
  split
  · exact ⟨'\\', _, by decide, rfl⟩
  · rename_i hquote
    split
    · exact ⟨'\\', _, by decide, rfl⟩
    · split
      · exact ⟨'\\', _, by decide, rfl⟩
      · exact ⟨c, r, hquote, rfl⟩

/-- **A written string is read back**, unless more quotes follow it. -/
theorem any?_write (s : List Char) {r : List Char} (hr : r.head? ≠ some '"') :
    any? (write s ++ r) = some (s, r) := by
  have hwritten : write s ++ r = '"' :: (s.flatMap writeChar ++ '"' :: r) := by
    rw [write, List.cons_append, List.append_assoc, List.singleton_append]
  have hshort : short? (write s ++ r) = some (s, r) := by
    rw [hwritten]
    exact basic?_writeChars s r
  cases s with
  | nil =>
    cases r with
    | nil => rfl
    | cons d r' =>
      have hd : d ≠ '"' := fun heq => hr (by rw [heq]; rfl)
      rw [← hshort]
      show any? ('"' :: '"' :: d :: r') = short? ('"' :: '"' :: d :: r')
      rw [any?]
      · simp [hd]
      · exact nofun
  | cons c s =>
    obtain ⟨d, r', hd, hfront⟩ := writeChar_ne_quote_cons c (s.flatMap writeChar ++ '"' :: r)
    have hhead : write (c :: s) ++ r = '"' :: d :: r' := by
      rw [hwritten, List.flatMap_cons, List.append_assoc, hfront]
    rw [← hshort, hhead, any?]
    · simp [hd]
    · exact nofun

end ContentSearch.Toml.Quoted
