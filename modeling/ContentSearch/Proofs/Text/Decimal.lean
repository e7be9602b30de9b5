import ContentSearch.Proofs.Text.Every
import ContentSearch.Text.Decimal

/-!
# The digits of a number

A written number is digits and at least one of them, and the first is no zero unless the number is
(**`write_ne_zero_cons`**). A sign is no digit, so an integer is told by what is written for it
(**`writeInt_injective`**). A number that is read is below the limit (**`lt_of_read`**).

These are facts about what is written. How other spellings are read, with a sign or with zeros in
front, stands with the reader.
-/

set_option autoImplicit false

namespace ContentSearch.Text.Decimal

theorem isDigit_of_mem_write {n : Nat} {c : Char} (h : c ∈ write n) : c.isDigit :=
  Nat.isDigit_of_mem_toDigits (by decide) (by decide) h

theorem write_ne_nil (n : Nat) : write n ≠ [] := Nat.toDigits_ne_nil

theorem ofDigitChars_write (n : Nat) : Nat.ofDigitChars 10 (write n) 0 = n :=
  Nat.ofDigitChars_toDigits (by decide) (by decide)

theorem write_injective {m n : Nat} (h : write m = write n) : m = n := by
  rw [← ofDigitChars_write m, ← ofDigitChars_write n, h]

/-- No zero leads but the one of zero itself. The digits of `n` are those of `n / 10` and one
more, so they start as those do. -/
theorem write_ne_zero_cons {n : Nat} (h : 0 < n) (r : List Char) : write n ≠ '0' :: r := by
  induction n using Nat.strongRecOn generalizing r with
  | ind n ih =>
    unfold write at ih ⊢
    by_cases hsmall : n < 10
    · have hdigit : ∀ d ∈ List.range 10, 0 < d → d.digitChar ≠ '0' := by decide
      rw [Nat.toDigits_of_lt_base hsmall]
      intro hcons
      exact hdigit n (List.mem_range.mpr hsmall) h (List.cons.inj hcons).1
    · rw [Nat.toDigits_of_base_le (by decide) (by omega)]
      have hfront := ih (n / 10) (by omega) (by omega)
      cases hdigits : Nat.toDigits 10 (n / 10) with
      | nil => exact absurd hdigits Nat.toDigits_ne_nil
      | cons c s =>
        intro hcons
        have hc : c = '0' := (List.cons.inj hcons).1
        rw [hc] at hdigits
        exact hfront s hdigits

theorem write_ne_minus_cons (n : Nat) (r : List Char) : write n ≠ '-' :: r := by
  intro h
  have hdigit : ('-').isDigit := isDigit_of_mem_write (n := n) (by rw [h]; exact List.mem_cons_self)
  exact absurd hdigit (by decide)

theorem writeInt_injective {m n : Int} (h : writeInt m = writeInt n) : m = n := by
  unfold writeInt at h
  split at h
  · split at h
    · have := write_injective (List.cons.inj h).2
      omega
    · exact absurd h.symm (write_ne_minus_cons _ _)
  · split at h
    · exact absurd h (write_ne_minus_cons _ _)
    · have := write_injective h
      omega

/-- An integer is written as it is anywhere. -/
theorem ofList_writeInt (n : Int) : String.ofList (writeInt n) = toString n := by
  cases n with
  | ofNat m =>
    have hsign : ¬ Int.ofNat m < 0 := Int.not_lt.mpr (Int.natCast_nonneg m)
    rw [writeInt, if_neg hsign]
    rfl
  | negSucc m =>
    rw [writeInt, if_pos (Int.negSucc_lt_zero m), String.ofList_cons]
    rfl

theorem lt_of_readDigits {limit : Nat} {s : List Char} {n : Nat} :
    ∀ {acc : Nat}, acc < limit → readDigits limit acc s = .ok n → n < limit := by
  induction s with
  | nil =>
    intro acc hacc h
    cases h
    exact hacc
  | cons c r ih =>
    intro acc hacc h
    simp only [readDigits] at h
    split at h
    · split at h
      · rename_i hstep
        exact ih hstep h
      · cases h
    · cases h

theorem lt_of_read {limit : Nat} (hlimit : 0 < limit) {s : List Char} {n : Nat}
    (h : read limit s = .ok n) : n < limit := by
  unfold read at h
  split at h
  · cases h
  · cases h
  · exact lt_of_readDigits hlimit h
  · exact lt_of_readDigits hlimit h

end ContentSearch.Text.Decimal
