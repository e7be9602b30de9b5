import ContentSearch.Text.Base64
import ContentSearch.Text.Blank

/-!
# What Base64 writes is read back, and nothing else is read

Sixty-four values have sixty-four digits, none of which is a pad or a blank. The bits of three
bytes go over four digits and come back; where a last group has only one byte or two, the digit
that is cut short has nothing to spare, and the pads say how many bytes there were.

**`decode?_encode`** goes by the groups that `encode` makes. That the text holds no blank
(**`not_isBlank_of_mem_encode`**) is what lets a token stand between blanks.

The other way round goes by the groups that `decode?` takes. A reader that let spare bits or missing
pads pass would read several texts as the same bytes; this one takes no text but the one that is
written (**`decode?_eq_some_iff`**).
-/

set_option autoImplicit false

namespace ContentSearch.Text.Base64

/-! ## Digits -/

theorem digits_are_values :
    ∀ n ∈ List.range 64, digitValue? (digit n) = some n ∧ digit n ≠ '=' ∧ ¬ isBlank (digit n) := by
  decide +kernel

theorem digitValue?_digit {n : Nat} (h : n < 64) : digitValue? (digit n) = some n :=
  (digits_are_values n (List.mem_range.mpr h)).1

theorem digit_ne_pad {n : Nat} (h : n < 64) : digit n ≠ '=' :=
  (digits_are_values n (List.mem_range.mpr h)).2.1

theorem not_isBlank_digit {n : Nat} (h : n < 64) : ¬ isBlank (digit n) :=
  (digits_are_values n (List.mem_range.mpr h)).2.2

/-- A digit has no other spelling. -/
theorem digit_of_digitValue? {c : Char} {n : Nat} (h : digitValue? c = some n) :
    n < 64 ∧ digit n = c := by
  have hle : ∀ {a b : Char}, a ≤ b → a.toNat ≤ b.toNat := fun hab => hab
  have hback : ∀ m, m = c.toNat → Char.ofNat m = c := fun m hm => by rw [hm, Char.ofNat_toNat]
  have hA : ('A' : Char).toNat = 65 := rfl
  have hZ : ('Z' : Char).toNat = 90 := rfl
  have ha : ('a' : Char).toNat = 97 := rfl
  have hz : ('z' : Char).toNat = 122 := rfl
  have h0 : ('0' : Char).toNat = 48 := rfl
  have h9 : ('9' : Char).toNat = 57 := rfl
  -- The digits are three runs of characters and two single ones. In each run the value and the code
  -- differ by a constant, so the character can be told from the value.
  unfold digitValue? at h
  split at h
  case isTrue hupper =>
    obtain ⟨hlow, hhigh⟩ := hupper
    have := hle hlow
    have := hle hhigh
    cases h
    refine ⟨by omega, ?_⟩
    rw [digit, if_pos (by omega)]
    exact hback _ (by omega)
  split at h
  case isTrue hlower =>
    obtain ⟨hlow, hhigh⟩ := hlower
    have := hle hlow
    have := hle hhigh
    cases h
    refine ⟨by omega, ?_⟩
    rw [digit, if_neg (by omega), if_pos (by omega)]
    exact hback _ (by omega)
  split at h
  case isTrue hdecimal =>
    obtain ⟨hlow, hhigh⟩ := hdecimal
    have := hle hlow
    have := hle hhigh
    cases h
    refine ⟨by omega, ?_⟩
    rw [digit, if_neg (by omega), if_neg (by omega), if_pos (by omega)]
    exact hback _ (by omega)
  split at h
  case isTrue hplus =>
    cases h
    exact ⟨by decide, hplus.symm⟩
  split at h
  case isTrue hslash =>
    cases h
    exact ⟨by decide, hslash.symm⟩
  cases h

/-! ## Groups -/

theorem lastByte?_eq (a : UInt8) : lastByte? (a.toNat / 4) (a.toNat % 4 * 16) = some [a] := by
  have ha : a.toNat < 256 := a.toNat_lt
  have hspare : a.toNat % 4 * 16 % 16 = 0 := by omega
  have hbyte : a.toNat / 4 * 4 + a.toNat % 4 * 16 / 16 = a.toNat := by omega
  rw [lastByte?, if_pos hspare, hbyte, UInt8.ofNat_toNat]

theorem lastTwo?_eq (a b : UInt8) :
    lastTwo? (a.toNat / 4) (a.toNat % 4 * 16 + b.toNat / 16) (b.toNat % 16 * 4) = some [a, b] := by
  have ha : a.toNat < 256 := a.toNat_lt
  have hb : b.toNat < 256 := b.toNat_lt
  have hspare : b.toNat % 16 * 4 % 4 = 0 := by omega
  have hfirst : a.toNat / 4 * 4 + (a.toNat % 4 * 16 + b.toNat / 16) / 16 = a.toNat := by omega
  have hsecond : (a.toNat % 4 * 16 + b.toNat / 16) % 16 * 16 + b.toNat % 16 * 4 / 4 = b.toNat := by
    omega
  rw [lastTwo?, if_pos hspare, hfirst, hsecond, UInt8.ofNat_toNat, UInt8.ofNat_toNat]

theorem threeBytes_eq (a b c : UInt8) :
    threeBytes (a.toNat / 4) (a.toNat % 4 * 16 + b.toNat / 16) (b.toNat % 16 * 4 + c.toNat / 64)
      (c.toNat % 64) = [a, b, c] := by
  have ha : a.toNat < 256 := a.toNat_lt
  have hb : b.toNat < 256 := b.toNat_lt
  have hc : c.toNat < 256 := c.toNat_lt
  have hfirst : a.toNat / 4 * 4 + (a.toNat % 4 * 16 + b.toNat / 16) / 16 = a.toNat := by omega
  have hsecond : (a.toNat % 4 * 16 + b.toNat / 16) % 16 * 16 + (b.toNat % 16 * 4 + c.toNat / 64) / 4
      = b.toNat := by omega
  have hthird : (b.toNat % 16 * 4 + c.toNat / 64) % 4 * 64 + c.toNat % 64 = c.toNat := by omega
  rw [threeBytes, hfirst, hsecond, hthird, UInt8.ofNat_toNat, UInt8.ofNat_toNat, UInt8.ofNat_toNat]

/-! The same groups from the other side: what is read from a group is written as it. -/

section
variable {x y z w : Nat}

theorem encode_lastByte? (hx : x < 64) (hy : y < 64) {bytes : List UInt8}
    (h : lastByte? x y = some bytes) : encode bytes = [digit x, digit y, '=', '='] := by
  unfold lastByte? at h
  split at h
  · cases h
    have hbyte : (UInt8.ofNat (x * 4 + y / 16)).toNat = x * 4 + y / 16 :=
      UInt8.toNat_ofNat_of_lt' (show x * 4 + y / 16 < 256 by omega)
    have hfirst : (x * 4 + y / 16) / 4 = x := by omega
    have hsecond : (x * 4 + y / 16) % 4 * 16 = y := by omega
    rw [encode, hbyte, hfirst, hsecond]
  · cases h

theorem encode_lastTwo? (hx : x < 64) (hy : y < 64) (hz : z < 64) {bytes : List UInt8}
    (h : lastTwo? x y z = some bytes) :
    encode bytes = [digit x, digit y, digit z, '='] := by
  unfold lastTwo? at h
  split at h
  · cases h
    have hbyte : (UInt8.ofNat (x * 4 + y / 16)).toNat = x * 4 + y / 16 :=
      UInt8.toNat_ofNat_of_lt' (show x * 4 + y / 16 < 256 by omega)
    have hnext : (UInt8.ofNat (y % 16 * 16 + z / 4)).toNat = y % 16 * 16 + z / 4 :=
      UInt8.toNat_ofNat_of_lt' (show y % 16 * 16 + z / 4 < 256 by omega)
    have hfirst : (x * 4 + y / 16) / 4 = x := by omega
    have hsecond : (x * 4 + y / 16) % 4 * 16 + (y % 16 * 16 + z / 4) / 16 = y := by omega
    have hthird : (y % 16 * 16 + z / 4) % 16 * 4 = z := by omega
    rw [encode, hbyte, hnext, hfirst, hsecond, hthird]
  · cases h

theorem encode_threeBytes_append (hx : x < 64) (hy : y < 64) (hz : z < 64) (hw : w < 64)
    (r : List UInt8) :
    encode (threeBytes x y z w ++ r) = digit x :: digit y :: digit z :: digit w :: encode r := by
  have hbyte : (UInt8.ofNat (x * 4 + y / 16)).toNat = x * 4 + y / 16 :=
    UInt8.toNat_ofNat_of_lt' (show x * 4 + y / 16 < 256 by omega)
  have hnext : (UInt8.ofNat (y % 16 * 16 + z / 4)).toNat = y % 16 * 16 + z / 4 :=
    UInt8.toNat_ofNat_of_lt' (show y % 16 * 16 + z / 4 < 256 by omega)
  have hlast : (UInt8.ofNat (z % 4 * 64 + w)).toNat = z % 4 * 64 + w :=
    UInt8.toNat_ofNat_of_lt' (show z % 4 * 64 + w < 256 by omega)
  have hfirst : (x * 4 + y / 16) / 4 = x := by omega
  have hsecond : (x * 4 + y / 16) % 4 * 16 + (y % 16 * 16 + z / 4) / 16 = y := by omega
  have hthird : (y % 16 * 16 + z / 4) % 16 * 4 + (z % 4 * 64 + w) / 64 = z := by omega
  have hfourth : (z % 4 * 64 + w) % 64 = w := by omega
  rw [threeBytes, List.cons_append, List.cons_append, List.cons_append, List.nil_append, encode,
    hbyte, hnext, hlast, hfirst, hsecond, hthird, hfourth]

end

/-! ## Texts -/

/-- **Reading undoes writing.** -/
theorem decode?_encode (bytes : List UInt8) : decode? (encode bytes) = some bytes := by
  -- the bits that a digit takes from one byte and the next are put side by side, never mixed
  induction bytes using encode.induct with
  | case1 => rfl
  | case2 a =>
    have ha : a.toNat < 256 := a.toNat_lt
    have hx := digitValue?_digit (n := a.toNat / 4) (by omega)
    have hy := digitValue?_digit (n := a.toNat % 4 * 16) (by omega)
    simp only [encode, decode?, hx, hy, Option.bind_eq_bind, Option.bind_some, if_true]
    exact lastByte?_eq a
  | case3 a b =>
    have ha : a.toNat < 256 := a.toNat_lt
    have hb : b.toNat < 256 := b.toNat_lt
    have hx := digitValue?_digit (n := a.toNat / 4) (by omega)
    have hy := digitValue?_digit (n := a.toNat % 4 * 16 + b.toNat / 16) (by omega)
    have hz := digitValue?_digit (n := b.toNat % 16 * 4) (by omega)
    have hpad := digit_ne_pad (n := b.toNat % 16 * 4) (by omega)
    simp only [encode, decode?, hx, hy, hz, hpad, Option.bind_eq_bind, Option.bind_some, if_true,
      if_false]
    exact lastTwo?_eq a b
  | case4 a b c r ih =>
    have ha : a.toNat < 256 := a.toNat_lt
    have hb : b.toNat < 256 := b.toNat_lt
    have hc : c.toNat < 256 := c.toNat_lt
    have hx := digitValue?_digit (n := a.toNat / 4) (by omega)
    have hy := digitValue?_digit (n := a.toNat % 4 * 16 + b.toNat / 16) (by omega)
    have hz := digitValue?_digit (n := b.toNat % 16 * 4 + c.toNat / 64) (by omega)
    have hw := digitValue?_digit (n := c.toNat % 64) (by omega)
    have hpad := digit_ne_pad (n := c.toNat % 64) (by omega)
    simp only [encode, decode?, hx, hy, hz, hw, hpad, Option.bind_eq_bind, Option.bind_some,
      if_false, ih, threeBytes_eq]
    rfl

/-- **What is read was written.** -/
theorem encode_of_decode? {s : List Char} {bytes : List UInt8} (h : decode? s = some bytes) :
    encode bytes = s := by
  induction s using decode?.induct generalizing bytes with
  | case1 =>
    cases h
    rfl
  | case2 a b c d r ih =>
    simp only [decode?, Option.bind_eq_bind, Option.bind_eq_some_iff] at h
    obtain ⟨x, hx, y, hy, h⟩ := h
    obtain ⟨hxlt, rfl⟩ := digit_of_digitValue? hx
    obtain ⟨hylt, rfl⟩ := digit_of_digitValue? hy
    split at h
    case isTrue hpad =>
      -- a group with a pad is the last one
      subst hpad
      split at h
      · cases h
      · rename_i hlast
        obtain rfl := Decidable.not_not.mp hlast
        split at h
        · rename_i hpads
          subst hpads
          exact encode_lastByte? hxlt hylt h
        · obtain ⟨z, hz, hbytes⟩ := Option.bind_eq_some_iff.mp h
          obtain ⟨hzlt, rfl⟩ := digit_of_digitValue? hz
          exact encode_lastTwo? hxlt hylt hzlt hbytes
    case isFalse hfull =>
      simp only [Option.bind_eq_some_iff, Option.pure_def, Option.some.injEq] at h
      obtain ⟨z, hz, w, hw, rest, hrest, rfl⟩ := h
      obtain ⟨hzlt, rfl⟩ := digit_of_digitValue? hz
      obtain ⟨hwlt, rfl⟩ := digit_of_digitValue? hw
      rw [encode_threeBytes_append hxlt hylt hzlt hwlt, ih hrest]
  | case3 s hempty hgroup =>
    rw [decode?] at h
    · cases h
    · exact hempty
    · exact hgroup

/-- **A text is read as bytes exactly if it is what is written for them.** -/
theorem decode?_eq_some_iff {s : List Char} {bytes : List UInt8} :
    decode? s = some bytes ↔ s = encode bytes :=
  ⟨fun h => (encode_of_decode? h).symm, fun h => h ▸ decode?_encode bytes⟩

section
variable {bytes : List UInt8} {c : Char}

/-- What holds of every digit and of the pad holds of all that is written. -/
theorem of_mem_encode {p : Char → Prop} (hdigit : ∀ n < 64, p (digit n)) (hpad : p '=')
    (h : c ∈ encode bytes) : p c := by
  -- group by group, as they are written; every digit is that of a value below 64
  induction bytes using encode.induct with
  | case1 => exact absurd h List.not_mem_nil
  | case2 a =>
    have ha : a.toNat < 256 := a.toNat_lt
    simp only [encode, List.mem_cons, List.not_mem_nil, or_false] at h
    rcases h with rfl | rfl | rfl | rfl
    · exact hdigit _ (by omega)
    · exact hdigit _ (by omega)
    · exact hpad
    · exact hpad
  | case3 a b =>
    have ha : a.toNat < 256 := a.toNat_lt
    have hb : b.toNat < 256 := b.toNat_lt
    simp only [encode, List.mem_cons, List.not_mem_nil, or_false] at h
    rcases h with rfl | rfl | rfl | rfl
    · exact hdigit _ (by omega)
    · exact hdigit _ (by omega)
    · exact hdigit _ (by omega)
    · exact hpad
  | case4 a b c r ih =>
    have ha : a.toNat < 256 := a.toNat_lt
    have hb : b.toNat < 256 := b.toNat_lt
    have hc : c.toNat < 256 := c.toNat_lt
    simp only [encode, List.mem_cons] at h
    rcases h with rfl | rfl | rfl | rfl | h
    · exact hdigit _ (by omega)
    · exact hdigit _ (by omega)
    · exact hdigit _ (by omega)
    · exact hdigit _ (by omega)
    · exact ih h

/-- Nothing that is written is blank. -/
theorem not_isBlank_of_mem_encode (h : c ∈ encode bytes) : ¬ isBlank c :=
  of_mem_encode (p := fun c => ¬ isBlank c) (fun _ hn => not_isBlank_digit hn) (by decide) h

/-- A character that is no digit and no pad is not written. -/
theorem ne_of_mem_encode {x : Char} (hx : digitValue? x = none) (hpad : x ≠ '=')
    (h : c ∈ encode bytes) : c ≠ x := by
  refine of_mem_encode (p := fun c => c ≠ x) (fun n hn heq => ?_) hpad.symm h
  rw [← heq, digitValue?_digit hn] at hx
  cases hx

end

end ContentSearch.Text.Base64
