import ContentSearch.Proofs.Text.Utf8
import ContentSearch.Text.Form

/-!
# A form body says what it was made of

Every byte of a component is written in one of three ways: a space as `+`, a plain byte as itself,
and any other as `%` and two digits. A reader tells them apart by their first character, because
neither `+` nor `%` is plain (**`decodeBytes_encodeByte_append`**).

A separator is not plain either, and it is no digit. So no component holds one
(**`mem_encodeComponent`**), the first `=` of a pair is the one between name and value, and every
`&` of a body stands between two pairs. Cutting there gives the pairs back, whatever is in them and
however many they are (**`decode_encode`**).
-/

set_option autoImplicit false

namespace ContentSearch.Text.Form

/-! ## Bytes -/

theorem plain_bytes : ∀ n ∈ List.range 256, isPlain (UInt8.ofNat n) →
    Char.ofNat n ≠ '%' ∧ Char.ofNat n ≠ '+' ∧ Char.ofNat n ≠ '&' ∧ Char.ofNat n ≠ '=' ∧
      String.utf8EncodeChar (Char.ofNat n) = [UInt8.ofNat n] := by
  decide +kernel

/-- A plain byte is the one byte of its character, and that character is no mark. -/
theorem plain_byte {b : UInt8} (h : isPlain b) :
    Char.ofNat b.toNat ≠ '%' ∧ Char.ofNat b.toNat ≠ '+' ∧ Char.ofNat b.toNat ≠ '&' ∧
      Char.ofNat b.toNat ≠ '=' ∧ String.utf8EncodeChar (Char.ofNat b.toNat) = [b] := by
  have hb := plain_bytes b.toNat (List.mem_range.mpr b.toNat_lt)
  rw [UInt8.ofNat_toNat] at hb
  exact hb h

theorem digit_ne_separator {n : Nat} (h : n < 16) : Hex.digit n ≠ '&' ∧ Hex.digit n ≠ '=' := by
  have all : ∀ m ∈ List.range 16, Hex.digit m ≠ '&' ∧ Hex.digit m ≠ '=' := by decide
  exact all n (List.mem_range.mpr h)

theorem decodeBytes_cons {c : Char} (h : c ≠ '%') (r : List Char) :
    decodeBytes (c :: r)
      = if c = '+' then 0x20 :: decodeBytes r else String.utf8EncodeChar c ++ decodeBytes r := by
  rw [decodeBytes]
  intro x y s hc
  exact absurd hc h

theorem decodeBytes_escape {x y : Char} {high low : Nat} (hx : Hex.value? x = some high)
    (hy : Hex.value? y = some low) (r : List Char) :
    decodeBytes ('%' :: x :: y :: r) = UInt8.ofNat (high * 16 + low) :: decodeBytes r := by
  rw [decodeBytes, hx, hy]

/-- **A written byte is read back**, and what is behind it is read as it would be alone. -/
theorem decodeBytes_encodeByte_append (b : UInt8) (r : List Char) :
    decodeBytes (encodeByte b ++ r) = b :: decodeBytes r := by
  unfold encodeByte
  split
  · rename_i hspace
    rw [eq_of_beq hspace, List.singleton_append, decodeBytes_cons (by simp), if_pos rfl]
  · split
    · rename_i hplain
      obtain ⟨hpercent, hplus, -, -, hbyte⟩ := plain_byte hplain
      rw [List.singleton_append, decodeBytes_cons hpercent, if_neg hplus, hbyte]
      rfl
    · have hb : b.toNat < 256 := b.toNat_lt
      have hhigh : Hex.value? (Hex.digit (b.toNat / 16)) = some (b.toNat / 16) :=
        Hex.value?_digit (by omega)
      have hlow : Hex.value? (Hex.digit (b.toNat % 16)) = some (b.toNat % 16) :=
        Hex.value?_digit (by omega)
      have hvalue : b.toNat / 16 * 16 + b.toNat % 16 = b.toNat := by omega
      refine (decodeBytes_escape hhigh hlow r).trans ?_
      rw [hvalue, UInt8.ofNat_toNat]

theorem decodeBytes_encodeBytes (bytes : List UInt8) :
    decodeBytes (bytes.flatMap encodeByte) = bytes := by
  induction bytes with
  | nil => rfl
  | cons b r ih => rw [List.flatMap_cons, decodeBytes_encodeByte_append, ih]

theorem mem_encodeByte {b : UInt8} {c : Char} (h : c ∈ encodeByte b) : c ≠ '&' ∧ c ≠ '=' := by
  unfold encodeByte at h
  split at h
  · rw [List.mem_singleton.mp h]
    exact ⟨by simp, by simp⟩
  · split at h
    · rename_i hplain
      obtain ⟨-, -, hand, hequals, -⟩ := plain_byte hplain
      rw [List.mem_singleton.mp h]
      exact ⟨hand, hequals⟩
    · have hb : b.toNat < 256 := b.toNat_lt
      simp only [List.mem_cons, List.not_mem_nil, or_false] at h
      rcases h with rfl | rfl | rfl
      · exact ⟨by simp, by simp⟩
      · exact digit_ne_separator (by omega)
      · exact digit_ne_separator (by omega)

/-! ## Components -/

/-- **No separator can come out of a name or a value.** -/
theorem mem_encodeComponent {s : List Char} {c : Char} (h : c ∈ encodeComponent s) :
    c ≠ '&' ∧ c ≠ '=' := by
  obtain ⟨b, -, hc⟩ := List.mem_flatMap.mp h
  exact mem_encodeByte hc

theorem decodeComponent_encodeComponent (s : String) :
    decodeComponent (encodeComponent s.toList) = s := by
  unfold decodeComponent encodeComponent Utf8.readLossy
  rw [decodeBytes_encodeBytes, Utf8.decode_encode, List.map_map]
  show String.ofList (s.toList.map id) = s
  rw [List.map_id, String.ofList_toList]

/-! ## Pairs -/

theorem mem_encodePair {p : String × String} {c : Char} (h : c ∈ encodePair p) : c ≠ '&' := by
  rcases List.mem_append.mp h with h | h
  · exact (mem_encodeComponent h).1
  · rcases List.mem_cons.mp h with rfl | h
    · simp
    · exact (mem_encodeComponent h).1

theorem encodePair_ne_nil (p : String × String) : encodePair p ≠ [] := by
  simp [encodePair]

theorem decodePair_encodePair (p : String × String) : decodePair (encodePair p) = p := by
  have hname : ∀ c ∈ encodeComponent p.1.toList, (c != '=') = true := by
    intro c hc
    exact bne_iff_ne.mpr (mem_encodeComponent hc).2
  unfold decodePair encodePair
  rw [List.takeWhile_append_of_pos hname, List.dropWhile_append_of_pos hname,
    List.takeWhile_cons_of_neg (by simp), List.dropWhile_cons_of_neg (by simp), List.append_nil,
    List.drop_one, List.tail_cons, decodeComponent_encodeComponent,
    decodeComponent_encodeComponent]

/-! ## Bodies -/

/-- A body is cut into its pairs. -/
theorem pieces_encode {ps : List (String × String)} (hne : ps ≠ []) :
    pieces (· = '&') (encode ps) = ps.map encodePair := by
  have hclosed : ∀ p, ∀ c ∈ encodePair p, decide (c = '&') = false := by
    intro p c hc
    exact decide_eq_false (mem_encodePair hc)
  induction ps with
  | nil => exact absurd rfl hne
  | cons p rest ih =>
    cases rest with
    | nil => exact pieces_eq_singleton (hclosed p)
    | cons q r =>
      rw [encode, pieces_append_cons _ (hclosed p) (by simp), ih (List.cons_ne_nil q r)]
      rfl

/-- **Reading a body gives the pairs that it was made of**, in their order. -/
theorem decode_encode (ps : List (String × String)) : decode (encode ps) = ps := by
  cases ps with
  | nil => rfl
  | cons p r =>
    have hpairs : decodePair ∘ encodePair = id := funext decodePair_encodePair
    -- a pair has its `=` at least, so no piece is dropped as empty
    have hkeep : ((p :: r).map encodePair).filter (· ≠ []) = (p :: r).map encodePair := by
      refine List.filter_eq_self.mpr fun s hs => ?_
      obtain ⟨q, -, rfl⟩ := List.mem_map.mp hs
      exact decide_eq_true (encodePair_ne_nil q)
    rw [decode, pieces_encode (List.cons_ne_nil p r), hkeep, List.map_map, hpairs, List.map_id]

example : encode [("q", "a b&c=d"), ("sort", "é")] = "q=a+b%26c%3Dd&sort=%C3%A9".toList := by
  decide

end ContentSearch.Text.Form
