import ContentSearch.Proofs.Json.Printed

/-!
# The spellings of a document

A JSON text has freedoms that its document does not have: blanks may stand around every token, a
numeral spells its exponent in one of several ways, and a character of a string stands as itself,
behind a backslash, or as one code unit or two. This module says what the texts of a document are
(`Document.Layout`), in the productions of the grammar and without any reader in it, and that every
one of them is read as the document (**`Document.Layout.read?_eq`**).

A string of the grammar need not mean anything, for it may hold half of a pair of code units. Such a
string has its place in a document too, as the one that spells no text.

The four kinds of productions use each other, and the induction goes along all of them at once
(`Spells.reads` and its companions). Only two things link them to the reader: how a token goes on
behind another one (`Continues`), and that building takes the tokens of a document back to it.
-/

set_option autoImplicit false

namespace ContentSearch.Text.Hex

/-- A digit stands for one of sixteen numbers. -/
theorem lt_of_value? {c : Char} {n : Nat} (h : value? c = some n) : n < 16 := by
  unfold value? at h
  simp only [Char.le_def, UInt32.le_iff_toNat_le] at h
  -- digits, capitals and small letters, sixteen in all
  split at h
  · rename_i hrange
    cases h
    have hlast : c.toNat ≤ 57 := hrange.2
    omega
  · split at h
    · rename_i hrange
      cases h
      have hlast : c.toNat ≤ 70 := hrange.2
      omega
    · split at h
      · rename_i hrange
        cases h
        have hlast : c.toNat ≤ 102 := hrange.2
        omega
      · cases h

end ContentSearch.Text.Hex

namespace ContentSearch.Json

/-! ## What pieces mean -/

namespace Piece

theorem isHigh_iff {n : Nat} : isHigh n ↔ 0xD800 ≤ n ∧ n ≤ 0xDBFF := by
  simp [isHigh]

theorem isLow_iff {n : Nat} : isLow n ↔ 0xDC00 ≤ n ∧ n ≤ 0xDFFF := by
  simp [isLow]

/-- The texts that pieces mean: a character is one piece, or, if its code point has more than 16
bits, the two halves of a pair. -/
inductive Means : List Piece → List Char → Prop
  | nil : Means [] []
  | char {c : Char} {ps : List Piece} {s : List Char} (h : Means ps s) :
      Means (.char c :: ps) (c :: s)
  | unit {c : Char} {ps : List Piece} {s : List Char} (h : Means ps s) :
      Means (.unit c.toNat :: ps) (c :: s)
  | pair {c : Char} {ps : List Piece} {s : List Char} (hwide : 0x10000 ≤ c.toNat)
      (h : Means ps s) :
      Means (.unit (0xD800 + (c.toNat - 0x10000) / 0x400) ::
        .unit (0xDC00 + (c.toNat - 0x10000) % 0x400) :: ps) (c :: s)

theorem content?_of_means {ps : List Piece} {s : List Char} (h : Means ps s) :
    content? ps = some s := by
  induction h with
  | nil => rfl
  | char _ ih =>
    rw [content?, ih]
    rfl
  | @unit c ps s _ ih =>
    -- no character is half of a pair
    have hvalid : c.toNat < 0xD800 ∨ 0xDFFF < c.toNat ∧ c.toNat < 0x110000 := c.valid
    have hhigh : isHigh c.toNat = false :=
      Bool.eq_false_iff.mpr fun h => by have hrange := isHigh_iff.mp h; omega
    have hlow : isLow c.toNat = false :=
      Bool.eq_false_iff.mpr fun h => by have hrange := isLow_iff.mp h; omega
    rw [content?.eq_def]
    simp only [hhigh, hlow, ih, Char.ofNat_toNat]
    rfl
  | @pair c ps s hwide _ ih =>
    have hvalid : c.toNat < 0xD800 ∨ 0xDFFF < c.toNat ∧ c.toNat < 0x110000 := c.valid
    have hhigh : isHigh (0xD800 + (c.toNat - 0x10000) / 0x400) = true :=
      isHigh_iff.mpr (by omega)
    have hlow : isLow (0xDC00 + (c.toNat - 0x10000) % 0x400) = true := isLow_iff.mpr (by omega)
    have hcode : 0x10000 + (0xD800 + (c.toNat - 0x10000) / 0x400 - 0xD800) * 0x400
        + (0xDC00 + (c.toNat - 0x10000) % 0x400 - 0xDC00) = c.toNat := by omega
    rw [content?.eq_def]
    simp only [hhigh, hlow, ih, hcode, Char.ofNat_toNat]
    rfl

/-- A number outside the gap of the surrogates is the code point of a character. -/
theorem toNat_ofNat {n : Nat} (h : n < 0xD800 ∨ 0xDFFF < n ∧ n < 0x110000) :
    (Char.ofNat n).toNat = n := by
  unfold Char.ofNat
  rw [dif_pos h]
  rfl

theorem means_of_content? {ps : List Piece} {s : List Char}
    (hps : ∀ n, .unit n ∈ ps → n < 0x10000) (h : content? ps = some s) : Means ps s := by
  -- along the reader, whose cases are those of the grammar and four in which half a pair is left
  fun_induction content? ps generalizing s with
  | case1 =>
    cases h
    exact .nil
  | case2 c r ih =>
    obtain ⟨s, hr, rfl⟩ := Option.map_eq_some_iff.mp h
    exact .char (ih (fun n hn => hps n (List.mem_cons_of_mem _ hn)) hr)
  | case4 n hhigh m r hlow ih =>
    -- a pair is the code point of a character that needs one
    obtain ⟨s, hr, rfl⟩ := Option.map_eq_some_iff.mp h
    have hmeans := ih (fun k hk => hps k (List.mem_cons_of_mem _ (List.mem_cons_of_mem _ hk))) hr
    have hn := isHigh_iff.mp hhigh
    have hm := isLow_iff.mp hlow
    obtain ⟨code, hcode⟩ : ∃ code, code = 0x10000 + (n - 0xD800) * 0x400 + (m - 0xDC00) :=
      ⟨_, rfl⟩
    have hchar : (Char.ofNat code).toNat = code := toNat_ofNat (by omega)
    have hfirst : 0xD800 + (code - 0x10000) / 0x400 = n := by omega
    have hsecond : 0xDC00 + (code - 0x10000) % 0x400 = m := by omega
    have hpair := hmeans.pair (c := Char.ofNat code) (by omega)
    rw [hchar, hfirst, hsecond] at hpair
    rwa [← hcode]
  | case8 n r hhigh hlow ih =>
    obtain ⟨s, hr, rfl⟩ := Option.map_eq_some_iff.mp h
    have hmeans := ih (fun k hk => hps k (List.mem_cons_of_mem _ hk)) hr
    have hn := hps n List.mem_cons_self
    rw [isHigh_iff] at hhigh
    rw [isLow_iff] at hlow
    have hcode := toNat_ofNat (n := n) (by omega)
    have hunit := hmeans.unit (c := Char.ofNat n)
    rwa [hcode] at hunit
  | case3 => cases h
  | case5 => cases h
  | case6 => cases h
  | case7 => cases h

end Piece

/-! ## Scalars -/

namespace Scan

/-- Four digits are too few for more than 16 bits. -/
theorem PiecesText.lt_of_mem {ps : List Piece} {t : List Char} (h : PiecesText ps t) {n : Nat}
    (hn : .unit n ∈ ps) : n < 0x10000 := by
  induction h with
  | nil => cases hn
  | cons h _ ih =>
    rcases List.mem_cons.mp hn with rfl | hn
    · -- only four digits make a unit
      cases h with
      | unit h =>
        obtain ⟨x, y, z, w, hx, hy, hz, hw, rfl⟩ := number?_four.mp h
        have hx := Text.Hex.lt_of_value? hx
        have hy := Text.Hex.lt_of_value? hy
        have hz := Text.Hex.lt_of_value? hz
        have hw := Text.Hex.lt_of_value? hw
        omega
    · exact ih hn

end Scan

open Json.Scan

/-- The spellings of a scalar. A string that means nothing is one all the same. -/
inductive Scalar.Spells : Scalar → List Char → Prop
  | null : Spells .null ['n', 'u', 'l', 'l']
  | yes : Spells (.bool true) ['t', 'r', 'u', 'e']
  | no : Spells (.bool false) ['f', 'a', 'l', 's', 'e']
  | numeral {x : Numeral} {t : List Char} (h : x.WellFormed) (ht : x.Spelled t) :
      Spells (.numeral x) t
  | string {ps : List Piece} {t s : List Char} (ht : PiecesText ps t) (hs : Piece.Means ps s) :
      Spells (.string (some (String.ofList s))) ('"' :: (t ++ ['"']))
  | broken {ps : List Piece} {t : List Char} (ht : PiecesText ps t)
      (hnone : ∀ s, ¬ Piece.Means ps s) : Spells (.string none) ('"' :: (t ++ ['"']))

theorem Scalar.Spells.reads {s : Scalar} {t : List Char} (h : s.Spells t) :
    Reads t [.scalar s] := by
  cases h with
  | null => exact reads_null
  | yes => exact reads_true
  | no => exact reads_false
  | numeral h ht => exact reads_spelled h ht
  | string ht hs =>
    have hreads := reads_string ht
    rwa [Piece.content?_of_means hs] at hreads
  | @broken ps t ht hnone =>
    have hreads := reads_string ht
    -- if its pieces had a content, they would mean it
    cases hcontent : Piece.content? ps with
    | none => rwa [hcontent] at hreads
    | some s =>
      exact absurd (Piece.means_of_content? (fun n hn => ht.lt_of_mem hn) hcontent) (hnone s)

/-- The program writes a string in one of its spellings. -/
theorem Scalar.Spells.quote (s : String) : (Scalar.string (some s)).Spells (quote s) := by
  have hpieces := piecesText_escapeChars s.toList
  have hmeans := Piece.means_of_content? (fun n hn => hpieces.lt_of_mem hn)
    (content?_writtenPiece s.toList)
  have hspells := Scalar.Spells.string hpieces hmeans
  rwa [String.ofList_toList] at hspells

/-- The program writes an integer in one of its spellings. -/
theorem Scalar.Spells.writeInt (n : Int) :
    (Scalar.numeral (.ofInt n)).Spells (Text.Decimal.writeInt n) := by
  have hspells := Scalar.Spells.numeral (Numeral.wellFormed_ofInt n) (Numeral.spelled_text _)
  rwa [Numeral.text_ofInt] at hspells

/-! ## Documents -/

def Blanks (s : List Char) : Prop := ∀ c ∈ s, isSpace c

mutual

/-- The spellings of a document, without blanks around it. -/
inductive Document.Spells : Document → List Char → Prop
  | scalar {s : Scalar} {t : List Char} (h : s.Spells t) : Document.Spells (.scalar s) t
  | emptyArray {v : List Char} (hv : Blanks v) :
      Document.Spells (.array []) ('[' :: (v ++ [']']))
  | array {ds : List Document} {t : List Char} (h : Document.ItemsLayout ds t) :
      Document.Spells (.array ds) ('[' :: (t ++ [']']))
  | emptyObject {v : List Char} (hv : Blanks v) :
      Document.Spells (.object []) ('\x7b' :: (v ++ ['\x7d']))
  | object {ms : List (Option String × Document)} {t : List Char}
      (h : Document.MembersLayout ms t) : Document.Spells (.object ms) ('\x7b' :: (t ++ ['\x7d']))

/-- The layouts of a document: its spellings between blanks. -/
inductive Document.Layout : Document → List Char → Prop
  | padded {d : Document} {v t w : List Char} (hv : Blanks v) (h : Document.Spells d t)
      (hw : Blanks w) : Document.Layout d (v ++ (t ++ w))

/-- The layouts of items, at least one, with commas between them. -/
inductive Document.ItemsLayout : List Document → List Char → Prop
  | last {d : Document} {t : List Char} (h : Document.Layout d t) : Document.ItemsLayout [d] t
  | more {d : Document} {ds : List Document} {t u : List Char} (h : Document.Layout d t)
      (hr : Document.ItemsLayout ds u) : Document.ItemsLayout (d :: ds) (t ++ ',' :: u)

/-- The layouts of members, at least one, with commas between them. -/
inductive Document.MembersLayout : List (Option String × Document) → List Char → Prop
  | last {k : Option String} {d : Document} {v n w t : List Char} (hv : Blanks v)
      (hn : (Scalar.string k).Spells n) (hw : Blanks w) (h : Document.Layout d t) :
      Document.MembersLayout [(k, d)] (v ++ (n ++ (w ++ ':' :: t)))
  | more {k : Option String} {d : Document} {ms : List (Option String × Document)}
      {v n w t u : List Char} (hv : Blanks v) (hn : (Scalar.string k).Spells n) (hw : Blanks w)
      (h : Document.Layout d t) (hr : Document.MembersLayout ms u) :
      Document.MembersLayout ((k, d) :: ms) (v ++ (n ++ (w ++ ':' :: (t ++ ',' :: u))))

end

namespace Document

theorem Spells.layout {d : Document} {t : List Char} (h : Spells d t) : Layout d t := by
  have hnone : Blanks [] := fun _ hc => absurd hc List.not_mem_nil
  have hlayout := Layout.padded hnone h hnone
  rwa [List.nil_append, List.append_nil] at hlayout

/-- A name, a colon and what stands behind it, with blanks around the name. -/
theorem reads_name {k : Option String} {v n w t : List Char} {tokens : List Token}
    (hv : Blanks v) (hn : (Scalar.string k).Spells n) (hw : Blanks w) (h : Reads t tokens) :
    Reads (v ++ (n ++ (w ++ ':' :: t))) (.scalar (.string k) :: .colon :: tokens) := by
  exact (hn.reads.append ((Continues.colon h).blanks hw)).blanks hv

theorem ItemsLayout.itemTokens_cons {ds : List Document} {t : List Char} (h : ItemsLayout ds t)
    (d : Document) : itemTokens (d :: ds) = d.tokens ++ .comma :: itemTokens ds := by
  cases h <;> rfl

theorem MembersLayout.memberTokens_cons {ms : List (Option String × Document)} {t : List Char}
    (h : MembersLayout ms t) (k : Option String) (d : Document) :
    memberTokens ((k, d) :: ms)
      = .scalar (.string k) :: .colon :: (d.tokens ++ .comma :: memberTokens ms) := by
  cases h <;> rfl

-- along the derivations, production by production
mutual

/-- **A spelling is read as the tokens of its document.** -/
theorem Spells.reads : ∀ {d : Document} {t : List Char}, Spells d t → Reads t d.tokens
  | _, _, .scalar h => h.reads
  | _, _, .emptyArray hv => (Continues.openArray (Continues.closeArray.blanks hv).reads).reads
  | _, _, .array h => (Continues.openArray (h.reads.append Continues.closeArray)).reads
  | _, _, .emptyObject hv => (Continues.openObject (Continues.closeObject.blanks hv).reads).reads
  | _, _, .object h => (Continues.openObject (h.reads.append Continues.closeObject)).reads

theorem Layout.reads : ∀ {d : Document} {t : List Char}, Layout d t → Reads t d.tokens
  | _, _, .padded hv h hw => by
    have hread := (h.reads.append (Continues.nil.blanks hw)).blanks hv
    rwa [List.append_nil, List.append_nil] at hread

theorem ItemsLayout.reads :
    ∀ {ds : List Document} {t : List Char}, ItemsLayout ds t → Reads t (itemTokens ds)
  | _, _, .last h => by
    rw [itemTokens, restItemTokens, List.append_nil]
    exact h.reads
  | _, _, .more h hr => by
    rw [hr.itemTokens_cons]
    exact h.reads.append (Continues.comma hr.reads)

theorem MembersLayout.reads :
    ∀ {ms : List (Option String × Document)} {t : List Char}, MembersLayout ms t →
      Reads t (memberTokens ms)
  | _, _, .last hv hn hw h => by
    rw [memberTokens, restMemberTokens, List.append_nil]
    exact reads_name hv hn hw h.reads
  | _, _, .more hv hn hw h hr => by
    rw [hr.memberTokens_cons]
    exact reads_name hv hn hw (h.reads.append (Continues.comma hr.reads))

end

/-- **Every layout of a document is read as the document.** -/
theorem Layout.read?_eq {d : Document} {t : List Char} (h : Layout d t) :
    Document.read? (t.map some) = some d := by
  rw [Document.read?, h.reads.scan?_eq, Option.bind_some, Document.ofTokens?_tokens]

end Document
end ContentSearch.Json
