import ContentSearch.Cursor
import ContentSearch.Proofs.Json.Printed
import ContentSearch.Proofs.Text.Base64
import ContentSearch.Proofs.Text.Blank
import ContentSearch.Proofs.Text.Utf8

/-!
# The token of a cursor

A token goes through four spellings on its way out, as digits, as JSON, as UTF-8 and as Base64, and
through their four readers on its way back, with the blanks around it trimmed before. Each reader
undoes its writer, so what comes back is the fields that went out (**`record?_document`**).

The last word is with the reader of cursors: fields of 32 bits are a cursor, and a cursor that names
no page is the first one. So a token is read as its cursor or as the first page, and which of the
two it is depends on the cursor alone (**`decode_surrounded_token`**).

The blanks around a token are any that Unicode has, and any number of them. None of them can be part
of the token, so trimming finds its two ends.
-/

set_option autoImplicit false

namespace ContentSearch.Cursor

open Text

def written (c : Cursor) : Entries Json.Value := [("start", .nat c.start), ("num", .nat c.size)]

theorem toValue?_nat {n : Nat} (h : n < Decimal.limit32) (room : Nat) :
    (Json.Value.document (.nat n)).toValue? room = some (.nat n) := by
  have hlimit : Decimal.limit32 = 4294967296 := rfl
  have hlow : -(Nat.pow 2 63 : Int) ≤ 0 := by decide
  have hhigh : (4294967296 : Int) ≤ Nat.pow 2 64 := by decide
  have hvalue : (Json.Numeral.ofInt n).toNumber? = some (.integer n) :=
    Json.Numeral.toNumber?_ofInt (by omega) (by omega)
  show (Json.Numeral.ofInt n).toNumber?.map Json.Value.number = _
  rw [hvalue]
  rfl

theorem ofFields?_eq {es : Entries Json.Value} {start size : Nat}
    (hstart : es.find? "start" = some (.nat start)) (hsize : es.find? "num" = some (.nat size))
    (hfirst : start < Decimal.limit32) (hsecond : size < Decimal.limit32) :
    ofFields? es = some ⟨start, size⟩ := by
  unfold ofFields? Json.requiredField?
  rw [hstart, hsize, Option.bind_some, Option.bind_some, Json.Value.asNat?_nat hfirst,
    Json.Value.asNat?_nat hsecond]

theorem ofBytes?_eq {bytes : List UInt8} {d : Json.Document} {es : Entries Json.Value} {c : Cursor}
    (hdocument : Json.Document.ofBytes? bytes = some d) (hrecord : d.record? fieldNames = some es)
    (hfields : ofFields? es = some c) :
    ofBytes? bytes = if c.isValid then some c else none := by
  unfold ofBytes?
  rw [hdocument, Option.bind_some, hrecord]
  dsimp only
  rw [hfields]

theorem record?_document {c : Cursor} (hstart : c.start < Decimal.limit32)
    (hsize : c.size < Decimal.limit32) :
    c.toJson.document.record? fieldNames = some c.written := by
  have hnum : Json.Document.fields? fieldNames [(some "num", Json.Value.document (.nat c.size))]
      = some [("num", .nat c.size)] := by
    rw [Json.Document.fields?, if_pos (by decide), toValue?_nat hsize]
    rfl
  show Json.Document.fields? fieldNames [(some "start", Json.Value.document (.nat c.start)),
    (some "num", Json.Value.document (.nat c.size))] = _
  rw [Json.Document.fields?, if_pos (by decide), toValue?_nat hstart, hnum]
  rfl

/-- The bytes of a cursor's JSON are the cursor that was written, if it names a page. -/
theorem ofBytes?_compact {c : Cursor} (hstart : c.start < Decimal.limit32)
    (hsize : c.size < Decimal.limit32) :
    ofBytes? (Utf8.encode c.toJson.compact) = if c.isValid then some c else none := by
  have hdocument : Json.Document.ofBytes? (Utf8.encode c.toJson.compact)
      = some c.toJson.document := by
    rw [Json.Document.ofBytes?, Utf8.decode_encode]
    exact Json.Document.read?_compact c.toJson
  exact ofBytes?_eq hdocument (record?_document hstart hsize)
    (ofFields?_eq rfl rfl hstart hsize)

theorem ofToken?_surrounded {v w : String} (c : Cursor) (hv : ∀ x ∈ v.toList, isBlank x)
    (hw : ∀ x ∈ w.toList, isBlank x) :
    ofToken? (v ++ c.token ++ w) = ofBytes? (Utf8.encode c.toJson.compact) := by
  -- no digit is blank, so trimming stops where the token starts and where it ends
  have htoken : c.token.toList = Base64.encode (Utf8.encode c.toJson.compact) :=
    String.toList_ofList
  have htrim : trimBlanks (v ++ c.token ++ w).toList
      = Base64.encode (Utf8.encode c.toJson.compact) := by
    rw [String.toList_append, String.toList_append, trimBlanks_surrounded _ hv hw, htoken]
    exact trimBlanks_eq_self fun x hx => Base64.not_isBlank_of_mem_encode hx
  rw [ofToken?, htrim, Base64.decode?_encode, Option.bind_some]

/-- **A token is read as the cursor it was written for**, blanks around it or not, if the cursor
names a page, and as the first page if it names none. -/
theorem decode_surrounded_token {start size : Nat} (hstart : start < Decimal.limit32)
    (hsize : size < Decimal.limit32) {v w : String} (hv : ∀ x ∈ v.toList, isBlank x)
    (hw : ∀ x ∈ w.toList, isBlank x) :
    decode (some (v ++ token ⟨start, size⟩ ++ w))
      = if 1 ≤ start ∧ 1 ≤ size then ⟨start, size⟩ else ⟨1, 10⟩ := by
  have hbytes := ofBytes?_compact (c := ⟨start, size⟩) hstart hsize
  have hvalid : (isValid ⟨start, size⟩ = true) = (1 ≤ start ∧ 1 ≤ size) := by
    simp [isValid]
  rw [decode, ofToken?_surrounded ⟨start, size⟩ hv hw, hbytes]
  simp only [hvalid]
  split
  · rfl
  · rfl

/-- The greatest cursor between a line break and blanks of two kinds, and one without a size. -/
theorem decode_surrounded_token_sample :
    decode (some ("\n" ++ token ⟨4294967295, 4294967295⟩ ++ " \u3000"))
        = ⟨4294967295, 4294967295⟩ ∧
      decode (some ("" ++ token ⟨7, 0⟩ ++ "\t")) = ⟨1, 10⟩ :=
  ⟨decode_surrounded_token (by decide) (by decide) (by decide) (by decide),
    decode_surrounded_token (by decide) (by decide) (by decide) (by decide)⟩

end ContentSearch.Cursor
