import ContentSearch.Proofs.Cursor.Held
import ContentSearch.Proofs.Json.Record

/-!
# The texts that are cursors

A token is read as a cursor, or as the first page where it is none, so what a caller sees of a bad
token is page one. Which tokens are bad is the work of six stations: the trimming, Base64, the JSON
grammar, the reader of records, the two fields and the check of their range. This module says in one
place what they let through together, and the saying mentions no reader but that of JSON documents.

A payload is an object with a start and a size, each once, among any other members; or it is an
array of the two (`Payload`). The array is nobody's format. Records are read from arrays by
position, and the reader of cursors is one that reads a record.

From the payload outwards nothing is lost in either direction: bytes are a cursor exactly if the
document that they spell is its payload (**`ofBytes?_eq_some_iff`**), and a token is one exactly if
it is the Base64 spelling of such bytes, between blanks (**`ofToken?_eq_some_iff`**). So the tokens
that are read although they should not be are those of arrays (**`decode_eq_iff_standsFor`**).
-/

set_option autoImplicit false

namespace ContentSearch.Cursor

open Text

/-- The documents that are read as a cursor. -/
inductive Payload (c : Cursor) : Json.Document → Prop
  /-- An object. Of its other members only the names are looked at. -/
  | object {members : List (Option String × Json.Document)} {start size : Json.Document}
      (hnames : ∀ m ∈ members, m.1.isSome)
      (honce : members.filter (·.1 = some "start") = [(some "start", start)])
      (honce' : members.filter (·.1 = some "num") = [(some "num", size)])
      (hstart : start.IsNat c.start) (hsize : size.IsNat c.size) : Payload c (.object members)
  /-- The start and the size without their names. -/
  | pair {start size : Json.Document} (hstart : start.IsNat c.start) (hsize : size.IsNat c.size) :
      Payload c (.array [start, size])

/-! ## From the fields to the document -/

theorem ofFields?_eq_some_iff {es : Entries Json.Value} {c : Cursor} :
    ofFields? es = some c ↔
      ∃ v w, es.find? "start" = some v ∧ v.asNat? Decimal.limit32 = some c.start ∧
        es.find? "num" = some w ∧ w.asNat? Decimal.limit32 = some c.size := by
  constructor
  · intro h
    unfold ofFields? Json.requiredField? at h
    split at h
    · rename_i start size hstart hsize
      cases h
      obtain ⟨v, hv, hstart⟩ := Option.bind_eq_some_iff.mp hstart
      obtain ⟨w, hw, hsize⟩ := Option.bind_eq_some_iff.mp hsize
      exact ⟨v, w, hv, hstart, hw, hsize⟩
    · cases h
  · rintro ⟨v, w, hv, hstart, hw, hsize⟩
    unfold ofFields? Json.requiredField?
    rw [hv, hw, Option.bind_some, Option.bind_some, hstart, hsize]

/-- The members of an object that have values for both fields are those of a payload. -/
theorem fields?_iff {members : List (Option String × Json.Document)} {c : Cursor} :
    (∃ es, Json.Document.fields? fieldNames members = some es ∧ ofFields? es = some c) ↔
      Payload c (.object members) ∧ c.start < Decimal.limit32 ∧ c.size < Decimal.limit32 := by
  have hlimit : Decimal.limit32 ≤ Nat.pow 2 64 := by decide
  have hstart : "start" ∈ fieldNames := by decide
  have hnum : "num" ∈ fieldNames := by decide
  constructor
  · -- what is found in a field is the value of the only member of that name
    rintro ⟨es, hes, hc⟩
    obtain ⟨v, w, hv, hvn, hw, hwn⟩ := ofFields?_eq_some_iff.mp hc
    obtain ⟨hnames, hunder⟩ := Json.Document.fields?_eq_some hes
    have hv' := hunder _ hstart
    have hw' := hunder _ hnum
    rw [hv] at hv'
    rw [hw] at hw'
    obtain ⟨d, hd, hdv⟩ := Json.Document.valuesUnder_eq_singleton_iff.mp hv'
    obtain ⟨e, he, hew⟩ := Json.Document.valuesUnder_eq_singleton_iff.mp hw'
    obtain ⟨hd', hlt⟩ := (Json.Document.read_nat_iff hlimit).mp ⟨v, hdv, hvn⟩
    obtain ⟨he', hlt'⟩ := (Json.Document.read_nat_iff hlimit).mp ⟨w, hew, hwn⟩
    exact ⟨.object hnames hd he hd' he', hlt, hlt'⟩
  · rintro ⟨hpayload, hlt, hlt'⟩
    cases hpayload with
    | object hnames honce honce' hd he =>
      obtain ⟨v, hdv, hvn⟩ := (Json.Document.read_nat_iff hlimit).mpr ⟨hd, hlt⟩
      obtain ⟨w, hew, hwn⟩ := (Json.Document.read_nat_iff hlimit).mpr ⟨he, hlt'⟩
      have hv' := Json.Document.valuesUnder_eq_singleton_iff.mpr ⟨_, honce, hdv⟩
      have hw' := Json.Document.valuesUnder_eq_singleton_iff.mpr ⟨_, honce', hew⟩
      have hunder : ∀ k ∈ fieldNames, ∃ o : Option Json.Value,
          Json.Document.valuesUnder k members = o.toList.map some := by
        intro k hk
        rcases List.mem_cons.mp hk with rfl | hk
        · exact ⟨some v, hv'⟩
        · exact ⟨some w, by rw [List.mem_singleton.mp hk]; exact hw'⟩
      obtain ⟨es, hes⟩ := Json.Document.exists_fields?_eq_some hnames hunder
      exact ⟨es, hes, ofFields?_eq_some_iff.mpr
        ⟨v, w, Json.Document.find?_of_fields? hes hstart hv', hvn,
          Json.Document.find?_of_fields? hes hnum hw', hwn⟩⟩

/-- The items of an array that are values for both fields are those of a payload. -/
theorem alongside?_iff (room : Nat) {items : List Json.Document} {c : Cursor} :
    (∃ vs es, Json.Document.toValues? room items = some vs ∧
        Json.alongside? fieldNames vs = some es ∧ ofFields? es = some c) ↔
      Payload c (.array items) ∧ c.start < Decimal.limit32 ∧ c.size < Decimal.limit32 := by
  have hlimit : Decimal.limit32 ≤ Nat.pow 2 64 := by decide
  constructor
  · rintro ⟨vs, es, hvs, hes, hc⟩
    obtain ⟨v, w, hv, hvn, hw, hwn⟩ := ofFields?_eq_some_iff.mp hc
    unfold Json.alongside? at hes
    split at hes
    case isFalse => cases hes
    case isTrue hlength =>
      cases hes
      -- fewer than two values leave a field out, and more are no record
      match vs, hlength, hvs, hv, hw with
      | [v', w'], _, hvs, hv, hw =>
        cases hv
        cases hw
        cases Json.Document.toValues?_eq_some_iff.mp hvs with
        | cons hd htail =>
          cases htail with
          | cons he hnil =>
            cases hnil
            obtain ⟨hd', hlt⟩ := (Json.Document.read_nat_iff hlimit).mp ⟨v, hd, hvn⟩
            obtain ⟨he', hlt'⟩ := (Json.Document.read_nat_iff hlimit).mp ⟨w, he, hwn⟩
            exact ⟨.pair hd' he', hlt, hlt'⟩
  · rintro ⟨hpayload, hlt, hlt'⟩
    cases hpayload with
    | pair hd he =>
      obtain ⟨v, hdv, hvn⟩ := (Json.Document.read_nat_iff hlimit).mpr ⟨hd, hlt⟩
      obtain ⟨w, hew, hwn⟩ := (Json.Document.read_nat_iff hlimit).mpr ⟨he, hlt'⟩
      exact ⟨[v, w], [("start", v), ("num", w)],
        Json.Document.toValues?_eq_some_iff.mpr (.cons hdv (.cons hew .nil)), rfl,
        ofFields?_eq_some_iff.mpr ⟨v, w, rfl, hvn, rfl, hwn⟩⟩

theorem record?_iff {d : Json.Document} {c : Cursor} :
    (∃ es, d.record? fieldNames = some es ∧ ofFields? es = some c) ↔
      Payload c d ∧ c.start < Decimal.limit32 ∧ c.size < Decimal.limit32 := by
  -- records are made of objects by name, and of arrays by place
  cases d with
  | scalar s =>
    refine iff_of_false ?_ ?_
    · rintro ⟨es, hes, -⟩
      cases hes
    · rintro ⟨hpayload, -⟩
      cases hpayload
  | object members => exact fields?_iff
  | array items =>
    rw [← alongside?_iff (Json.maxDepth - 1)]
    constructor
    · rintro ⟨es, hes, hc⟩
      rw [Json.Document.record?] at hes
      split at hes
      · rename_i vs hvs
        exact ⟨vs, es, hvs, hes, hc⟩
      · cases hes
    · rintro ⟨vs, es, hvs, hes, hc⟩
      refine ⟨es, ?_, hc⟩
      rw [Json.Document.record?, hvs]
      exact hes

/-! ## From the document to the token -/

theorem ofBytes?_eq_some_iff {bytes : List UInt8} {c : Cursor} :
    ofBytes? bytes = some c ↔
      c.Sound ∧ ∃ d, Json.Document.ofBytes? bytes = some d ∧ Payload c d := by
  constructor
  · intro h
    refine ⟨ofBytes?_sound h, ?_⟩
    unfold ofBytes? at h
    split at h
    · rename_i es hrecord
      obtain ⟨d, hd, hes⟩ := Option.bind_eq_some_iff.mp hrecord
      split at h
      · rename_i c' hc
        split at h
        · cases h
          exact ⟨d, hd, (record?_iff.mp ⟨es, hes, hc⟩).1⟩
        · cases h
      · cases h
    · cases h
  · rintro ⟨hsound, d, hd, hpayload⟩
    obtain ⟨es, hes, hc⟩ := record?_iff.mpr ⟨hpayload, hsound.start_lt, hsound.size_lt⟩
    rw [ofBytes?_eq hd hes hc, if_pos]
    simp only [isValid, Bool.and_eq_true, decide_eq_true_eq]
    exact ⟨hsound.start_pos, hsound.size_pos⟩

/-! ## Tokens -/

/-- A token that spells a document: blanks, the padded Base64 spelling of a JSON text, and blanks.
-/
def Spells (t : String) (d : Json.Document) : Prop :=
  ∃ v bytes w, t.toList = v ++ Base64.encode bytes ++ w ∧ (∀ x ∈ v, isBlank x) ∧
    (∀ x ∈ w, isBlank x) ∧ Json.Document.ofBytes? bytes = some d

/-- Trimming finds the digits between blanks, and nothing else is left of them. -/
theorem trimBlanks_eq_encode_iff {s : List Char} {bytes : List UInt8} :
    trimBlanks s = Base64.encode bytes ↔
      ∃ v w, s = v ++ Base64.encode bytes ++ w ∧ (∀ x ∈ v, isBlank x) ∧ ∀ x ∈ w, isBlank x := by
  constructor
  · intro h
    obtain ⟨v, w, hs, hv, hw⟩ := exists_surroundings s
    exact ⟨v, w, h ▸ hs, hv, hw⟩
  · rintro ⟨v, w, rfl, hv, hw⟩
    rw [trimBlanks_surrounded _ hv hw]
    exact trimBlanks_eq_self fun x hx => Base64.not_isBlank_of_mem_encode hx

theorem spells_iff {t : String} {d : Json.Document} :
    Spells t d ↔
      (Base64.decode? (trimBlanks t.toList)).bind Json.Document.ofBytes? = some d := by
  rw [Option.bind_eq_some_iff]
  constructor
  · rintro ⟨v, bytes, w, ht, hv, hw, hd⟩
    exact ⟨bytes, Base64.decode?_eq_some_iff.mpr (trimBlanks_eq_encode_iff.mpr ⟨v, w, ht, hv, hw⟩),
      hd⟩
  · rintro ⟨bytes, hbytes, hd⟩
    obtain ⟨v, w, ht, hv, hw⟩ := trimBlanks_eq_encode_iff.mp (Base64.decode?_eq_some_iff.mp hbytes)
    exact ⟨v, bytes, w, ht, hv, hw, hd⟩

/-- A token spells one document. -/
theorem Spells.unique {t : String} {d e : Json.Document} (hd : Spells t d) (he : Spells t e) :
    d = e := by
  rw [spells_iff] at hd he
  exact Option.some.inj (hd.symm.trans he)

/-- **The tokens that are cursors.** The document is a payload, and the cursor is sound: its start
and its size are numbers from one to the greatest of 32 bits. -/
def StandsFor (t : String) (c : Cursor) : Prop := c.Sound ∧ ∃ d, Spells t d ∧ Payload c d

theorem ofToken?_eq_some_iff {t : String} {c : Cursor} :
    ofToken? t = some c ↔ StandsFor t c := by
  rw [ofToken?, Option.bind_eq_some_iff]
  constructor
  · rintro ⟨bytes, hbytes, hc⟩
    obtain ⟨hsound, d, hd, hpayload⟩ := ofBytes?_eq_some_iff.mp hc
    exact ⟨hsound, d, spells_iff.mpr (by rw [hbytes]; exact hd), hpayload⟩
  · rintro ⟨hsound, d, hd, hpayload⟩
    obtain ⟨bytes, hbytes, hdocument⟩ := Option.bind_eq_some_iff.mp (spells_iff.mp hd)
    exact ⟨bytes, hbytes, ofBytes?_eq_some_iff.mpr ⟨hsound, d, hdocument, hpayload⟩⟩

/-- A token is read as the cursor that it stands for, or as the first page if it stands for none. -/
theorem decode_eq_iff {t : String} {c : Cursor} :
    decode (some t) = c ↔ StandsFor t c ∨ c = ⟨1, 10⟩ ∧ ∀ c', ¬ StandsFor t c' := by
  show (ofToken? t).getD first = c ↔ _
  cases h : ofToken? t with
  | none =>
    have hnone : ∀ c', ¬ StandsFor t c' := fun c' hc' => by
      rw [← ofToken?_eq_some_iff, h] at hc'
      cases hc'
    constructor
    · rintro rfl
      exact .inr ⟨rfl, hnone⟩
    · rintro (hc | ⟨rfl, -⟩)
      · exact absurd hc (hnone c)
      · rfl
  | some c' =>
    have hsome := ofToken?_eq_some_iff.mp h
    constructor
    · rintro rfl
      exact .inl hsome
    · rintro (hc | ⟨-, hnone⟩)
      · rw [← ofToken?_eq_some_iff, h] at hc
        exact Option.some.inj hc
      · exact absurd hsome (hnone c')

/-- **What a token is read as, and when that takes an object.** It is read as the cursor that it
stands for, or as the first page if it stands for none. To be read as another page it has to spell
an object with the two numbers of its cursor, unless it spells an array that is read as one. -/
theorem decode_eq_iff_standsFor (t : String) :
    (∀ c, decode (some t) = c ↔ StandsFor t c ∨ c = ⟨1, 10⟩ ∧ ∀ c', ¬ StandsFor t c') ∧
      ((decode (some t) ≠ ⟨1, 10⟩ → (decode (some t)).Sound ∧
          ∃ members, Spells t (.object members) ∧ Payload (decode (some t)) (.object members)) ↔
        ∀ items, Spells t (.array items) → decode (some t) = ⟨1, 10⟩) := by
  refine ⟨fun c => decode_eq_iff, fun h items hitems => ?_, fun h hother => ?_⟩
  · by_contra hother
    obtain ⟨-, members, hmembers, -⟩ := h hother
    cases hitems.unique hmembers
  · rcases decode_eq_iff.mp rfl with ⟨hsound, d, hd, hpayload⟩ | ⟨hfirst, -⟩
    · cases d with
      | object members => exact ⟨hsound, members, hd, hpayload⟩
      | array items => exact absurd (h items hd) hother
      | scalar s => cases hpayload
    · exact absurd hfirst hother

/-- **Not only objects are cursors**: the token of the JSON text `[5,20]` is one. -/
theorem pair_is_read :
    decode (some "WzUsMjBd") = ⟨5, 20⟩ ∧
      ¬ ∀ t, decode (some t) ≠ ⟨1, 10⟩ → ∃ members, Spells t (.object members) := by
  have hread : decode (some "WzUsMjBd") = ⟨5, 20⟩ := by decide +kernel
  -- the six bytes are the text `[5,20]`, a document with two items
  have harray : Spells "WzUsMjBd" (.array [.scalar (.numeral ⟨false, ['5'], [], none⟩),
      .scalar (.numeral ⟨false, ['2', '0'], [], none⟩)]) := by
    refine spells_iff.mpr ?_
    rw [show Base64.decode? (trimBlanks "WzUsMjBd".toList)
      = some [0x5B, 0x35, 0x2C, 0x32, 0x30, 0x5D] by decide]
    rfl
  refine ⟨hread, fun h => ?_⟩
  obtain ⟨members, hmembers⟩ := h "WzUsMjBd" (by rw [hread]; decide)
  cases harray.unique hmembers

end ContentSearch.Cursor
