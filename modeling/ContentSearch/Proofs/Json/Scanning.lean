import ContentSearch.Json.Printer
import ContentSearch.Json.Token
import ContentSearch.Proofs.Json.Numeral

/-!
# Scanning what was written

A scan that has met the last character of a numeral does not know it yet, so between two tokens it
may stand in two modes. Which of the two makes no difference to anything that a numeral cannot
hold: the scan is *settled* (`State.Settles`), and a settled scan goes on as if it stood between
tokens (**`Settles.step`**).

So texts come in two kinds. Some are read from between two tokens (`Reads`), as values are, and
some from any settled scan (`Continues`), as everything is that starts with a bracket or a
separator. Both kinds are put together piece by piece, and the leaves are below: words, numerals
(**`reads_spelled`**) and strings (**`reads_string`**). A numeral and a string have many spellings,
and what is printed is one of them (**`reads_quote`**).

What is put behind something else must be a `Continues`, for two numerals side by side would be one.
So every lemma on a container has a `Reads` for what follows its bracket or separator and is a
`Continues` itself. The characters of a string are scanned by its pieces (`PieceText`) and mean
something afterwards, so a string that means nothing is scanned like any other.
-/

set_option autoImplicit false

namespace ContentSearch.Json.Scan

/-- A scan that has these tokens, the last one first, be it that the last is a numeral that could
still go on. -/
def State.Settles (s : State) (tokens : List Token) : Prop :=
  s = ⟨.between, tokens⟩ ∨
    ∃ read held, s = ⟨.numeral read, held⟩ ∧ endNumeral? read held = some tokens

theorem State.settles_between (tokens : List Token) : State.Settles ⟨.between, tokens⟩ tokens :=
  .inl rfl

/-- **A settled scan goes on as if it stood between tokens.** -/
theorem State.Settles.step {s : State} {tokens : List Token} (h : s.Settles tokens) {c : Char}
    (hc : isNumeralChar c = false) : Scan.step s (some c) = start tokens c := by
  -- The numeral ends at a character that it cannot hold, and that character starts the next token.
  rcases h with rfl | ⟨read, held, rfl, hend⟩
  · rfl
  · show (if isNumeralChar c then _ else (endNumeral? read held).bind fun ts => start ts c) = _
    rw [hc, hend]
    rfl

theorem State.Settles.finish {s : State} {tokens : List Token} (h : s.Settles tokens) :
    Scan.finish s = some tokens.reverse := by
  rcases h with rfl | ⟨read, held, rfl, hend⟩
  · rfl
  · show (endNumeral? read held).map List.reverse = _
    rw [hend]
    rfl

/-! ## Pieces of text -/

/-- A text that is read as these tokens from between two tokens. -/
def Reads (text : List Char) (tokens : List Token) : Prop :=
  ∀ held, ∃ s, run ⟨.between, held⟩ (text.map some) = some s ∧ s.Settles (tokens.reverse ++ held)

/-- A text that is read as these tokens from any settled scan. -/
def Continues (text : List Char) (tokens : List Token) : Prop :=
  ∀ s held, s.Settles held →
    ∃ s', run s (text.map some) = some s' ∧ s'.Settles (tokens.reverse ++ held)

section
variable {text more : List Char} {tokens others : List Token}

theorem Continues.reads (h : Continues text tokens) : Reads text tokens :=
  fun held => h _ held (State.settles_between held)

theorem Continues.nil : Continues [] [] := fun s _ hs => ⟨s, rfl, hs⟩

theorem Reads.nil : Reads [] [] := Continues.nil.reads

theorem Reads.append (h : Reads text tokens) (hmore : Continues more others) :
    Reads (text ++ more) (tokens ++ others) := by
  intro held
  obtain ⟨s, hrun, hs⟩ := h held
  obtain ⟨s', hrun', hs'⟩ := hmore s _ hs
  refine ⟨s', ?_, ?_⟩
  · rw [List.map_append, run_append, hrun]
    exact hrun'
  · rw [List.reverse_append, List.append_assoc]
    exact hs'

theorem Continues.append (h : Continues text tokens) (hmore : Continues more others) :
    Continues (text ++ more) (tokens ++ others) := by
  intro s held hs
  obtain ⟨s', hrun, hs'⟩ := h s held hs
  obtain ⟨s'', hrun', hs''⟩ := hmore s' _ hs'
  refine ⟨s'', ?_, ?_⟩
  · rw [List.map_append, run_append, hrun]
    exact hrun'
  · rw [List.reverse_append, List.append_assoc]
    exact hs''

/-- A bracket or a separator, and then a text that is read from between tokens. -/
theorem Continues.mark {c : Char} {token : Token} (hc : isNumeralChar c = false)
    (hstart : ∀ held, start held c = some ⟨.between, token :: held⟩) (h : Reads text tokens) :
    Continues (c :: text) (token :: tokens) := by
  intro s held hs
  -- behind the mark the scan stands between tokens, which is where the rest is read from
  obtain ⟨s', hrun, hs'⟩ := h (token :: held)
  refine ⟨s', ?_, ?_⟩
  · rw [List.map_cons, run, List.foldlM_cons, hs.step hc, hstart]
    exact hrun
  · rw [List.reverse_cons, List.append_assoc]
    exact hs'

theorem Continues.openArray (h : Reads text tokens) :
    Continues ('[' :: text) (.openArray :: tokens) :=
  .mark (by decide) (fun _ => rfl) h

theorem Continues.closeArray : Continues [']'] [.closeArray] :=
  .mark (by decide) (fun _ => rfl) Reads.nil

theorem Continues.openObject (h : Reads text tokens) :
    Continues ('\x7b' :: text) (.openObject :: tokens) :=
  .mark (by decide) (fun _ => rfl) h

theorem Continues.closeObject : Continues ['\x7d'] [.closeObject] :=
  .mark (by decide) (fun _ => rfl) Reads.nil

theorem Continues.colon (h : Reads text tokens) : Continues (':' :: text) (.colon :: tokens) :=
  .mark (by decide) (fun _ => rfl) h

theorem Continues.comma (h : Reads text tokens) : Continues (',' :: text) (.comma :: tokens) :=
  .mark (by decide) (fun _ => rfl) h

theorem Continues.blank {c : Char} (hc : isSpace c) (h : Reads text tokens) :
    Continues (c :: text) tokens := by
  have hnumeral : isNumeralChar c = false := by
    simp only [isSpace, Bool.or_eq_true, beq_iff_eq] at hc
    rcases hc with ((rfl | rfl) | rfl) | rfl <;> decide
  intro s held hs
  obtain ⟨s', hrun, hs'⟩ := h held
  refine ⟨s', ?_, hs'⟩
  rw [List.map_cons, run, List.foldlM_cons, hs.step hnumeral, start, if_pos hc]
  exact hrun

/-- Blanks in front of a text change nothing about it. -/
theorem Reads.blanks {s : List Char} (hs : ∀ c ∈ s, isSpace c) (h : Reads text tokens) :
    Reads (s ++ text) tokens := by
  -- blank by blank; the last one leaves the scan between tokens again
  induction s with
  | nil => exact h
  | cons c r ih =>
    have hrest := ih fun d hd => hs d (List.mem_cons_of_mem _ hd)
    exact (Continues.blank (hs c List.mem_cons_self) hrest).reads

theorem Continues.blanks {s : List Char} (hs : ∀ c ∈ s, isSpace c) (h : Continues text tokens) :
    Continues (s ++ text) tokens := by
  cases s with
  | nil => exact h
  | cons c r =>
    have hrest := h.reads.blanks fun d hd => hs d (List.mem_cons_of_mem _ hd)
    exact .blank (hs c List.mem_cons_self) hrest

/-- **A whole text** that is read as tokens has these tokens. -/
theorem Reads.scan?_eq (h : Reads text tokens) : Token.scan? (text.map some) = some tokens := by
  obtain ⟨s, hrun, hs⟩ := h []
  rw [Token.scan?, initial, hrun, Option.bind_some, hs.finish, List.append_nil,
    List.reverse_reverse]

end

/-! ## Words -/

theorem reads_null : Reads ['n', 'u', 'l', 'l'] [.scalar .null] :=
  fun held => ⟨⟨.between, .scalar .null :: held⟩, rfl, State.settles_between _⟩

theorem reads_true : Reads ['t', 'r', 'u', 'e'] [.scalar (.bool true)] :=
  fun held => ⟨⟨.between, .scalar (.bool true) :: held⟩, rfl, State.settles_between _⟩

theorem reads_false : Reads ['f', 'a', 'l', 's', 'e'] [.scalar (.bool false)] :=
  fun held => ⟨⟨.between, .scalar (.bool false) :: held⟩, rfl, State.settles_between _⟩

/-! ## Numerals -/

theorem start_of_isDigit {c : Char} (h : c.isDigit) (held : List Token) :
    start held c = some ⟨.numeral [c], held⟩ := by
  have hne : ∀ d : Char, d.isDigit = false → c ≠ d := by
    rintro d hd rfl
    rw [hd] at h
    exact absurd h Bool.false_ne_true
  have hspace : isSpace c = false := by
    simp only [isSpace, Bool.or_eq_false_iff, beq_eq_false_iff_ne]
    exact ⟨⟨⟨hne _ (by decide), hne _ (by decide)⟩, hne _ (by decide)⟩, hne _ (by decide)⟩
  -- a digit is none of the characters that begin something else
  unfold start
  rw [if_neg (by simp [hspace]), if_neg (hne _ (by decide)), if_neg (hne _ (by decide)),
    if_neg (hne _ (by decide)), if_neg (hne _ (by decide)), if_neg (hne _ (by decide)),
    if_neg (hne _ (by decide)), if_neg (hne _ (by decide)), if_neg (hne _ (by decide)),
    if_neg (hne _ (by decide)), if_neg (hne _ (by decide)), if_pos (.inr h)]

theorem run_numeral {text : List Char} (h : ∀ c ∈ text, isNumeralChar c) (read : List Char)
    (held : List Token) :
    run ⟨.numeral read, held⟩ (text.map some) = some ⟨.numeral (text.reverse ++ read), held⟩ := by
  -- along the text, for whatever was read of the numeral before
  induction text generalizing read with
  | nil => rfl
  | cons c r ih =>
    have hstep : step ⟨.numeral read, held⟩ (some c) = some ⟨.numeral (c :: read), held⟩ :=
      if_pos (h c List.mem_cons_self)
    rw [List.map_cons, run, List.foldlM_cons, hstep, List.reverse_cons, List.append_assoc]
    exact ih (fun d hd => h d (List.mem_cons_of_mem _ hd)) (c :: read)

theorem reads_numeral {c : Char} {text : List Char} {n : Numeral}
    (hstart : ∀ held, start held c = some ⟨.numeral [c], held⟩)
    (htext : ∀ d ∈ text, isNumeralChar d) (hn : Numeral.ofChars? (c :: text) = some n) :
    Reads (c :: text) [.scalar (.numeral n)] := by
  intro held
  refine ⟨⟨.numeral (text.reverse ++ [c]), held⟩, ?_, .inr ⟨_, held, rfl, ?_⟩⟩
  · rw [List.map_cons, run, List.foldlM_cons]
    show (start held c).bind _ = _
    rw [hstart]
    exact run_numeral htext [c] held
  · unfold endNumeral?
    rw [List.reverse_append, List.reverse_reverse]
    show (Numeral.ofChars? (c :: text)).map _ = _
    rw [hn]
    rfl

theorem isNumeralChar_of_isDigit {c : Char} (h : c.isDigit) : isNumeralChar c := by
  simp [isNumeralChar, h]

theorem isNumeralChar_of_mem_exponentText {exponent : Option (Bool × List Char)} {u : List Char}
    (h : Numeral.ExponentText exponent u) (hdigits : ∀ e ∈ exponent, ∀ c ∈ e.2, c.isDigit)
    {c : Char} (hc : c ∈ u) : isNumeralChar c := by
  have hletter : ∀ {e : Char}, e = 'e' ∨ e = 'E' → isNumeralChar e := by
    rintro e (rfl | rfl) <;> decide
  cases h with
  | none => exact absurd hc List.not_mem_nil
  | unsigned he =>
    rcases List.mem_cons.mp hc with rfl | hc
    · exact hletter he
    · exact isNumeralChar_of_isDigit (hdigits _ rfl c hc)
  | plus he =>
    rcases List.mem_cons.mp hc with rfl | hc
    · exact hletter he
    · rcases List.mem_cons.mp hc with rfl | hc
      · decide
      · exact isNumeralChar_of_isDigit (hdigits _ rfl c hc)
  | minus he =>
    rcases List.mem_cons.mp hc with rfl | hc
    · exact hletter he
    · rcases List.mem_cons.mp hc with rfl | hc
      · decide
      · exact isNumeralChar_of_isDigit (hdigits _ rfl c hc)

theorem isNumeralChar_of_mem_spelled {x : Numeral} (h : x.WellFormed) {t : List Char}
    (ht : x.Spelled t) {c : Char} (hc : c ∈ t) : isNumeralChar c := by
  obtain ⟨u, hu, rfl⟩ := ht
  simp only [List.mem_append] at hc
  -- a sign, the digits in front of the point, a fraction, an exponent
  rcases hc with hc | hc | hc | hc
  · split at hc
    · rw [List.mem_singleton.mp hc]
      decide
    · exact absurd hc List.not_mem_nil
  · exact isNumeralChar_of_isDigit (h.whole_digits c hc)
  · unfold Numeral.fractionText at hc
    split at hc
    · exact absurd hc List.not_mem_nil
    · rcases List.mem_cons.mp hc with rfl | hc
      · decide
      · exact isNumeralChar_of_isDigit (h.fraction_digits c hc)
  · exact isNumeralChar_of_mem_exponentText hu h.exponent_digits hc

/-- A numeral starts with its sign or with its first digit. -/
theorem start_of_spelled {x : Numeral} (h : x.WellFormed) {t : List Char} (ht : x.Spelled t) :
    ∃ c r, t = c :: r ∧ ∀ held, start held c = some ⟨.numeral [c], held⟩ := by
  obtain ⟨u, -, rfl⟩ := ht
  cases x.negative with
  | true => exact ⟨'-', _, rfl, fun _ => rfl⟩
  | false =>
    cases hwhole : x.whole with
    | nil => exact absurd hwhole h.whole_ne_nil
    | cons c t =>
      have hc : c.isDigit := h.whole_digits c (hwhole ▸ List.mem_cons_self)
      exact ⟨c, _, rfl, start_of_isDigit hc⟩

/-- **A spelled numeral is read as itself.** -/
theorem reads_spelled {x : Numeral} (h : x.WellFormed) {t : List Char} (ht : x.Spelled t) :
    Reads t [.scalar (.numeral x)] := by
  have hnumeral := Numeral.ofChars?_spelled h ht
  have hchars : ∀ c ∈ t, isNumeralChar c := fun _ hc => isNumeralChar_of_mem_spelled h ht hc
  obtain ⟨c, r, rfl, hstart⟩ := start_of_spelled h ht
  exact reads_numeral hstart (fun d hd => hchars d (List.mem_cons_of_mem _ hd)) hnumeral

/-- **A written integer is read as its numeral.** -/
theorem reads_writeInt (n : Int) :
    Reads (Text.Decimal.writeInt n) [.scalar (.numeral (.ofInt n))] := by
  rw [← Numeral.text_ofInt]
  exact reads_spelled (Numeral.wellFormed_ofInt n) (Numeral.spelled_text _)

/-! ## Strings -/

/-- Four digits are a number exactly if each of them is one. -/
theorem number?_four {a b c d : Char} {n : Nat} :
    Text.Hex.number? [a, b, c, d] = some n ↔
      ∃ x y z w, Text.Hex.value? a = some x ∧ Text.Hex.value? b = some y ∧
        Text.Hex.value? c = some z ∧ Text.Hex.value? d = some w ∧
          ((x * 16 + y) * 16 + z) * 16 + w = n := by
  unfold Text.Hex.number?
  cases ha : Text.Hex.value? a <;> cases hb : Text.Hex.value? b <;>
    cases hc : Text.Hex.value? c <;> cases hd : Text.Hex.value? d <;>
      simp [List.mapM_cons, ha, hb, hc, hd]

/-- The letters that stand behind a backslash for one character. -/
def shortForms : List (Char × Char) :=
  [('"', '"'), ('\\', '\\'), ('/', '/'), ('b', '\x08'), ('f', '\x0c'), ('n', '\n'), ('r', '\r'),
   ('t', '\t')]

/-- **The spellings of a piece of a string**: a character as itself or behind a backslash, a code
unit by its four digits. -/
inductive PieceText : Piece → List Char → Prop
  | raw {c : Char} (hquote : c ≠ '"') (hback : c ≠ '\\') (hcontrol : 0x20 ≤ c.toNat) :
      PieceText (.char c) [c]
  | short {letter c : Char} (h : (letter, c) ∈ shortForms) : PieceText (.char c) ['\\', letter]
  | unit {a b c d : Char} {n : Nat} (h : Text.Hex.number? [a, b, c, d] = some n) :
      PieceText (.unit n) ['\\', 'u', a, b, c, d]

/-- The spellings of pieces, one after the other. -/
inductive PiecesText : List Piece → List Char → Prop
  | nil : PiecesText [] []
  | cons {p : Piece} {ps : List Piece} {t u : List Char} (h : PieceText p t)
      (hr : PiecesText ps u) : PiecesText (p :: ps) (t ++ u)

theorem run_unit {a b c d : Char} {n : Nat} (h : Text.Hex.number? [a, b, c, d] = some n)
    (read : List Piece) (held : List Token) :
    run ⟨.unit read 4 0, held⟩ [some a, some b, some c, some d]
      = some ⟨.string (.unit n :: read), held⟩ := by
  obtain ⟨x, y, z, w, hx, hy, hz, hw, rfl⟩ := number?_four.mp h
  -- each digit but the last moves the number on by one place; the last one closes the unit
  have hstep : ∀ {e : Char} {v : Nat}, Text.Hex.value? e = some v → ∀ left m,
      step ⟨.unit read (left + 2) m, held⟩ (some e)
        = some ⟨.unit read (left + 1) (m * 16 + v), held⟩ := by
    intro e v he left m
    show (Text.Hex.value? e).map _ = _
    rw [he, Option.map_some, if_neg (by omega)]
    rfl
  have hlast : ∀ m, step ⟨.unit read 1 m, held⟩ (some d)
      = some ⟨.string (.unit (m * 16 + w) :: read), held⟩ := by
    intro m
    show (Text.Hex.value? d).map _ = _
    rw [hw]
    rfl
  show (step ⟨.unit read 4 0, held⟩ (some a)).bind (fun s => (step s (some b)).bind fun s =>
    (step s (some c)).bind fun s => (step s (some d)).bind some) = _
  rw [hstep hx 2, Option.bind_some, hstep hy 1, Option.bind_some, hstep hz 0, Option.bind_some,
    hlast, Option.bind_some, Nat.zero_mul, Nat.zero_add]

theorem run_pieceText {p : Piece} {t : List Char} (h : PieceText p t) (read : List Piece)
    (held : List Token) :
    run ⟨.string read, held⟩ (t.map some) = some ⟨.string (p :: read), held⟩ := by
  cases h with
  | @raw c hquote hback hcontrol =>
    have hstep : step ⟨.string read, held⟩ (some c) = some ⟨.string (.char c :: read), held⟩ := by
      show (if c = '"' then _ else if c = '\\' then _ else if c.toNat < 0x20 then _ else _) = _
      rw [if_neg hquote, if_neg hback, if_neg (by omega)]
    show (step ⟨.string read, held⟩ (some c)).bind some = _
    rw [hstep]
    rfl
  | short h =>
    simp only [shortForms, List.mem_cons, Prod.mk.injEq, List.not_mem_nil, or_false] at h
    rcases h with ⟨rfl, rfl⟩ | ⟨rfl, rfl⟩ | ⟨rfl, rfl⟩ | ⟨rfl, rfl⟩ | ⟨rfl, rfl⟩ | ⟨rfl, rfl⟩ |
      ⟨rfl, rfl⟩ | ⟨rfl, rfl⟩ <;> rfl
  | unit h => exact run_unit h read held

theorem run_piecesText {ps : List Piece} {t : List Char} (h : PiecesText ps t) (read : List Piece)
    (held : List Token) :
    run ⟨.string read, held⟩ (t.map some) = some ⟨.string (ps.reverse ++ read), held⟩ := by
  -- along the spelling, for whatever pieces were read before
  induction h generalizing read with
  | nil => rfl
  | cons h _ ih =>
    rw [List.map_append, run_append, run_pieceText h, Option.bind_some, ih, List.reverse_cons,
      List.append_assoc]
    rfl

/-- **A spelled string is read** as the text of its pieces, if they spell one. -/
theorem reads_string {ps : List Piece} {t : List Char} (h : PiecesText ps t) :
    Reads ('"' :: (t ++ ['"'])) [.scalar (.string ((Piece.content? ps).map String.ofList))] := by
  intro held
  refine ⟨_, ?_, State.settles_between _⟩
  have hopen : step ⟨.between, held⟩ (some '"') = some ⟨.string [], held⟩ := rfl
  rw [List.map_cons, List.map_append, run, List.foldlM_cons, hopen]
  show run ⟨.string [], held⟩ _ = _
  rw [run_append, run_piecesText h, List.append_nil, Option.bind_some]
  show some (endString _ held) = _
  rw [endString, List.reverse_reverse]
  rfl

/-- The characters that a backslash and one more character stand for when they are written. -/
def shortEscapes : List Char := ['"', '\\', '\x08', '\x0c', '\n', '\r', '\t']

/-- How a character of a string is written: the other control characters as code units, and all
else as itself. -/
def writtenPiece (c : Char) : Piece :=
  if c ∉ shortEscapes ∧ c.toNat < 0x20 then .unit c.toNat else .char c

theorem escapeChar_of_not_mem {c : Char} (h : c ∉ shortEscapes) :
    escapeChar c = if c.toNat < 0x20 then
      ['\\', 'u', '0', '0', Text.Hex.smallDigit (c.toNat / 16), Text.Hex.smallDigit (c.toNat % 16)]
    else [c] := by
  simp only [shortEscapes, List.mem_cons, List.not_mem_nil, or_false, not_or] at h
  obtain ⟨hquote, hback, hb, hf, hn, hr, ht⟩ := h
  rw [escapeChar, if_neg hquote, if_neg hback, if_neg hb, if_neg hf, if_neg hn, if_neg hr,
    if_neg ht]

/-- **What is written for a character spells it.** -/
theorem pieceText_escapeChar (c : Char) : PieceText (writtenPiece c) (escapeChar c) := by
  -- A character with a short form is written in it, any other control character as a code unit, and
  -- the rest as it is.
  by_cases hshort : c ∈ shortEscapes
  · have hpiece : writtenPiece c = .char c := if_neg fun h => h.1 hshort
    rw [hpiece]
    simp only [shortEscapes, List.mem_cons, List.not_mem_nil, or_false] at hshort
    rcases hshort with rfl | rfl | rfl | rfl | rfl | rfl | rfl <;> exact .short (by decide)
  · rw [escapeChar_of_not_mem hshort]
    by_cases hcontrol : c.toNat < 0x20
    · have hpiece : writtenPiece c = .unit c.toNat := if_pos ⟨hshort, hcontrol⟩
      rw [if_pos hcontrol, hpiece]
      refine .unit (number?_four.mpr ⟨0, 0, c.toNat / 16, c.toNat % 16, rfl, rfl,
        Text.Hex.value?_smallDigit (by omega), Text.Hex.value?_smallDigit (by omega), by omega⟩)
    · -- a quote or a backslash would have been a short escape
      have hpiece : writtenPiece c = .char c := if_neg fun h => hcontrol h.2
      rw [if_neg hcontrol, hpiece]
      exact .raw (fun h => hshort (h ▸ by decide)) (fun h => hshort (h ▸ by decide)) (by omega)

theorem piecesText_escapeChars (s : List Char) :
    PiecesText (s.map writtenPiece) (s.flatMap escapeChar) := by
  induction s with
  | nil => exact .nil
  | cons c r ih => exact .cons (pieceText_escapeChar c) ih

/-- The pieces spell the string. No code unit among them is half of a pair. -/
theorem content?_writtenPiece (s : List Char) : Piece.content? (s.map writtenPiece) = some s := by
  induction s with
  | nil => rfl
  | cons c r ih =>
    rw [List.map_cons]
    -- a code unit is written for control characters only, which are far from the halves of pairs
    by_cases hunit : c ∉ shortEscapes ∧ c.toNat < 0x20
    · have hpiece : writtenPiece c = .unit c.toNat := if_pos hunit
      have hhigh : Piece.isHigh c.toNat = false := by
        simp only [Piece.isHigh, Bool.and_eq_false_iff, decide_eq_false_iff_not]
        omega
      have hlow : Piece.isLow c.toNat = false := by
        simp only [Piece.isLow, Bool.and_eq_false_iff, decide_eq_false_iff_not]
        omega
      rw [hpiece, Piece.content?.eq_def]
      simp only [hhigh, hlow, ih, Char.ofNat_toNat]
      rfl
    · have hpiece : writtenPiece c = .char c := if_neg hunit
      rw [hpiece, Piece.content?, ih]
      rfl

/-- **A written string is read as the string.** -/
theorem reads_quote (s : String) : Reads (quote s) [.scalar (.string (some s))] := by
  have hreads := reads_string (piecesText_escapeChars s.toList)
  rwa [content?_writtenPiece, Option.map_some, String.ofList_toList] at hreads

end ContentSearch.Json.Scan
