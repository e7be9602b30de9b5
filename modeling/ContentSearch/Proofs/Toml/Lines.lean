import ContentSearch.Proofs.Keyed
import ContentSearch.Proofs.Text.Decimal
import ContentSearch.Proofs.Toml.Quoted
import ContentSearch.Toml.Document

/-!
# Lines of a document

A document that is laid out plainly has one statement to a line: a bare key, an equals sign and a
value, or the header of a table. Each such line is read as its statement, whatever lines follow, and
a text of several lines as their statements in order; `Lays` says so of a text, and it composes
(`Lays.append`). Strings and numbers are values that a line can have (`spells_string`,
`spells_integer`).

The reader of statements runs on fuel and takes some for every line. A text that is laid out says
how much it needs, which is no more than it is long, and leaves the rest of the fuel to what stands
behind it. That is what lets two texts be put together, and a whole document needs no more than the
reader starts out with (**`Lays.statements?_eq`**).
-/

set_option autoImplicit false

namespace ContentSearch.Toml

open Text

/-! ## Numbers -/

theorem plainDigits?_of_isDigit {s : List Char} (hne : s ≠ []) (h : ∀ c ∈ s, c.isDigit) :
    plainDigits? Char.isDigit s = some s := by
  -- digit by digit; an underscore between them is none
  induction s with
  | nil => exact absurd rfl hne
  | cons c r ih =>
    have hc : c.isDigit := h c List.mem_cons_self
    cases r with
    | nil => simp [plainDigits?, hc]
    | cons d r =>
      have hd : d.isDigit := h d (by simp)
      have hscore : d ≠ '_' := by
        rintro rfl
        exact absurd hd (by decide)
      have hrest := ih (List.cons_ne_nil d r) fun x hx => h x (List.mem_cons_of_mem c hx)
      rw [plainDigits?]
      · rw [if_pos hc, hrest]
        rfl
      · simp [hscore]

theorem valueIn_ten {s : List Char} (h : ∀ c ∈ s, c.isDigit) :
    valueIn 10 s = Nat.ofDigitChars 10 s 0 := by
  suffices hacc : ∀ n, s.foldl (fun n c => n * 10 + digitValue c) n = Nat.ofDigitChars 10 s n from
    hacc 0
  induction s with
  | nil => intro n; simp [Nat.ofDigitChars]
  | cons c r ih =>
    intro n
    have hc : c.isDigit := h c List.mem_cons_self
    rw [List.foldl_cons, Nat.ofDigitChars_cons, ih fun x hx => h x (List.mem_cons_of_mem c hx),
      digitValue, if_pos hc, Nat.mul_comm]

theorem integer?_write {n : Nat} (h : n < Nat.pow 2 63) :
    integer? (Decimal.write n) = some (n : Int) := by
  have hdigit : ∀ c ∈ Decimal.write n, c.isDigit := fun c => Decimal.isDigit_of_mem_write
  have hplain := plainDigits?_of_isDigit (Decimal.write_ne_nil n) hdigit
  have hdecimal : decimalDigits? (Decimal.write n) = some (Decimal.write n) := by
    rw [decimalDigits?, hplain]
    split
    · rename_i c r hzero
      -- only zero itself is written with a zero in front, and it has no other digit
      rcases Nat.eq_zero_or_pos n with rfl | hpos
      · cases Option.some.inj hzero
      · exact absurd (Option.some.inj hzero) (Decimal.write_ne_zero_cons hpos _)
    · rfl
  have hvalue : valueIn 10 (Decimal.write n) = n := by
    rw [valueIn_ten hdigit, Decimal.ofDigitChars_write]
  have hletter : ∀ {x : Char} (c : Char) (r : List Char), ¬ x.isDigit →
      Decimal.write n ≠ c :: x :: r := by
    intro x c r hx heq
    exact hx (hdigit x (by rw [heq]; simp))
  -- the sign is read first, and a digit is none
  have hsign : splitSign (Decimal.write n) = (false, Decimal.write n) := by
    unfold splitSign
    split
    · rename_i r hminus
      exact absurd hminus (Decimal.write_ne_minus_cons n r)
    · rename_i r hplus
      exact absurd (hdigit '+' (by rw [hplus]; simp)) (by decide)
    · rfl
  -- A letter in the second place would tell another base. Without one the digits are decimal.
  unfold integer?
  split
  · rename_i r hx
    exact absurd hx (hletter _ _ (by decide))
  · rename_i r ho
    exact absurd ho (hletter _ _ (by decide))
  · rename_i r hb
    exact absurd hb (hletter _ _ (by decide))
  · rw [hsign]
    dsimp only
    rw [hdecimal, Option.bind_some, hvalue]
    exact if_pos ⟨by omega, by omega⟩

/-! ## Values -/

/-- The text is a value, and what follows it on its line is nothing. -/
structure Spells (text : List Char) (v : Node) : Prop where
  front : ∀ rest, skipBlanks (text ++ rest) = text ++ rest
  value : ∀ room fuel rest, value? room (fuel + 1) (text ++ '\n' :: rest) = some (v, '\n' :: rest)

theorem skipBlanks_cons {c : Char} (h : ¬ (c = ' ' ∨ c = '\t')) (r : List Char) :
    skipBlanks (c :: r) = c :: r :=
  List.dropWhile_cons_of_neg (by simpa using h)

theorem spells_string (s : String) : Spells (Quoted.write s.toList) (.string s) := by
  have hcons : ∀ rest, Quoted.write s.toList ++ rest
      = '"' :: (s.toList.flatMap Quoted.writeChar ++ ['"'] ++ rest) := fun _ => rfl
  refine ⟨fun rest => ?_, fun room fuel rest => ?_⟩
  · rw [hcons]
    exact skipBlanks_cons (by decide) _
  · have hread := Quoted.any?_write s.toList (r := '\n' :: rest) (by simp)
    rw [hcons] at hread ⊢
    rw [value?, hread]
    show some (Node.string (String.ofList s.toList), '\n' :: rest) = _
    rw [String.ofList_toList]

theorem ofWord?_write {n : Nat} (h : n < Nat.pow 2 63) :
    Node.ofWord? (Decimal.write n) = some (.integer n) := by
  have hdigit : ∀ c ∈ Decimal.write n, c.isDigit := fun c => Decimal.isDigit_of_mem_write
  have htrue : Decimal.write n ≠ "true".toList := by
    intro heq
    exact absurd (hdigit 't' (by rw [heq]; decide)) (by decide)
  have hfalse : Decimal.write n ≠ "false".toList := by
    intro heq
    exact absurd (hdigit 'f' (by rw [heq]; decide)) (by decide)
  rw [Node.ofWord?, if_neg htrue, if_neg hfalse, integer?_write h]

theorem wordValue?_write {n : Nat} (h : n < Nat.pow 2 63) (rest : List Char) :
    wordValue? (Decimal.write n ++ '\n' :: rest) = some (.integer n, '\n' :: rest) := by
  have hword : ∀ c ∈ Decimal.write n, isWordChar c := by
    intro c hc
    have hdigit : c.isDigit := Decimal.isDigit_of_mem_write hc
    simp [isWordChar, Char.isAlphanum, hdigit]
  have hend : ¬ isWordChar '\n' := by decide
  -- the word ends with the line
  have hsplit : word (Decimal.write n ++ '\n' :: rest) = (Decimal.write n, '\n' :: rest) := by
    rw [word, List.takeWhile_append_of_pos hword, List.dropWhile_append_of_pos hword,
      List.takeWhile_cons_of_neg hend, List.dropWhile_cons_of_neg hend, List.append_nil]
  unfold wordValue?
  rw [hsplit]
  show (Node.ofWord? (Decimal.write n)).map _ = _
  rw [ofWord?_write h]
  rfl

theorem spells_integer {n : Nat} (h : n < Nat.pow 2 63) :
    Spells (Decimal.write n) (.integer n) := by
  obtain ⟨c, r, hwrite⟩ := List.exists_cons_of_ne_nil (Decimal.write_ne_nil n)
  have hdigit : c.isDigit := Decimal.isDigit_of_mem_write (n := n) (by rw [hwrite]; simp)
  have hne : ∀ d : Char, ¬ d.isDigit → c ≠ d := by
    rintro d hd rfl
    exact hd hdigit
  refine ⟨fun rest => ?_, fun room fuel rest => ?_⟩
  · rw [hwrite]
    refine skipBlanks_cons (fun hblank => ?_) _
    rcases hblank with hblank | hblank
    · exact hne ' ' (by decide) hblank
    · exact hne '\t' (by decide) hblank
  · have hvalue := wordValue?_write h rest
    rw [hwrite] at hvalue ⊢
    rw [List.cons_append] at hvalue ⊢
    rw [value?, hvalue]
    · exact fun r' heq => hne '"' (by decide) (List.cons.inj heq).1
    · exact fun r' heq => hne '\x27' (by decide) (List.cons.inj heq).1
    · exact fun r' heq => hne '[' (by decide) (List.cons.inj heq).1
    · exact fun r' heq => hne '\x7b' (by decide) (List.cons.inj heq).1

/-! ## Keys -/

/-- A name that needs no quotes. -/
def IsBare (k : String) : Prop := k.toList ≠ [] ∧ ∀ c ∈ k.toList, isBareKeyChar c

instance (k : String) : Decidable (IsBare k) := inferInstanceAs (Decidable (_ ∧ _))

theorem IsBare.front {k : String} (h : IsBare k) :
    ∃ c r, k.toList = c :: r ∧ isBareKeyChar c := by
  obtain ⟨c, r, hk⟩ := List.exists_cons_of_ne_nil h.1
  exact ⟨c, r, hk, h.2 c (by rw [hk]; simp)⟩

theorem ne_of_isBareKeyChar {c d : Char} (hc : isBareKeyChar c) (hd : ¬ isBareKeyChar d) : c ≠ d :=
  fun heq => hd (heq ▸ hc)

theorem simpleKey?_bare {k : String} (h : IsBare k) {d : Char} (hd : ¬ isBareKeyChar d)
    (r : List Char) : simpleKey? (k.toList ++ d :: r) = some (k, d :: r) := by
  obtain ⟨c, s, hk, hc⟩ := h.front
  have htake : (k.toList ++ d :: r).takeWhile isBareKeyChar = k.toList := by
    rw [List.takeWhile_append_of_pos h.2, List.takeWhile_cons_of_neg hd, List.append_nil]
  have hdrop : (k.toList ++ d :: r).dropWhile isBareKeyChar = d :: r := by
    rw [List.dropWhile_append_of_pos h.2, List.dropWhile_cons_of_neg hd]
  unfold simpleKey?
  split
  · rename_i r' heq
    rw [hk] at heq
    exact absurd (List.cons.inj heq).1 (ne_of_isBareKeyChar hc (by decide))
  · rename_i r' heq
    rw [hk] at heq
    exact absurd (List.cons.inj heq).1 (ne_of_isBareKeyChar hc (by decide))
  · rw [htake, hdrop]
    split
    · rename_i hnil
      exact absurd hnil h.1
    · rw [String.ofList_toList]

theorem skipBlanks_bare {k : String} (h : IsBare k) (r : List Char) :
    skipBlanks (k.toList ++ r) = k.toList ++ r := by
  obtain ⟨c, s, hk, hc⟩ := h.front
  rw [hk]
  refine skipBlanks_cons (fun hblank => ?_) _
  rcases hblank with rfl | rfl
  · exact absurd hc (by decide)
  · exact absurd hc (by decide)

/-- A bare key ends where something else begins that is no dot, be it behind blanks. -/
theorem key?_bare {k : String} (h : IsBare k) {d e : Char} {r r' : List Char}
    (hd : ¬ isBareKeyChar d) (hrest : skipBlanks (d :: r) = e :: r') (he : e ≠ '.') :
    key? (k.toList ++ d :: r) = some ([k], e :: r') := by
  -- what follows the blanks is no dot, so the key has one part
  have hparts : ∀ fuel, keyParts? (fuel + 1) (k.toList ++ d :: r) = some ([k], e :: r') := by
    intro fuel
    rw [keyParts?, skipBlanks_bare h, simpleKey?_bare h hd]
    dsimp only
    rw [hrest]
    split
    · rename_i heq
      exact absurd (List.cons.inj heq).1 he
    · rfl
  rw [key?, hparts]
  rfl

/-! ## Statements -/

theorem statement?_pair {k : String} (hk : IsBare k) {text : List Char} {v : Node}
    (hv : Spells text v) (rest : List Char) :
    statement? (k.toList ++ ' ' :: '=' :: ' ' :: (text ++ '\n' :: rest))
      = some (.pair [k] v, '\n' :: rest) := by
  obtain ⟨c, s, hfront, hc⟩ := hk.front
  have hne : c ≠ '[' := ne_of_isBareKeyChar hc (by decide)
  have hkey : key? (k.toList ++ ' ' :: '=' :: ' ' :: (text ++ '\n' :: rest))
      = some ([k], '=' :: ' ' :: (text ++ '\n' :: rest)) :=
    key?_bare hk (by decide) rfl (by decide)
  have hvalue : skipBlanks (' ' :: (text ++ '\n' :: rest)) = text ++ '\n' :: rest := hv.front _
  unfold statement?
  split
  · rename_i heq
    rw [hfront] at heq
    exact absurd (List.cons.inj heq).1 hne
  · rename_i heq
    rw [hfront] at heq
    exact absurd (List.cons.inj heq).1 hne
  · rw [hkey]
    show (value? deepest (2 * _ + 2) (skipBlanks (' ' :: (text ++ '\n' :: rest)))).map _ = _
    rw [hvalue, hv.value]
    rfl

theorem statement?_header {k : String} (hk : IsBare k) (rest : List Char) :
    statement? ('[' :: (k.toList ++ ']' :: rest)) = some (.header [k], rest) := by
  obtain ⟨c, s, hfront, hc⟩ := hk.front
  have hne : c ≠ '[' := ne_of_isBareKeyChar hc (by decide)
  have hkey : key? (k.toList ++ ']' :: rest) = some ([k], ']' :: rest) :=
    key?_bare hk (by decide) rfl (by decide)
  unfold statement?
  split
  · rename_i heq
    rw [hfront] at heq
    exact absurd (List.cons.inj (List.cons.inj heq).2).1 hne
  · rename_i heq
    obtain rfl := (List.cons.inj heq).2
    rw [hkey]
    rfl
  · rename_i hother
    exact absurd rfl (hother _)

/-- **One line is one statement**, and the others are what follows it. -/
theorem statements?_line {c : Char} (hc : c ∉ [' ', '\t', '\n', '\r', '#']) {s rest : List Char}
    {st : Statement} (hst : statement? (c :: s) = some (st, '\n' :: rest)) (fuel : Nat) :
    statements? (fuel + 1) (c :: s) = (statements? fuel rest).map (st :: ·) := by
  have hblank : skipBlanks (c :: s) = c :: s := by
    refine skipBlanks_cons (fun hblank => hc ?_) s
    rcases hblank with rfl | rfl <;> simp
  have hne : ∀ d ∈ [' ', '\t', '\n', '\r', '#'], c ≠ d := by
    rintro d hd rfl
    exact hc hd
  have hend : lineEnd? ('\n' :: rest) = some rest := rfl
  -- the other readings of a line begin with one of the characters that are excluded
  rw [statements?, hblank]
  split
  · rename_i heq
    cases heq
  · rename_i heq
    exact absurd (List.cons.inj heq).1 (hne '\n' (by simp))
  · rename_i heq
    exact absurd (List.cons.inj heq).1 (hne '\r' (by simp))
  · rename_i heq
    exact absurd (List.cons.inj heq).1 (hne '#' (by simp))
  · rw [hst]
    dsimp only
    rw [hend]

/-! ## Texts of lines -/

/-- **The text is these statements**, each on its line. Reading them uses no more fuel than the text
has characters. -/
def Lays (text : List Char) (sts : List Statement) : Prop :=
  ∃ used ≤ text.length, ∀ fuel rest,
    statements? (used + fuel) (text ++ rest) = (statements? fuel rest).map (sts ++ ·)

namespace Lays

variable {text text' : List Char} {sts sts' : List Statement}

theorem nil : Lays [] [] := by
  refine ⟨0, Nat.le_refl 0, fun fuel rest => ?_⟩
  rw [Nat.zero_add, List.nil_append]
  cases statements? fuel rest <;> rfl

theorem append (h : Lays text sts) (h' : Lays text' sts') :
    Lays (text ++ text') (sts ++ sts') := by
  obtain ⟨used, hle, hread⟩ := h
  obtain ⟨used', hle', hread'⟩ := h'
  -- the fuel of both is enough for both, and neither text is shorter than its fuel
  refine ⟨used + used', ?_, fun fuel rest => ?_⟩
  · rw [List.length_append]
    omega
  · rw [Nat.add_assoc, List.append_assoc, hread, hread', Option.map_map]
    congr 1
    funext more
    exact (List.append_assoc _ _ _).symm

theorem emptyLine : Lays ['\n'] [] := by
  refine ⟨1, Nat.le_refl 1, fun fuel rest => ?_⟩
  have hskip : statements? (fuel + 1) ('\n' :: rest) = statements? fuel rest := rfl
  rw [Nat.add_comm, List.singleton_append, hskip]
  cases statements? fuel rest <;> rfl

theorem pair {k : String} (hk : IsBare k) {text : List Char} {v : Node} (hv : Spells text v) :
    Lays (k.toList ++ " = ".toList ++ text ++ ['\n']) [.pair [k] v] := by
  refine ⟨1, by simp; omega, fun fuel rest => ?_⟩
  obtain ⟨c, s, hfront, hc⟩ := hk.front
  have hst := statement?_pair hk hv rest
  have htext : k.toList ++ " = ".toList ++ text ++ ['\n'] ++ rest
      = k.toList ++ ' ' :: '=' :: ' ' :: (text ++ '\n' :: rest) := by
    simp
  rw [htext, Nat.add_comm]
  rw [hfront] at hst ⊢
  refine statements?_line (fun hmem => ?_) hst fuel
  have hbare : ∀ d ∈ [' ', '\t', '\n', '\r', '#'], ¬ isBareKeyChar d := by decide
  exact hbare c hmem hc

theorem header {k : String} (hk : IsBare k) :
    Lays ('[' :: (k.toList ++ [']', '\n'])) [.header [k]] := by
  refine ⟨1, by simp, fun fuel rest => ?_⟩
  have htext : '[' :: (k.toList ++ [']', '\n']) ++ rest
      = '[' :: (k.toList ++ ']' :: '\n' :: rest) := by
    simp
  rw [htext, Nat.add_comm]
  exact statements?_line (by decide) (statement?_header hk _) fuel

/-- **A text of lines is read as its statements.** -/
theorem statements?_eq (h : Lays text sts) : statements? (text.length + 1) text = some sts := by
  obtain ⟨used, hle, hread⟩ := h
  obtain ⟨left, hleft⟩ := Nat.exists_eq_add_of_le hle
  have hall := hread (left + 1) []
  rw [List.append_nil] at hall
  rw [hleft, Nat.add_assoc, hall]
  show (some []).map (sts ++ ·) = some sts
  rw [Option.map_some, List.append_nil]

end Lays

end ContentSearch.Toml
