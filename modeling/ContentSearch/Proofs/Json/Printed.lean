import ContentSearch.Json.Record
import ContentSearch.Proofs.Json.Double
import ContentSearch.Proofs.Json.Scanning

/-!
# Reading what was printed

Every document has its own tokens, and building takes them back to the document
(**`Document.ofTokens?_tokens`**), whatever is in it. A value that is printed compactly is read as
the tokens of a document of its own (**`Value.reads_compact`**), so the text of the value is read
as that document (**`Document.read?_compact`**).

A document keeps its numerals as they are written, so none of this asks whether the number that was
written is the number that is read.
-/

set_option autoImplicit false

namespace ContentSearch.Json

/-! ## The tokens of a document -/

mutual

/-- The tokens of a document. -/
def Document.tokens : Document → List Token
  | .scalar s => [.scalar s]
  | .array items => .openArray :: (Document.itemTokens items ++ [.closeArray])
  | .object members => .openObject :: (Document.memberTokens members ++ [.closeObject])
termination_by structural d => d

def Document.itemTokens : List Document → List Token
  | [] => []
  | d :: ds => d.tokens ++ Document.restItemTokens ds
termination_by structural ds => ds

/-- The tokens of items, each behind a comma. -/
def Document.restItemTokens : List Document → List Token
  | [] => []
  | d :: ds => .comma :: (d.tokens ++ Document.restItemTokens ds)
termination_by structural ds => ds

def Document.memberTokens : List (Option String × Document) → List Token
  | [] => []
  | (k, d) :: ms =>
    .scalar (.string k) :: .colon :: (d.tokens ++ Document.restMemberTokens ms)
termination_by structural ms => ms

/-- The tokens of members, each behind a comma. -/
def Document.restMemberTokens : List (Option String × Document) → List Token
  | [] => []
  | (k, d) :: ms =>
    .comma :: .scalar (.string k) :: .colon :: (d.tokens ++ Document.restMemberTokens ms)
termination_by structural ms => ms

end

namespace Build

theorem step_openArray (stack : List Frame) {e : Expect} (he : e = .value ∨ e = .itemOrEnd) :
    step ⟨stack, e⟩ .openArray = some ⟨.array [] :: stack, .itemOrEnd⟩ := by
  rcases he with rfl | rfl <;> rfl

theorem step_openObject (stack : List Frame) {e : Expect} (he : e = .value ∨ e = .itemOrEnd) :
    step ⟨stack, e⟩ .openObject = some ⟨.object [] :: stack, .nameOrEnd⟩ := by
  rcases he with rfl | rfl <;> rfl

theorem run_cons (s : State) (t : Token) (ts : List Token) :
    run s (t :: ts) = (step s t).bind fun s' => run s' ts := rfl

theorem run_singleton (s : State) (t : Token) : run s [t] = step s t :=
  Option.bind_fun_some (step s t)

mutual

/-- **The tokens of a document build it**, wherever a value may come. -/
theorem run_tokens (d : Document) (stack : List Frame) {e : Expect}
    (he : e = .value ∨ e = .itemOrEnd) : run ⟨stack, e⟩ d.tokens = close d stack := by
  cases d with
  | scalar s =>
    rcases he with rfl | rfl
    · exact run_singleton ⟨stack, .value⟩ (.scalar s)
    · exact run_singleton ⟨stack, .itemOrEnd⟩ (.scalar s)
  | array items =>
    rw [Document.tokens, run_cons, step_openArray stack he, Option.bind_some, run_append]
    cases items with
    | nil => exact run_singleton ⟨.array [] :: stack, .itemOrEnd⟩ .closeArray
    | cons d ds =>
      -- the first item stands where the end could stand too, and the others behind commas
      have hfirst := run_tokens d (.array [] :: stack) (.inr rfl)
      have hrest := run_restItemTokens ds [d] stack
      rw [Document.itemTokens, run_append, hfirst]
      show ((run ⟨.array [d] :: stack, .separatorOrEnd⟩ _).bind _) = _
      rw [hrest, Option.bind_some, run_singleton]
      show close (.array (ds.reverse ++ [d]).reverse) stack = _
      rw [List.reverse_append, List.reverse_reverse]
      rfl
  | object members =>
    rw [Document.tokens, run_cons, step_openObject stack he, Option.bind_some, run_append]
    cases members with
    | nil => exact run_singleton ⟨.object [] :: stack, .nameOrEnd⟩ .closeObject
    | cons m ms =>
      obtain ⟨k, d⟩ := m
      have hfirst := run_tokens d (.member [] k :: stack) (.inl rfl)
      have hrest := run_restMemberTokens ms [(k, d)] stack
      rw [Document.memberTokens]
      show ((run ⟨.member [] k :: stack, .value⟩ _).bind _) = _
      rw [run_append, hfirst]
      show ((run ⟨.object [(k, d)] :: stack, .separatorOrEnd⟩ _).bind _) = _
      rw [hrest, Option.bind_some, run_singleton]
      show close (.object (ms.reverse ++ [(k, d)]).reverse) stack = _
      rw [List.reverse_append, List.reverse_reverse]
      rfl
termination_by structural d

theorem run_restItemTokens (ds items : List Document) (stack : List Frame) :
    run ⟨.array items :: stack, .separatorOrEnd⟩ (Document.restItemTokens ds)
      = some ⟨.array (ds.reverse ++ items) :: stack, .separatorOrEnd⟩ := by
  cases ds with
  | nil => rfl
  | cons d ds =>
    have hfirst := run_tokens d (.array items :: stack) (.inl rfl)
    have hrest := run_restItemTokens ds (d :: items) stack
    rw [Document.restItemTokens, List.reverse_cons, List.append_assoc]
    show run ⟨.array items :: stack, .value⟩ (d.tokens ++ _) = _
    rw [run_append, hfirst]
    exact hrest
termination_by structural ds

theorem run_restMemberTokens (ms members : List (Option String × Document)) (stack : List Frame) :
    run ⟨.object members :: stack, .separatorOrEnd⟩ (Document.restMemberTokens ms)
      = some ⟨.object (ms.reverse ++ members) :: stack, .separatorOrEnd⟩ := by
  cases ms with
  | nil => rfl
  | cons m ms =>
    obtain ⟨k, d⟩ := m
    have hfirst := run_tokens d (.member members k :: stack) (.inl rfl)
    have hrest := run_restMemberTokens ms ((k, d) :: members) stack
    rw [Document.restMemberTokens, List.reverse_cons, List.append_assoc]
    show run ⟨.member members k :: stack, .value⟩ (d.tokens ++ _) = _
    rw [run_append, hfirst]
    exact hrest
termination_by structural ms

end
end Build

/-- **Building undoes taking the tokens.** -/
theorem Document.ofTokens?_tokens (d : Document) : Document.ofTokens? d.tokens = some d := by
  rw [Document.ofTokens?, Build.initial, Build.run_tokens d [] (.inl rfl)]
  rfl

/-! ## The document of a value -/

mutual

/-- The document that a value is printed as. -/
def Value.document : Value → Document
  | .null => .scalar .null
  | .bool b => .scalar (.bool b)
  | .number (.integer n) => .scalar (.numeral (.ofInt n))
  | .number (.double x) => .scalar (.numeral (.ofDouble x))
  | .string s => .scalar (.string (some s))
  | .array items => .array (Value.documents items)
  | .object members => .object (Value.memberDocuments members)
termination_by structural v => v

def Value.documents : List Value → List Document
  | [] => []
  | v :: vs => v.document :: Value.documents vs
termination_by structural vs => vs

def Value.memberDocuments : List (String × Value) → List (Option String × Document)
  | [] => []
  | (k, v) :: ms => (some k, v.document) :: Value.memberDocuments ms
termination_by structural ms => ms

end

namespace Value

open Json.Scan

/-- A member of an object: its name, a colon and its value. -/
theorem reads_member {k : String} {v : List Char} {tokens : List Token} (h : Reads v tokens) :
    Reads (quote k ++ ':' :: v) (.scalar (.string (some k)) :: .colon :: tokens) :=
  (reads_quote k).append (Continues.colon h)

theorem reads_writeDouble (x : Binary64) :
    Reads (writeDouble x) [.scalar (.numeral (.ofDouble x))] := by
  rw [← Numeral.text_ofDouble]
  exact reads_spelled (Numeral.wellFormed_ofDouble x) (Numeral.spelled_text _)

mutual

/-- **A printed value is read as the tokens of its document.** -/
theorem reads_compact (v : Value) : Reads v.compact v.document.tokens := by
  cases v with
  | null => exact reads_null
  | bool b =>
    cases b with
    | true => exact reads_true
    | false => exact reads_false
  | number n =>
    cases n with
    | integer n => exact reads_writeInt n
    | double x => exact reads_writeDouble x
  | string s => exact reads_quote s
  | array items =>
    cases items with
    | nil => exact (Continues.openArray Continues.closeArray.reads).reads
    | cons v vs =>
      have hitems := (reads_compact v).append (continues_compactRestItems vs)
      exact (Continues.openArray (hitems.append Continues.closeArray)).reads
  | object members =>
    cases members with
    | nil => exact (Continues.openObject Continues.closeObject.reads).reads
    | cons m ms =>
      obtain ⟨k, v⟩ := m
      have hmembers := reads_member (k := k)
        ((reads_compact v).append (continues_compactRestMembers ms))
      exact (Continues.openObject (hmembers.append Continues.closeObject)).reads
termination_by structural v

theorem continues_compactRestItems (vs : List Value) :
    Continues (compactRestItems vs) (Document.restItemTokens (documents vs)) := by
  cases vs with
  | nil => exact Continues.nil
  | cons v vs =>
    exact Continues.comma
      ((reads_compact v).append (continues_compactRestItems vs))
termination_by structural vs

theorem continues_compactRestMembers (ms : List (String × Value)) :
    Continues (compactRestMembers ms) (Document.restMemberTokens (memberDocuments ms)) := by
  cases ms with
  | nil => exact Continues.nil
  | cons m ms =>
    obtain ⟨k, v⟩ := m
    exact Continues.comma
      (reads_member ((reads_compact v).append (continues_compactRestMembers ms)))
termination_by structural ms

end
end Value

/-- **The text of a printed value is read as its document.** -/
theorem Document.read?_compact (v : Value) :
    Document.read? (v.compact.map some) = some v.document := by
  rw [Document.read?, v.reads_compact.scan?_eq, Option.bind_some, Document.ofTokens?_tokens]

end ContentSearch.Json
