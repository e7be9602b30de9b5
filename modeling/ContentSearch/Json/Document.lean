import ContentSearch.Json.Token
import ContentSearch.Text.Utf8

/-!
# JSON documents

A document is a JSON text as written: numerals and strings are not yet given a value, and an object
has its members in the order and as often as they stand. Two readers look at it:

* `toValue?` gives the whole a value. Every string must spell a text, every number must fit, no
  container lies deeper than the limit, and of two members with the same name the later one stays;
* `Record` (in its own module) looks at the members that it knows and leaves the others alone.

Building a document out of tokens is a fold like the scan before it, with the open containers on a
stack, so neither recursion nor depth limits what can be built.
-/

set_option autoImplicit false

namespace ContentSearch.Json

inductive Document
  | scalar (s : Scalar)
  | array (items : List Document)
  /-- A name is `none` where its string spells no text. -/
  | object (members : List (Option String × Document))
  deriving Repr

/-! ## Building -/

namespace Build

/-- An open container, with what it holds so far back to front. -/
inductive Frame
  | array (items : List Document)
  /-- An object between two members. -/
  | object (members : List (Option String × Document))
  /-- An object with a member that has its name and not yet its value. -/
  | member (members : List (Option String × Document)) (name : Option String)
  deriving Repr

/-- What may come next. -/
inductive Expect
  | value
  | itemOrEnd
  | name
  | nameOrEnd
  | colon
  | separatorOrEnd
  /-- Nothing: the document is complete. -/
  | nothing (result : Document)
  deriving Repr

/-- The open containers, the innermost first, and what may come next. -/
structure State where
  stack : List Frame
  expect : Expect
  deriving Repr

def close (d : Document) : List Frame → Option State
  | [] => some ⟨[], .nothing d⟩
  | .array items :: stack => some ⟨.array (d :: items) :: stack, .separatorOrEnd⟩
  | .member members name :: stack => some ⟨.object ((name, d) :: members) :: stack, .separatorOrEnd⟩
  | .object _ :: _ => none

def openValue (stack : List Frame) : Token → Option State
  | .scalar s => close (.scalar s) stack
  | .openArray => some ⟨.array [] :: stack, .itemOrEnd⟩
  | .openObject => some ⟨.object [] :: stack, .nameOrEnd⟩
  | _ => none

def endArray : List Frame → Option State
  | .array items :: stack => close (.array items.reverse) stack
  | _ => none

def endObject : List Frame → Option State
  | .object members :: stack => close (.object members.reverse) stack
  | _ => none

def nameMember (name : Option String) : List Frame → Option State
  | .object members :: stack => some ⟨.member members name :: stack, .colon⟩
  | _ => none

def separate : List Frame → Option State
  | .array items :: stack => some ⟨.array items :: stack, .value⟩
  | .object members :: stack => some ⟨.object members :: stack, .name⟩
  | _ => none

def step (s : State) (t : Token) : Option State :=
  match s.expect, t with
  | .value, t => openValue s.stack t
  | .itemOrEnd, .closeArray => endArray s.stack
  | .itemOrEnd, t => openValue s.stack t
  | .name, .scalar (.string n) => nameMember n s.stack
  | .nameOrEnd, .scalar (.string n) => nameMember n s.stack
  | .nameOrEnd, .closeObject => endObject s.stack
  | .colon, .colon => some { s with expect := .value }
  | .separatorOrEnd, .comma => separate s.stack
  | .separatorOrEnd, .closeArray => endArray s.stack
  | .separatorOrEnd, .closeObject => endObject s.stack
  | _, _ => none

def finish (s : State) : Option Document :=
  match s.expect with
  | .nothing d => some d
  | _ => none

def initial : State := ⟨[], .value⟩

def run (s : State) (tokens : List Token) : Option State := tokens.foldlM step s

theorem run_append (s : State) (a b : List Token) :
    run s (a ++ b) = (run s a).bind fun t => run t b := by
  simp [run, List.foldlM_append]

end Build

def Document.ofTokens? (tokens : List Token) : Option Document :=
  (Build.run Build.initial tokens).bind Build.finish

/-- The document that a text spells, with nothing but blanks around it. -/
def Document.read? (input : List (Option Char)) : Option Document :=
  (Token.scan? input).bind Document.ofTokens?

/-! ## Values -/

/-- How deep containers may lie in each other where a value is wanted. -/
def maxDepth : Nat := 127

def Scalar.toValue? : Scalar → Option Value
  | .null => some .null
  | .bool b => some (.bool b)
  | .numeral n => n.toNumber?.map .number
  | .string s => s.map .string

mutual

/-- The value of a document whose containers lie at most `room` deep. -/
def Document.toValue? : Nat → Document → Option Value
  | _, .scalar s => s.toValue?
  | 0, _ => none
  | room + 1, .array items => (Document.toValues? room items).map .array
  | room + 1, .object members =>
    (Document.toMembers? room members).map fun ms => .object (Entries.insertAll [] ms)
termination_by structural _ d => d

def Document.toValues? : Nat → List Document → Option (List Value)
  | _, [] => some []
  | room, d :: ds =>
    match Document.toValue? room d, Document.toValues? room ds with
    | some v, some vs => some (v :: vs)
    | _, _ => none
termination_by structural _ d => d

/-- The members with their names and values, as written. -/
def Document.toMembers? : Nat → List (Option String × Document) → Option (Entries Value)
  | _, [] => some []
  | room, (name, d) :: ms =>
    match name, Document.toValue? room d, Document.toMembers? room ms with
    | some k, some v, some es => some ((k, v) :: es)
    | _, _, _ => none
termination_by structural _ d => d

end

def Value.read? (input : List (Option Char)) : Option Value :=
  (Document.read? input).bind (Document.toValue? maxDepth)

def Value.parse? (text : String) : Option Value := Value.read? (text.toList.map some)

def Document.parse? (text : String) : Option Document := Document.read? (text.toList.map some)

def Document.ofBytes? (bytes : List UInt8) : Option Document :=
  Document.read? (Text.Utf8.decode bytes)

end ContentSearch.Json
