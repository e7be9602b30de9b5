import ContentSearch.Settings.Basic
import ContentSearch.Toml.Document

/-!
# Settings as text

Settings are kept as a TOML document: the version of its layout, the portal and the token at the
top, the patience of the client in a table of its own. Reading takes any TOML document; keys that
are no setting do not matter, and a setting of another type than its own is an error.

Writing lays a document out in one fixed way. It can fail: TOML's integers have 64 bits with a
sign, and a longer timeout has no place in them.

The version is looked at last: a document that is laid out in a newer way must still have the
settings of this one, each with its type, or it is told as malformed. What is missing is unset, and
a missing version is the one that is written now.
-/

set_option autoImplicit false

namespace ContentSearch

/-- Why a text is no settings. -/
inductive SettingsFault
  /-- It is not TOML, or a setting has another type than its own. What is wrong with it is for the
  reader of documents to say, who has the text. -/
  | malformed (text : String)
  /-- It is laid out in a way that is not known yet. -/
  | tooNew (version : Nat)
  deriving Repr, DecidableEq

namespace Settings

def version : Nat := 1

/-! ## Reading -/

/-- A key that may be missing. One that is there must be read. -/
def key? {α : Type} (es : Entries Toml.Node) (name : String) (read : Toml.Node → Option α) :
    Option (Option α) :=
  match es.find? name with
  | none => some none
  | some n => (read n).map some

/-- A natural number below `limit`. -/
def asNat? (limit : Nat) (n : Toml.Node) : Option Nat :=
  match n.asInteger? with
  | some i => if 0 ≤ i ∧ i < limit then some i.toNat else none
  | none => none

/-- How patient a client is: its timeout in seconds and its retries. -/
structure Patience where
  timeoutSecs : Option Nat
  maxRetries : Option Nat
  deriving Repr, DecidableEq

/-- The patience that a table spells. A list spells one too, if it starts with both numbers. -/
def patience? : Toml.Node → Option Patience
  | .table _ es =>
    match key? es "timeout_secs" (asNat? Text.Decimal.limit64),
      key? es "max_retries" (asNat? Text.Decimal.limit32) with
    | some timeoutSecs, some maxRetries => some ⟨timeoutSecs, maxRetries⟩
    | _, _ => none
  | .array (timeout :: retries :: _) =>
    match asNat? Text.Decimal.limit64 timeout, asNat? Text.Decimal.limit32 retries with
    | some timeoutSecs, some maxRetries => some ⟨timeoutSecs, maxRetries⟩
    | _, _ => none
  | _ => none

/-- The version and the settings among the entries of a document. -/
def ofEntries? (es : Entries Toml.Node) : Option (Nat × Settings) := do
  let version ← key? es "version" (asNat? Text.Decimal.limit32)
  let portal ← key? es "portal" Toml.Node.asString?
  let token ← key? es "token" Toml.Node.asString?
  let client := (← key? es "client" patience?).getD ⟨none, none⟩
  return (version.getD Settings.version,
    { portal, token, timeoutSecs := client.timeoutSecs, maxRetries := client.maxRetries })

/-- **The settings that a text spells.** -/
def parse (text : String) : Except SettingsFault Settings :=
  match (Toml.read? text).bind ofEntries? with
  | none => .error (.malformed text)
  | some (v, s) => if version < v then .error (.tooNew v) else .ok s

/-! ## Writing -/

def line (key : String) (value : List Char) : List Char := key.toList ++ " = ".toList ++ value ++ ['\n']

def lineOf {α : Type} (key : String) (write : α → List Char) : Option α → List Char
  | some x => line key (write x)
  | none => []

def writeString (s : String) : List Char := Toml.Quoted.write s.toList

def write (s : Settings) : List Char :=
  line "version" (Text.Decimal.write version)
    ++ lineOf "portal" writeString s.portal
    ++ lineOf "token" writeString s.token
    ++ "\n[client]\n".toList
    ++ lineOf "timeout_secs" Text.Decimal.write s.timeoutSecs
    ++ lineOf "max_retries" Text.Decimal.write s.maxRetries

/-- Whether every number among the settings fits a TOML integer. -/
def isWritable (s : Settings) : Bool := s.timeoutSecs.all (· < Nat.pow 2 63)

/-- The text of settings, if there is one. -/
def write? (s : Settings) : Option (List Char) := if s.isWritable then some s.write else none

end Settings
end ContentSearch
