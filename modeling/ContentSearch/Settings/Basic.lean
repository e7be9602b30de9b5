import ContentSearch.Connection
import ContentSearch.Text.Blank
import ContentSearch.Text.Decimal

/-!
# Settings

What a user keeps for all calls: a portal, a token, and how patient the client is. Each setting may
be absent, and each is changed on its own, under a key and by a text.

A token is shown with its middle left out. A short one is shown as stars only, since its ends would
be most of it.

A change is made to settings in memory here, and it is refused only where a number is asked for and
the text is none in range. An empty portal or token can be set; it is for those who use them to take
it as absent.
-/

set_option autoImplicit false

namespace ContentSearch

structure Settings where
  portal : Option String
  token : Option String
  timeoutSecs : Option Nat
  maxRetries : Option Nat
  deriving Repr, DecidableEq

inductive SettingKey
  | portal
  | token
  | timeoutSecs
  | maxRetries
  deriving Repr, DecidableEq

namespace SettingKey

def name : SettingKey → String
  | .portal => "portal"
  | .token => "token"
  | .timeoutSecs => "client.timeout_secs"
  | .maxRetries => "client.max_retries"

/-- The keys, in the order in which they are listed to the user. -/
def all : List SettingKey := [.portal, .token, .timeoutSecs, .maxRetries]

def ofName? (s : String) : Option SettingKey := all.find? (·.name = s)

theorem ofName?_name (k : SettingKey) : ofName? k.name = some k := by cases k <;> decide

end SettingKey

namespace Settings

def unset : Settings := ⟨none, none, none, none⟩

def service (s : Settings) : Connection := ⟨s.portal, s.token.map Credential.mk⟩

/-- **Changing a setting.** A portal loses the slashes at its end; numbers must be numbers. -/
def set (s : Settings) (key : SettingKey) (value : String) : Except Text.Decimal.Fault Settings :=
  match key with
  | .portal => .ok { s with portal := some (String.ofList (Text.dropTrailing '/' value.toList)) }
  | .token => .ok { s with token := some value }
  | .timeoutSecs =>
    match Text.Decimal.read Text.Decimal.limit64 value.toList with
    | .ok n => .ok { s with timeoutSecs := some n }
    | .error e => .error e
  | .maxRetries =>
    match Text.Decimal.read Text.Decimal.limit32 value.toList with
    | .ok n => .ok { s with maxRetries := some n }
    | .error e => .error e

/-! ## Masking -/

/-- The least length of a token whose ends are shown. -/
def maskedLength : Nat := 8

/-- How much is shown of either end. -/
def shownLength : Nat := 4

/-- What is shown in place of a token: its two ends if it is long, and else its length alone. -/
def maskToken (token : String) : String :=
  let s := token.toList
  String.ofList
    (if s.length < maskedLength then List.replicate s.length '*'
    else s.take shownLength ++ ['.', '.', '.'] ++ s.drop (s.length - shownLength))

end Settings
end ContentSearch
