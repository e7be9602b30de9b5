import ContentSearch.Url.Basic
import ContentSearch.Url.Escape
import ContentSearch.Url.Numeric
import ContentSearch.Url.Punycode

/-!
# Hosts and ports

What stands between the two slashes of an address and its path: perhaps a user, which is dropped,
then a host and perhaps a port. On the web a host is a name or a number and has one written form:
its escapes are undone, its ASCII letters are small, numbers are written in the usual way, and
letters beyond ASCII are taken as they are and written in ASCII. Elsewhere a host is whatever it
says.

The two kinds of hosts are told apart by the scheme alone. A name of the web is first unescaped and
made small, and only then asked whether it is a number; so a number that is spelled with escapes is
a number. Letters beyond ASCII are not mapped to others here, whatever tables there are for it: they
keep their case and go into the ASCII form as they stand.
-/

set_option autoImplicit false

namespace ContentSearch.Url

def isForbidden (c : Char) : Bool :=
  c.toNat = 0 || c ∈ ['\t', '\n', '\r', ' ', '#', '/', ':', '<', '>', '?', '@', '[', '\\', ']',
    '^', '|']

/-- A character that no name of the web has. -/
def isForbiddenInName (c : Char) : Bool :=
  isForbidden c || c.toNat ≤ 0x1F || c.toNat = 0x7F || c = '%' || c = '\ufffd'

def writeName (name : List Char) : List Char :=
  ['.'].intercalate ((Text.pieces (· = '.') name).map Punycode.label)

def bracketed? (s : List Char) : Option (List Char) :=
  match s with
  | '[' :: r =>
    if r.getLast? = some ']' then
      (groupedHost? r.dropLast).map fun gs => '[' :: (writeGroups gs ++ [']'])
    else none
  | _ => none

def webHost? (s : List Char) : Option (List Char) :=
  if s.head? = some '[' then bracketed? s
  else
    let name := (unescape s).map Char.toLower
    if name = [] ∨ name.any isForbiddenInName then none
    else if isNumericHost name then (numericHost? name).map writeBytes
    else some (writeName name)

def otherHost? (s : List Char) : Option (List Char) :=
  if s.head? = some '[' then bracketed? s
  else if s.any isForbidden then none
  else some (escapeWith isHidden s)

/-- The port, if it is not the default; an empty one is the default. -/
def port? (scheme digits : List Char) : Option (Option Nat) :=
  match digits with
  | [] => some none
  | _ =>
    if digits.all Char.isDigit then
      let n := Nat.ofDigitChars 10 digits 0
      if 65535 < n then none
      else if defaultPort? scheme = some n then some none
      else some (some n)
    else none

/-- Splits a port off a host. A colon between brackets has no port behind it. -/
def splitPort (s : List Char) : List Char × List Char :=
  let tail := (s.reverse.takeWhile fun c => c ≠ ':' && c ≠ ']').reverse
  let front := s.take (s.length - tail.length)
  match front.getLast? with
  | some ':' => (front.dropLast, tail)
  | _ => (s, [])

/-- **Whom an address is about**, from its scheme and what stands behind the slashes. Everything up
to the last `@` identifies a user. -/
def origin? (scheme s : List Char) : Option Origin := do
  let place := (s.reverse.takeWhile (· ≠ '@')).reverse
  let (name, digits) := splitPort place
  let host ← if isWeb scheme then webHost? name else otherHost? name
  let port ← port? scheme digits
  return { scheme, host := some host, port }

end ContentSearch.Url
