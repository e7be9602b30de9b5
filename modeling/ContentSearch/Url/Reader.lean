import ContentSearch.Url.Host

/-!
# Reading web addresses

An absolute address is read the forgiving way that browsers read one: blanks around it do not
count, nor do tabs and line ends anywhere, and characters that have no place in their part are
escaped. What comes out is in normal form: scheme and host in small letters, no default port, no `.`
or `..` segment in the path.

Schemes of the web (`http`, `https`, `ws`, `wss`, `ftp`) must have a host and take a backslash for a
slash; for them any number of slashes may stand before the host. Other schemes have a host only
behind two slashes.
-/

set_option autoImplicit false

namespace ContentSearch.Url

/-- A character of a scheme behind its first one. -/
def isSchemeChar (c : Char) : Bool := c.isAlphanum || c = '+' || c = '-' || c = '.'

/-- The scheme in small letters, and what follows its colon. -/
def splitScheme? (s : List Char) : Option (List Char × List Char) :=
  let name := s.takeWhile isSchemeChar
  match name, s.dropWhile isSchemeChar with
  | c :: _, ':' :: r => if c.isAlpha then some (name.map Char.toLower, r) else none
  | _, _ => none

/-! ## Paths -/

def isDot (s : List Char) : Bool := s.map Char.toLower ∈ [".".toList, "%2e".toList]

/-- A segment that stands for the directory above. -/
def isDotDot (s : List Char) : Bool :=
  s.map Char.toLower ∈ ["..".toList, ".%2e".toList, "%2e.".toList, "%2e%2e".toList]

/-- The segments without dots, given those in front back to front. Dots at the end leave an empty
segment behind. -/
def resolveDots : List (List Char) → List (List Char) → List (List Char)
  | front, [] => front.reverse
  | front, [s] =>
    if isDot s then ([] :: front).reverse
    else if isDotDot s then ([] :: front.tail).reverse
    else (s :: front).reverse
  | front, s :: t :: r =>
    if isDot s then resolveDots front (t :: r)
    else if isDotDot s then resolveDots front.tail (t :: r)
    else resolveDots (s :: front) (t :: r)

/-- What parts the segments of a path. -/
def isSlash (web : Bool) (c : Char) : Bool := c = '/' || (web && c = '\\')

def rootedPath (web : Bool) (s : List Char) : List Char :=
  let segments := match s with
    | c :: r => Text.pieces (isSlash web) (if isSlash web c then r else s)
    | [] => [[]]
  (resolveDots [] segments).flatMap fun segment => '/' :: escapeWith inPath segment

/-! ## Addresses -/

/-- The query at the front of what follows a path. -/
def query? (web : Bool) (s : List Char) : Option (List Char) :=
  match s.takeWhile (· ≠ '#') with
  | '?' :: r => some (escapeWith (inQuery web) r)
  | _ => none

def fragment? (s : List Char) : Option (List Char) :=
  match s.dropWhile (· ≠ '#') with
  | _ :: r => some (escapeWith inFragment r)
  | [] => none

/-- Origin and path of an address: what stands between its scheme and its query. -/
def place? (scheme body : List Char) : Option (Origin × List Char) :=
  let web := isWeb scheme
  if web then
    let s := body.dropWhile (isSlash web)
    (origin? scheme (s.takeWhile fun c => !isSlash web c)).map fun o =>
      (o, rootedPath web (s.dropWhile fun c => !isSlash web c))
  else
    match body with
    | '/' :: '/' :: s =>
      (origin? scheme (s.takeWhile fun c => !isSlash web c)).map fun o =>
        match s.dropWhile fun c => !isSlash web c with
        | [] => (o, [])
        | tail => (o, rootedPath web tail)
    | '/' :: _ => some (⟨scheme, none, none⟩, rootedPath web body)
    | _ => some (⟨scheme, none, none⟩, escapeWith isHidden body)

/-- A character that may stand around an address without belonging to it. -/
def isPadding (c : Char) : Bool := c.toNat ≤ 0x20

/-- A character that is not looked at. -/
def isSkipped (c : Char) : Bool := c = '\t' || c = '\n' || c = '\r'

/-- **Reading an address.** -/
def parse? (text : List Char) : Option Url := do
  let s := ((text.dropWhile isPadding).reverse.dropWhile isPadding).reverse
  let (scheme, rest) ← splitScheme? (s.filter fun c => !isSkipped c)
  let isMark := fun c => c = '?' || c = '#'
  let (origin, path) ← place? scheme (rest.takeWhile fun c => !isMark c)
  let tail := rest.dropWhile fun c => !isMark c
  return { origin, path, query := query? (isWeb scheme) tail, fragment := fragment? tail }

example : (parse? " HTTP://A.example:80/x/../y z?q='#f ".toList).map write
    = some "http://a.example/y%20z?q=%27#f".toList := by decide +kernel

end ContentSearch.Url
