import ContentSearch.Text.Decimal

/-!
# Web addresses

An absolute address in its parts, and its one written form. How an address is read, and what the
parts of one that was read look like, is said in `Url.Reader`.

An address keeps no user and no password, since no request is sent with one from here, and its port
only where the scheme does not imply it. So many spellings come to one form. The fragment is kept
because messages name the whole address; `target`, which is what is asked for, leaves it out.
-/

set_option autoImplicit false

namespace ContentSearch

/-- Whom a request is sent to. -/
structure Origin where
  scheme : List Char
  /-- The host, where there is one. -/
  host : Option (List Char)
  /-- The port, where it is not the scheme's own. -/
  port : Option Nat
  deriving Repr, DecidableEq

structure Url where
  origin : Origin
  path : List Char
  query : Option (List Char)
  fragment : Option (List Char)
  deriving Repr, DecidableEq

namespace Url

/-- The port that a scheme of the web implies. -/
def defaultPort? (scheme : List Char) : Option Nat :=
  if scheme = "http".toList ∨ scheme = "ws".toList then some 80
  else if scheme = "https".toList ∨ scheme = "wss".toList then some 443
  else if scheme = "ftp".toList then some 21
  else none

def isWeb (scheme : List Char) : Bool := (defaultPort? scheme).isSome

/-- Whether requests can be sent to the address. -/
def isHttp (u : Url) : Bool :=
  u.origin.scheme = "http".toList || u.origin.scheme = "https".toList

def marked (mark : Char) : Option (List Char) → List Char
  | some s => mark :: s
  | none => []

def target (u : Url) : List Char := u.path ++ marked '?' u.query

/-- Host and port behind two slashes, where there is a host. -/
def writeHost (o : Origin) : List Char :=
  match o.host with
  | some h => '/' :: '/' :: (h ++ marked ':' (o.port.map Text.Decimal.write))
  | none => []

/-- **The written form** of an address. -/
def write (u : Url) : List Char :=
  u.origin.scheme ++ ':' :: (writeHost u.origin ++ u.target ++ marked '#' u.fragment)

end Url
end ContentSearch
