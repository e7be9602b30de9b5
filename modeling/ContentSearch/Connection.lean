/-!
# Connections

Where a query goes and what it identifies itself with. Both come from the options of a call or, in
their absence, from the service's own settings, each of the two on its own. An empty text counts as
an absent one.

Being empty is asked at each source, so an empty text in the options does not hide what the service
has. Nothing is said here of slashes at the end of an address, nor of whether it is an address at
all; that is found out when a request is made.
-/

set_option autoImplicit false

namespace ContentSearch

/-- The text, unless it is empty. -/
def nonEmpty (s : Option String) : Option String := s.filter (· ≠ "")

/-- A secret that is sent along and never shown. -/
structure Credential where
  secret : String
  deriving DecidableEq

/-- What a credential looks like where it is shown. -/
def Credential.shown (_ : Credential) : String := "Credential([REDACTED])"

structure Connection where
  endpoint : Option String
  credential : Option Credential
  deriving DecidableEq

namespace Connection

def unset : Connection := ⟨none, none⟩

/-- The credential, unless it is empty. -/
def usable (c : Option Credential) : Option Credential := c.filter (·.secret ≠ "")

/-- The connection of a call: each part from the call if it has one, else from the service. -/
def resolve (call service : Connection) : Connection :=
  { endpoint := (nonEmpty call.endpoint).orElse fun _ => nonEmpty service.endpoint
    credential := (usable call.credential).orElse fun _ => usable service.credential }

end Connection
end ContentSearch
