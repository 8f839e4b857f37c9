import Telemetry.Fault

/-!
# Scopes of identifiers

A scope keeps the identifiers that have been claimed in one name space, each with the source that
claimed it first.  Claiming an identifier again for the same source changes nothing; for another
source it is a collision.  A scope may take identifiers for the same that differ only in the case
of ASCII letters.
-/

namespace Telemetry

/-- An identifier and what it was made from. -/
structure Claim where
  identifier : String
  source : String
  deriving DecidableEq, Repr

/-- The claims that a name space has seen first, the latest at the front. -/
structure IdentifierScope where
  foldCase : Bool := false
  claims : List Claim := []
  deriving DecidableEq, Repr, Inhabited

namespace IdentifierScope

/-- What identifiers are compared by. -/
def key (scope : IdentifierScope) (identifier : String) : String :=
  if scope.foldCase then identifier.toLower else identifier

/-- The claim that an identifier collides with. -/
def holder? (scope : IdentifierScope) (identifier : String) : Option Claim :=
  scope.claims.find? fun claim => scope.key claim.identifier == scope.key identifier

/-- Claims an identifier for a source. -/
def claim (scope : IdentifierScope) (identifier source : String) : Checked IdentifierScope :=
  match scope.holder? identifier with
  | none => .ok { scope with claims := ⟨identifier, source⟩ :: scope.claims }
  | some holder =>
    if holder.source = source then .ok scope
    else .error (.duplicateIdentifier holder.identifier holder.source source)

end IdentifierScope

end Telemetry
