import AccessRights.Index.Finding
import AccessRights.Index.Term

/-!
# Labels

The one coarse label under which an object is filed.  `classify` takes it from the
findings and terms of a document by a list of rules, of which the first that applies
decides.  The labels of the last three rules come in two forms, of which the qualified
one says that some rule restricts reading.
-/

namespace AccessRights.Index

/-- A class of objects. -/
inductive Label
  /-- Cannot be found. -/
  | dark
  /-- Can be found but not read. -/
  | citation
  | lending
  | world
  | worldQualified
  /-- Can be read by groups, at places or by agents. -/
  | restricted
  | restrictedQualified
  | unknown
  | unknownQualified
  deriving DecidableEq

/-- A label in writing. -/
def Label.render : Label → String
  | dark => "dark"
  | citation => "citation"
  | lending => "controlled digital lending"
  | world => "world"
  | worldQualified => "world_qualified"
  | restricted => "access_restricted"
  | restrictedQualified => "access_restricted_qualified"
  | unknown => "UNKNOWN"
  | unknownQualified => "UNKNOWN_qualified"

/-- The label of a document with the given findings and terms. -/
def classify (findings : List Finding) (terms : List Term) : Label :=
  let qualifiedBy (plain qualified : Label) := if .hasRule ∈ terms then qualified else plain
  if .noneDiscover ∈ terms then .dark
  else if .noAccess .discover ∈ findings ∨ .noMachine .discover ∈ findings then .dark
  else if .noMachine .read ∈ findings ∨ .noneRead ∈ terms then .citation
  else if .lending ∈ terms then .lending
  else if .worldRead ∈ terms then qualifiedBy .world .worldQualified
  else if .hasGroupRights ∈ terms ∨ .location ∈ terms ∨ .agent ∈ terms then
    qualifiedBy .restricted .restrictedQualified
  else qualifiedBy .unknown .unknownQualified

end AccessRights.Index
