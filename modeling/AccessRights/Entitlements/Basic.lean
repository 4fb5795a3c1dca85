import AccessRights.NameMap
import AccessRights.Right

/-!
# Entitlements

Entitlements are the rights of one scope, the object or a file, by whom they are given
to.  A field that is not set says nothing: for a file that means that the object is to
be asked.  `Entitlements.answer?` puts the five fields behind one question.
-/

namespace AccessRights

/-- The rights of one scope. -/
structure Entitlements where
  /-- What everybody is granted. -/
  world : Option Right
  /-- What groups are granted, by name. -/
  group : NameMap Right
  /-- What agents are granted, by name. -/
  agent : Option (NameMap Right)
  /-- What is granted at places, by name. -/
  location : Option (NameMap Right)
  /-- What is granted by controlled digital lending. -/
  lending : Option Right
  deriving DecidableEq

namespace Entitlements

/-- The right of the stanford group, if this scope sets one. -/
def stanford? (entitlements : Entitlements) : Option Right :=
  entitlements.group.get? Vocabulary.stanford

/-- Some place is named. -/
def hasLocations (entitlements : Entitlements) : Bool :=
  entitlements.location.any fun locations => !locations.isEmpty

end Entitlements

/-- Whom a question of access is about. -/
inductive Audience
  | world
  | stanford
  | agent (name : String)
  | location (name : String)
  | lending
  deriving DecidableEq

/-- The answer of one scope to a question of access, where it has one.  Agents make up
one field, and so do places: a scope that names any of them answers for all, and
grants nothing to those it does not name. -/
def Entitlements.answer? (entitlements : Entitlements) : Audience → Option Right
  | .world => entitlements.world
  | .stanford => entitlements.stanford?
  | .agent name => entitlements.agent.map fun agents => (agents.get? name).getD .denied
  | .location name =>
    entitlements.location.map fun locations => (locations.get? name).getD .denied
  | .lending => entitlements.lending

end AccessRights
