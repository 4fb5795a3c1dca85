import AccessRights.Metadata.Basic

/-!
# Listings

Who is named by the grants of one scope, and under which rules.  What counts for a scope
is what its entitlements are read from: the first grant to the world, the first to the
stanford group, and all grants to agents and places.  A `Listing` holds them in document
order; the lists of bare names and those of names with rules are kept side by side, since
a name may come with several rules.

A listing is written while grants are read, one entry after the other
(`Listing.recordWorld` and its like), and repeats are left out at the end
(`Listing.withoutRepeats`).  `Listing.ofGrants` says in one go what comes of that.
-/

namespace AccessRights.Index

/-- A name and the rule it is granted under. -/
structure NamedRule where
  name : String
  rule : Option String
  deriving DecidableEq

/-- The grants of one scope, sorted by whom they are to. -/
structure Listing where
  groups : List String
  locations : List String
  agents : List String
  worldRules : List (Option String)
  groupRules : List NamedRule
  locationRules : List NamedRule
  agentRules : List NamedRule
  deriving DecidableEq

/-- The rule of the first grant to the world. -/
def recordedWorld (grants : List Grant) : List (Option String) :=
  (firstGrant? Vocabulary.world grants).toList.map (·.rule)

/-- The stanford group with the rule of the first grant to it. -/
def recordedGroups (grants : List Grant) : List NamedRule :=
  (stanfordGrant? grants).toList.map fun grant => ⟨Vocabulary.stanford, grant.rule⟩

/-- The texts and rules of all grants of a name. -/
def recordedNames (name : String) (grants : List Grant) : List NamedRule :=
  (grantsNamed name grants).map fun grant => ⟨grant.text, grant.rule⟩

namespace Listing

/-- Nothing listed. -/
def empty : Listing :=
  ⟨[], [], [], [], [], [], []⟩

/-- Writes down a grant to the world. -/
def recordWorld (rule : Option String) (listing : Listing) : Listing :=
  { listing with worldRules := listing.worldRules ++ [rule] }

/-- Writes down a grant to a group. -/
def recordGroup (name : String) (rule : Option String) (listing : Listing) : Listing :=
  { listing with
    groups := listing.groups ++ [name]
    groupRules := listing.groupRules ++ [⟨name, rule⟩] }

/-- Writes down a grant to a place. -/
def recordLocation (name : String) (rule : Option String) (listing : Listing) : Listing :=
  { listing with
    locations := listing.locations ++ [name]
    locationRules := listing.locationRules ++ [⟨name, rule⟩] }

/-- Writes down a grant to an agent. -/
def recordAgent (name : String) (rule : Option String) (listing : Listing) : Listing :=
  { listing with
    agents := listing.agents ++ [name]
    agentRules := listing.agentRules ++ [⟨name, rule⟩] }

/-- The listing with repeats left out after the first of each, list by list. -/
def withoutRepeats (listing : Listing) : Listing where
  groups := listing.groups.eraseDups
  locations := listing.locations.eraseDups
  agents := listing.agents.eraseDups
  worldRules := listing.worldRules.eraseDups
  groupRules := listing.groupRules.eraseDups
  locationRules := listing.locationRules.eraseDups
  agentRules := listing.agentRules.eraseDups

/-- The listing of what was recorded, repeats left out after the first of each. -/
def ofRecords (world : List (Option String)) (groups locations agents : List NamedRule) :
    Listing where
  groups := (groups.map (·.name)).eraseDups
  locations := (locations.map (·.name)).eraseDups
  agents := (agents.map (·.name)).eraseDups
  worldRules := world.eraseDups
  groupRules := groups.eraseDups
  locationRules := locations.eraseDups
  agentRules := agents.eraseDups

/-- The listing of several lists of grants, each of which is read on its own. -/
def ofGrants (scopes : List (List Grant)) : Listing :=
  ofRecords (scopes.flatMap recordedWorld) (scopes.flatMap recordedGroups)
    (scopes.flatMap (recordedNames Vocabulary.location))
    (scopes.flatMap (recordedNames Vocabulary.agent))

end Listing

end AccessRights.Index
