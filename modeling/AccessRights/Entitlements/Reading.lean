import AccessRights.Entitlements.OfGrants
import AccessRights.Index.Listing

/-!
# Reading entitlements

The grants of a scope are read once, and two things are taken from them: what they entitle
to, and, for an index, a record of whom they name and under which rules.  A record is only
kept if it is asked for (`Recording`).  It is written on the way and never looked at, so that
entitlements come out the same with it and without it.

Both scopes are read by the same steps.  They part at the end, in what a field says for which
nothing was granted (`Scope.settle`, `Scope.settleMap`).
-/

namespace AccessRights

open AccessRights.Index

/-- Reading with a record that is kept on the way, or without one. -/
abbrev Recording (α : Type) : Type :=
  StateM (Option Listing) α

/-- Writes into the record, if one is kept. -/
def record (entry : Listing → Listing) : Recording Unit :=
  modify (Option.map entry)

/-- Reads the one grant that counts, if there is one, under its own rule. -/
def readGrant (entry : Option String → Listing → Listing) :
    Option Grant → Recording (Option Right)
  | none => pure none
  | some grant => do
    record (entry grant.rule)
    pure (some (.granting grant.rule))

/-- Reads grants into a map by their texts, one after the other.  Every grant is recorded, and
of several with one text the last stays in the map. -/
def readByText (entry : String → Option String → Listing → Listing) (grants : List Grant) :
    Recording (NameMap Right) :=
  grants.foldlM (fun rights grant => do
    record (entry grant.text grant.rule)
    pure (rights.insert grant.text (.granting grant.rule))) .empty

/-- What a field says in the end.  The object denies what is not granted, and files leave it
open. -/
def Scope.settle : Scope → Option Right → Option Right
  | .object, right => some (right.getD .denied)
  | .files, right => right

/-- What a map of names says in the end.  For files it counts as set only if it names
somebody. -/
def Scope.settleMap (scope : Scope) (rights : NameMap Right) : Option (NameMap Right) :=
  if scope == .object || !rights.isEmpty then some rights else none

/-- Reads the grants of a scope.  Nothing is recorded of lending. -/
def readEntitlements (scope : Scope) (grants : List Grant) : Recording Entitlements := do
  let world ← readGrant Listing.recordWorld (firstGrant? Vocabulary.world grants)
  let stanford ← readGrant (Listing.recordGroup Vocabulary.stanford) (stanfordGrant? grants)
  let agents ← readByText Listing.recordAgent (grantsNamed Vocabulary.agent grants)
  let locations ← readByText Listing.recordLocation (grantsNamed Vocabulary.location grants)
  pure {
    world := scope.settle world
    group := (scope.settle stanford).elim .empty stanfordOnly
    agent := scope.settleMap agents
    location := scope.settleMap locations
    lending := scope.settle (lendingRight? grants) }

/-- Reads the blocks for files, each of which goes by its own grants alone.  Of several that
name a file the last decides, and all go into one record. -/
def readFiles (blocks : List Block) : Recording (NameMap Entitlements) :=
  blocks.foldlM (fun files block => do
    let entitlements ← readEntitlements .files block.grants
    pure (block.files.foldl (fun files file => files.insert file entitlements) files)) .empty

end AccessRights
