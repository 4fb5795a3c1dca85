import AccessRights.Entitlements.Basic
import AccessRights.Metadata.Basic

/-!
# Entitlements from grants

What the grants of a scope entitle to.  Of several grants to the world, to the stanford
group or by lending the first counts, whereas of several to one agent or place the last
does.  A lending grant takes its rule from the group inside it.

The two scopes differ in what is not granted.  For the object every field is set, and
says that nothing is granted (`Entitlements.ofObject`).  For files such a field is not
set (`Entitlements.ofFiles`), which leaves the answer to the object.

These definitions say what comes out of reading grants, each field on its own.  How grants
are read, step by step, is the matter of `readEntitlements`.
-/

namespace AccessRights

/-- What grants give to everybody, if anything. -/
def worldRight? (grants : List Grant) : Option Right :=
  (firstGrant? Vocabulary.world grants).map fun grant => .granting grant.rule

/-- What grants give to the stanford group, if anything. -/
def stanfordRight? (grants : List Grant) : Option Right :=
  (stanfordGrant? grants).map fun grant => .granting grant.rule

/-- What grants give by lending, if anything. -/
def lendingRight? (grants : List Grant) : Option Right :=
  (firstGrant? Vocabulary.lending grants).map fun grant => .granting grant.groupRule

/-- What the grants of one element name give, by the text of the element. -/
def rightsByText (name : String) (grants : List Grant) : NameMap Right :=
  .ofList ((grantsNamed name grants).map fun grant => (grant.text, .granting grant.rule))

/-- The map with the stanford group as its only group. -/
def stanfordOnly (right : Right) : NameMap Right :=
  NameMap.empty.insert Vocabulary.stanford right

namespace Entitlements

/-- What the grants of the object entitle to. -/
def ofObject (grants : List Grant) : Entitlements where
  world := some ((worldRight? grants).getD .denied)
  group := stanfordOnly ((stanfordRight? grants).getD .denied)
  agent := some (rightsByText Vocabulary.agent grants)
  location := some (rightsByText Vocabulary.location grants)
  lending := some ((lendingRight? grants).getD .denied)

/-- A map that counts as set only if it names somebody. -/
def unlessEmpty (rights : NameMap Right) : Option (NameMap Right) :=
  if rights.isEmpty then none else some rights

/-- What the grants of a block entitle to for the files of the block. -/
def ofFiles (grants : List Grant) : Entitlements where
  world := worldRight? grants
  group := (stanfordRight? grants).elim .empty stanfordOnly
  agent := unlessEmpty (rightsByText Vocabulary.agent grants)
  location := unlessEmpty (rightsByText Vocabulary.location grants)
  lending := lendingRight? grants

end Entitlements

namespace Metadata

/-- What the object entitles to. -/
def objectEntitlements (metadata : Metadata) : Entitlements :=
  .ofObject (metadata.grantsOf .read .object)

/-- What each file that is named entitles to: what the last block that names it says,
and nothing from the blocks before. -/
def fileEntitlements (metadata : Metadata) : NameMap Entitlements :=
  .ofList ((metadata.blocksOf .read .files).flatMap fun block =>
    block.files.map fun file => (file, .ofFiles block.grants))

end Metadata

end AccessRights
