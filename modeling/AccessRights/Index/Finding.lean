import AccessRights.Metadata.Basic

/-!
# Findings

What is missing in a document, as far as a quick check can tell.  Findings are answers,
not errors: nothing stops because of them.  They come in a fixed order: what is missing
for discovery, what is missing for reading, and then a discovery machine that neither
opens the object to the world without a rule nor says that it is closed.
-/

namespace AccessRights.Index

/-- Something that a document lacks. -/
inductive Finding
  /-- There is no rights element. -/
  | noMetadata
  /-- There is no block of this kind for the object. -/
  | noAccess (kind : AccessKind)
  /-- No block of this kind for the object has a machine. -/
  | noMachine (kind : AccessKind)
  /-- The machines for discovery neither open the object to the world nor close it. -/
  | unclearDiscovery
  deriving DecidableEq

/-- The code of a finding. -/
def Finding.code : Finding → String
  | noMetadata => "no_rightsMetadata"
  | noAccess kind => s!"no_{kind.name}_access"
  | noMachine kind => s!"no_{kind.name}_machine"
  | unclearDiscovery => "discover_machine_unrecognized"

/-- What is missing among the object's blocks of one kind. -/
def missing (metadata : Metadata) (kind : AccessKind) : List Finding :=
  if (metadata.blocksOf kind .object).isEmpty then [.noAccess kind, .noMachine kind]
  else if (metadata.machinesOf kind .object).isEmpty then [.noMachine kind]
  else []

/-- A grant that settles whether an object can be found: to the world without a rule,
or to nobody. -/
def settlesDiscovery (grant : Grant) : Bool :=
  (grant.name == Vocabulary.world && grant.rule.isNone) || grant.name == Vocabulary.none

/-- There are machines for discovery, and no grant in them settles it. -/
def discoveryIsUnclear (metadata : Metadata) : Bool :=
  !(metadata.machinesOf .discover .object).isEmpty &&
    !(metadata.grantsOf .discover .object).any settlesDiscovery

/-- What a document lacks. -/
def findings (metadata : Metadata) : List Finding :=
  if metadata.isPresent then
    missing metadata .discover ++ missing metadata .read ++
      (if discoveryIsUnclear metadata then [.unclearDiscovery] else [])
  else
    [.noMetadata]

end AccessRights.Index
