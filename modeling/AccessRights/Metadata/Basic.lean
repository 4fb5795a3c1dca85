import AccessRights.Vocabulary

/-!
# Rights metadata

What a document says about rights, and all that evaluation takes from it: the access
blocks with their files, machines and grants, in document order.

Blocks are limited to the object or to files (`Scope`), by whether they name a file at
all.  What stands in several blocks of one kind and scope is pooled
(`Metadata.machinesOf`, `Metadata.grantsOf`): it makes no difference how grants are
spread over machines, blocks and rights elements, only in which order they come.
-/

namespace AccessRights

/-- A grant: an element right inside a machine. -/
structure Grant where
  name : String
  text : String
  rule : Option String
  /-- The rule of the first group inside the element. -/
  groupRule : Option String
  deriving DecidableEq

/-- The grants of an access block. -/
structure Machine where
  grants : List Grant
  /-- Some element inside the machine, at any depth, has a rule. -/
  hasRule : Bool
  /-- The text of the first release date inside the machine, at any depth. -/
  releaseDate : Option String
  deriving DecidableEq

/-- An access block. -/
structure Block where
  kind : AccessKind
  files : List String
  machines : List Machine
  deriving DecidableEq

/-- What a document says about rights. -/
structure Metadata where
  /-- There is a rights element at all. -/
  isPresent : Bool
  blocks : List Block
  deriving DecidableEq

/-- What an access block is about. -/
inductive Scope
  | object
  | files
  deriving DecidableEq

/-- The scope of a block: the files it names, or else the object. -/
def Block.scope (block : Block) : Scope :=
  if block.files.isEmpty then .object else .files

/-- The grants of all machines of a block. -/
def Block.grants (block : Block) : List Grant :=
  block.machines.flatMap (·.grants)

namespace Metadata

/-- The blocks of one kind and scope. -/
def blocksOf (metadata : Metadata) (kind : AccessKind) (scope : Scope) : List Block :=
  metadata.blocks.filter fun block => block.kind == kind && block.scope == scope

/-- The machines of all blocks of one kind and scope. -/
def machinesOf (metadata : Metadata) (kind : AccessKind) (scope : Scope) : List Machine :=
  (metadata.blocksOf kind scope).flatMap (·.machines)

/-- The grants of all blocks of one kind and scope. -/
def grantsOf (metadata : Metadata) (kind : AccessKind) (scope : Scope) : List Grant :=
  (metadata.machinesOf kind scope).flatMap (·.grants)

/-- The text of the release date that counts: the first one in the first machine of a
read block, of either scope, that has any. -/
def releaseDate? (metadata : Metadata) : Option String :=
  ((metadata.blocks.filter (·.kind == .read)).flatMap (·.machines)).findSome? (·.releaseDate)

end Metadata

/-- The first grant of a name. -/
def firstGrant? (name : String) (grants : List Grant) : Option Grant :=
  grants.find? (·.name == name)

/-- The first grant to the stanford group. -/
def stanfordGrant? (grants : List Grant) : Option Grant :=
  grants.find? fun grant => grant.name == Vocabulary.group && isStanfordGroup grant.text

/-- The grants of a name, in order. -/
def grantsNamed (name : String) (grants : List Grant) : List Grant :=
  grants.filter (·.name == name)

end AccessRights
