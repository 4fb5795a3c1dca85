import AccessRights.Metadata.Basic
import AccessRights.View

/-!
# Reading rights metadata

How a document is read for what it says about rights (`View.metadata`).  Nothing after
it looks at the document again.

Absolute paths lead to the rights elements at any depth and to the access blocks right
inside them; everything else is looked for from there.  `View.blocks`, `View.machines`
and `View.grants` say which nodes are meant, and `View.block?`, `View.machine` and
`View.grant` what is read from each.
-/

namespace AccessRights

namespace View

variable {ν : Type} (view : View ν)

/-- Leads to every rights element. -/
def metadataPath : Path :=
  ⟨[⟨.descendant, .named Vocabulary.rightsMetadata⟩]⟩

/-- Leads to every access block of every rights element. -/
def blockPath : Path :=
  ⟨[⟨.descendant, .named Vocabulary.rightsMetadata⟩, ⟨.child, .named Vocabulary.access⟩]⟩

/-- Leads to the children of one name. -/
def childPath (name : String) : Path :=
  ⟨[⟨.child, .named name⟩]⟩

/-- Leads to all children. -/
def childrenPath : Path :=
  ⟨[⟨.child, .any⟩]⟩

/-- Leads to all that is inside. -/
def descendantsPath : Path :=
  ⟨[⟨.descendant, .any⟩]⟩

/-- Leads to every release date inside. -/
def releaseDatePath : Path :=
  ⟨[⟨.descendant, .named Vocabulary.releaseDate⟩]⟩

/-- The document has a rights element. -/
def hasMetadata : Bool :=
  (view.findFirst? view.root metadataPath).isSome

/-- The access blocks of every rights element, of whatever type. -/
def blocks : List ν :=
  view.findAll view.root blockPath

/-- The kind of access that a block grants, if it is one with a meaning. -/
def kind? (block : ν) : Option AccessKind :=
  (view.attribute? block Vocabulary.type).bind AccessKind.ofName?

/-- The texts of the file elements of a block. -/
def files (block : ν) : List String :=
  (view.findAll block (childPath Vocabulary.file)).map view.text

/-- The machines of a block. -/
def machines (block : ν) : List ν :=
  view.findAll block (childPath Vocabulary.machine)

/-- The grants of a machine. -/
def grants (machine : ν) : List ν :=
  view.findAll machine childrenPath

/-- The rule of a grant. -/
def rule? (node : ν) : Option String :=
  view.attribute? node Vocabulary.rule

/-- Reads a grant. -/
def grant (node : ν) : Grant where
  name := view.name node
  text := view.text node
  rule := view.rule? node
  groupRule := (view.findFirst? node (childPath Vocabulary.group)).bind view.rule?

/-- Reads a machine. -/
def machine (node : ν) : Machine where
  grants := (view.grants node).map view.grant
  hasRule := (view.findAll node descendantsPath).any fun inner => (view.rule? inner).isSome
  releaseDate := (view.findFirst? node releaseDatePath).map view.text

/-- Reads an access block; one of a type without a meaning is left out. -/
def block? (node : ν) : Option Block :=
  (view.kind? node).map fun kind =>
    { kind, files := view.files node, machines := (view.machines node).map view.machine }

/-- Reads what a document says about rights. -/
def metadata : Metadata where
  isPresent := view.hasMetadata
  blocks := view.blocks.filterMap view.block?

end View

end AccessRights
