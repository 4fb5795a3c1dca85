import AccessRights.Metadata.OfView
import AccessRights.Proofs.DocumentOrder

/-!
# The elements that grants are read from

A rights document in terms of its elements alone: which of them are access blocks, which
machines and grants stand in the blocks of one kind and scope, and which block is the
last to list a file.  Only the elements of a document in their order and the children of
an element enter here; there are no paths and nothing is merged or read into records.

`Document.view_blocks`, `Document.metadata_machinesOf` and `Document.metadata_grantsOf`
say that reading a document by paths finds exactly these elements.  The first is where
document order comes in: access blocks may stand in several rights elements, one of them
even inside a block of another, and still come in the order of the document.
-/

namespace AccessRights

namespace Node

/-- The elements of a name right inside a node. -/
def childrenNamed (node : Node) (name : String) : List Node :=
  node.children.filter fun child => child.name = name

/-- The rule of an element. -/
def rule? (node : Node) : Option String :=
  node.attribute? Vocabulary.rule

/-- The rule of the first group right inside a lending grant. -/
def lendingRule? (node : Node) : Option String :=
  (node.childrenNamed Vocabulary.group).head?.bind rule?

/-- The files that an access block lists, by the texts of its file elements. -/
def listedFiles (block : Node) : List String :=
  (block.childrenNamed Vocabulary.file).map text

/-- An access block that lists a file is about files, any other about the object. -/
def blockScope (block : Node) : Scope :=
  if block.listedFiles = [] then .object else .files

/-- The grants of all machines of an access block. -/
def blockGrants (block : Node) : List Node :=
  (block.childrenNamed Vocabulary.machine).flatMap children

end Node

namespace Document

/-- The rights elements, at any depth. -/
def rightsElements (document : Document) : List Node :=
  document.elements.filter fun node => node.name = Vocabulary.rightsMetadata

/-- The access elements right inside a rights element. -/
def accessBlocks (document : Document) : List Node :=
  document.elements.filter fun node =>
    node.name = Vocabulary.access ∧ ∃ rights ∈ document.rightsElements, node ∈ rights.children

/-- The access blocks whose type names one kind of access. -/
def blocksOfKind (document : Document) (kind : AccessKind) : List Node :=
  document.accessBlocks.filter fun block =>
    block.attribute? Vocabulary.type = some kind.name

/-- The access blocks of one kind and scope. -/
def blocks (document : Document) (kind : AccessKind) (scope : Scope) : List Node :=
  (document.blocksOfKind kind).filter fun block => block.blockScope = scope

/-- The machines of all blocks of one kind and scope: the blocks in document order, and
then the machines of each. -/
def machines (document : Document) (kind : AccessKind) (scope : Scope) : List Node :=
  (document.blocks kind scope).flatMap fun block => block.childrenNamed Vocabulary.machine

/-- The grants of all blocks of one kind and scope: the elements right inside the
machines. -/
def grants (document : Document) (kind : AccessKind) (scope : Scope) : List Node :=
  (document.machines kind scope).flatMap Node.children

/-- The release dates inside the machines of all blocks for reading, of either scope. -/
def releaseDates (document : Document) : List Node :=
  ((document.blocksOfKind .read).flatMap fun block =>
    block.childrenNamed Vocabulary.machine).flatMap fun machine =>
      machine.descendants.filter fun inner => inner.name = Vocabulary.releaseDate

/-- The last block for reading that lists a file, by its exact name. -/
def lastBlockFor? (document : Document) (file : String) : Option Node :=
  ((document.blocksOfKind .read).filter fun block => file ∈ block.listedFiles).getLast?

/-- The grants of the last block that lists a file; there are none if no block does. -/
def fileGrants (document : Document) (file : String) : List Node :=
  (document.lastBlockFor? file).toList.flatMap Node.blockGrants

end Document

/-! ## What stands around a grant -/

namespace Document

variable {document : Document} {kind : AccessKind} {scope : Scope}

/-- What is granted stands in some machine. -/
theorem machines_ne_nil_of_mem_grants {grant : Node} (h : grant ∈ document.grants kind scope) :
    document.machines kind scope ≠ [] := by
  obtain ⟨machine, hmachine, -⟩ := List.mem_flatMap.mp h
  exact List.ne_nil_of_mem hmachine

/-- A machine stands in some block. -/
theorem blocks_ne_nil_of_machines (h : document.machines kind scope ≠ []) :
    document.blocks kind scope ≠ [] := by
  intro hnone
  rw [machines, hnone] at h
  exact h rfl

/-- And in some rights element, as the blocks do. -/
theorem rightsElements_ne_nil_of_machines (h : document.machines kind scope ≠ []) :
    document.rightsElements ≠ [] := by
  intro hnone
  obtain ⟨block, hblock⟩ := List.exists_mem_of_ne_nil _ (blocks_ne_nil_of_machines h)
  -- A block is there only as the child of a rights element.
  have haccess : block ∈ document.accessBlocks :=
    List.mem_of_mem_filter (List.mem_of_mem_filter hblock)
  obtain ⟨-, rights, hrights, -⟩ := of_decide_eq_true (List.mem_filter.mp haccess).2
  rw [hnone] at hrights
  cases hrights

end Document

/-! ## What paths from one element lead to -/

namespace Node

variable (start node : Node)

/-- One step to the children of a name is a filter on the children. -/
theorem select_child (name : String) :
    node.select ⟨.child, .named name⟩ = node.childrenNamed name := by
  refine List.filter_congr fun child _ => ?_
  rw [NameTest.accepts, Bool.beq_comm, beq_eq_decide]

/-- So is a path of this one step, asked of the view of a document. -/
@[simp] theorem view_findAll_childPath (name : String) :
    start.view.findAll node (View.childPath name) = node.childrenNamed name :=
  (node.findAll_step _).trans (node.select_child name)

@[simp] theorem view_machines :
    start.view.machines node = node.childrenNamed Vocabulary.machine :=
  start.view_findAll_childPath node _

@[simp] theorem view_files :
    start.view.files node = node.listedFiles :=
  congrArg (List.map text) (start.view_findAll_childPath node _)

@[simp] theorem view_grants : start.view.grants node = node.children :=
  (node.findAll_step _).trans (List.filter_true _)

/-- The path to all that is inside a node leads to its descendants. -/
@[simp] theorem view_findAll_descendantsPath :
    start.view.findAll node View.descendantsPath = node.descendants :=
  (node.findAll_step _).trans (List.filter_true _)

/-- A block is of the kind whose name its attribute has, letter by letter. -/
theorem view_kind?_eq_some_iff {kind : AccessKind} :
    start.view.kind? node = some kind ↔ node.attribute? Vocabulary.type = some kind.name := by
  unfold View.kind?
  rw [Option.bind_eq_some_iff]
  constructor
  · rintro ⟨name, hname, hkind⟩
    rw [← AccessKind.ofName?_eq_some_iff.mp hkind]
    exact hname
  · intro h
    exact ⟨kind.name, h, AccessKind.ofName?_name kind⟩

/-! ## What is read from an element -/

@[simp] theorem view_grant_name : (start.view.grant node).name = node.name := rfl

@[simp] theorem view_grant_text : (start.view.grant node).text = node.text := rfl

@[simp] theorem view_grant_rule : (start.view.grant node).rule = node.rule? := rfl

/-- Of a grant the view gives the rule of the first group right inside as well. -/
@[simp] theorem view_grant_groupRule :
    (start.view.grant node).groupRule = node.lendingRule? :=
  congrArg (fun groups : List Node => groups.head?.bind rule?)
    (start.view_findAll_childPath node _)

/-- What a machine grants is what its children grant. -/
@[simp] theorem view_machine_grants :
    (start.view.machine node).grants = node.children.map start.view.grant :=
  congrArg (List.map start.view.grant) (start.view_grants node)

/-- Rules are looked for at any depth, on the grants and inside of them. -/
@[simp] theorem view_machine_hasRule :
    (start.view.machine node).hasRule = node.descendants.any fun inner => inner.rule?.isSome :=
  congrArg (fun inner : List Node => inner.any fun node => node.rule?.isSome)
    (start.view_findAll_descendantsPath node)

/-- So are release dates, of which the first one counts. -/
@[simp] theorem view_machine_releaseDate :
    (start.view.machine node).releaseDate =
      (node.descendants.find? fun inner => inner.name = Vocabulary.releaseDate).map text := by
  have hselect : start.view.findAll node View.releaseDatePath =
      node.descendants.filter fun inner => inner.name = Vocabulary.releaseDate := by
    refine (node.findAll_step _).trans (List.filter_congr fun inner _ => ?_)
    rw [NameTest.accepts, Bool.beq_comm, beq_eq_decide]
  show (start.view.findFirst? node View.releaseDatePath).map text = _
  rw [View.findFirst?, hselect, List.head?_filter]

/-- What is read from an access block of a kind. -/
def toBlock (kind : AccessKind) : Block where
  kind := kind
  files := node.listedFiles
  machines := (node.childrenNamed Vocabulary.machine).map start.view.machine

/-- A block grants what its machines do, one machine after the other. -/
@[simp] theorem toBlock_grants (kind : AccessKind) :
    (start.toBlock node kind).grants = node.blockGrants.map start.view.grant := by
  unfold Block.grants toBlock blockGrants
  rw [List.flatMap_map, List.map_flatMap]
  simp only [view_machine_grants]

/-- A block is about files exactly if it lists one. -/
theorem toBlock_scope (kind : AccessKind) : (start.toBlock node kind).scope = node.blockScope := by
  unfold Block.scope blockScope toBlock
  simp only [List.isEmpty_iff]

/-- An access element with the name of a kind is read as a block of it. -/
theorem view_block?_of_kind {kind : AccessKind}
    (h : node.attribute? Vocabulary.type = some kind.name) :
    start.view.block? node = some (start.toBlock node kind) := by
  unfold View.block? toBlock
  rw [(start.view_kind?_eq_some_iff node).mpr h, view_files, view_machines]
  rfl

/-- Nothing else is read as a block of that kind. -/
theorem kind_of_view_block? {block : Block} (h : start.view.block? node = some block) :
    node.attribute? Vocabulary.type = some block.kind.name := by
  unfold View.block? at h
  rw [Option.map_eq_some_iff] at h
  obtain ⟨kind, hkind, rfl⟩ := h
  exact (start.view_kind?_eq_some_iff node).mp hkind

end Node

/-! ## The blocks of a document -/

namespace Document

variable (document : Document)

/-- Rights elements are what the path to them finds, at any depth. -/
theorem rightsElements_eq_findAll :
    document.view.findAll document.view.root View.metadataPath = document.rightsElements := by
  refine (document.root.findAll_step _).trans (List.filter_congr fun node _ => ?_)
  rw [NameTest.accepts, Bool.beq_comm, beq_eq_decide]

/-- There are rights metadata exactly if there is a rights element. -/
theorem metadata_isPresent_eq_true_iff :
    document.view.metadata.isPresent = true ↔ document.rightsElements ≠ [] := by
  unfold View.metadata View.hasMetadata View.findFirst?
  rw [rightsElements_eq_findAll, List.isSome_head?]

/-- **Reading finds the access blocks in document order.** -/
theorem view_blocks : document.view.blocks = document.accessBlocks := by
  have hinside : ∀ node ∈ document.rightsElements,
      node ∈ document.root :: document.root.descendants :=
    fun node hnode => List.mem_cons_of_mem _ (List.mem_of_mem_filter hnode)
  calc document.view.blocks
      = Node.selectAll document.rightsElements ⟨.child, .named Vocabulary.access⟩ := by
        rw [← rightsElements_eq_findAll]
        exact document.root.findAll_steps_append [_] _
    _ = document.accessBlocks := by
        rw [Node.selectAll_eq_filter hinside]
        refine List.filter_congr fun node _ => ?_
        simp only [Node.select_child, Node.childrenNamed, List.mem_filter, decide_eq_true_eq,
          decide_eq_decide]
        constructor
        · rintro ⟨rights, hrights, hchild, hname⟩
          exact ⟨hname, rights, hrights, hchild⟩
        · rintro ⟨hname, rights, hrights, hchild⟩
          exact ⟨rights, hrights, hchild, hname⟩

/-! ## What a document is read into -/

/-- The blocks of a kind are read from the access elements of that kind, in their order. -/
theorem metadata_filter_kind (kind : AccessKind) :
    document.view.metadata.blocks.filter (·.kind == kind) =
      (document.blocksOfKind kind).map fun block => document.root.toBlock block kind := by
  unfold View.metadata blocksOfKind
  rw [view_blocks, List.filter_filterMap, ← List.filterMap_eq_map', List.filterMap_filter]
  refine List.filterMap_congr fun node _ => ?_
  -- A block of another type is left out on both sides, even if it is read as one.
  by_cases h : node.attribute? Vocabulary.type = some kind.name
  · have hblock : document.view.block? node = _ := document.root.view_block?_of_kind node h
    rw [hblock, Option.filter_some, if_pos (decide_eq_true h)]
    exact if_pos BEq.rfl
  · rw [if_neg (by simpa using h), Option.filter_eq_none_iff]
    intro block hblock hsame
    have hkind : block.kind = kind := eq_of_beq hsame
    exact h (hkind ▸ document.root.kind_of_view_block? node hblock)

/-- **The blocks of a kind and a scope** are read from the access elements that are of that kind
and have that scope. -/
theorem metadata_blocksOf (kind : AccessKind) (scope : Scope) :
    document.view.metadata.blocksOf kind scope =
      (document.blocks kind scope).map fun block => document.root.toBlock block kind := by
  have hscope : document.view.metadata.blocksOf kind scope =
      (document.view.metadata.blocks.filter (·.kind == kind)).filter (·.scope == scope) := by
    rw [List.filter_filter]
    exact List.filter_congr fun block _ => Bool.and_comm _ _
  rw [hscope, metadata_filter_kind, List.filter_map]
  refine congrArg (List.map _) (List.filter_congr fun block _ => ?_)
  rw [Function.comp_apply, Node.toBlock_scope, beq_eq_decide]

/-- **The machines that count are those of the document's access blocks.** -/
theorem metadata_machinesOf (kind : AccessKind) (scope : Scope) :
    document.view.metadata.machinesOf kind scope =
      (document.machines kind scope).map document.view.machine := by
  unfold Metadata.machinesOf machines
  rw [metadata_blocksOf, List.flatMap_map, List.map_flatMap]
  rfl

/-- **The grants that count are the elements right inside these machines.** -/
theorem metadata_grantsOf (kind : AccessKind) (scope : Scope) :
    document.view.metadata.grantsOf kind scope =
      (document.grants kind scope).map document.view.grant := by
  unfold Metadata.grantsOf grants
  rw [metadata_machinesOf, List.flatMap_map, List.map_flatMap]
  exact congrArg (List.flatMap · _) (funext document.root.view_machine_grants)

/-- Something is said of a grant that is read exactly if it is said of one that is
written. -/
theorem exists_mem_grantsOf_iff {document : Document} {kind : AccessKind} {scope : Scope}
    {p : Grant → Prop} :
    (∃ grant ∈ document.view.metadata.grantsOf kind scope, p grant) ↔
      ∃ node ∈ document.grants kind scope, p (document.view.grant node) := by
  rw [metadata_grantsOf]
  constructor
  · rintro ⟨_, hgrant, h⟩
    obtain ⟨node, hnode, rfl⟩ := List.mem_map.mp hgrant
    exact ⟨node, hnode, h⟩
  · rintro ⟨node, hnode, h⟩
    exact ⟨_, List.mem_map_of_mem hnode, h⟩

/-- **The release date that counts is the first one** inside a machine for reading. -/
theorem metadata_releaseDate? :
    document.view.metadata.releaseDate? = document.releaseDates.head?.map Node.text := by
  have hmachines : (document.view.metadata.blocks.filter (·.kind == .read)).flatMap (·.machines) =
      ((document.blocksOfKind .read).flatMap fun block =>
        block.childrenNamed Vocabulary.machine).map document.view.machine := by
    rw [metadata_filter_kind, List.flatMap_map, List.map_flatMap]
    rfl
  unfold Metadata.releaseDate? releaseDates
  rw [hmachines, List.findSome?_map, ← List.head?_map, List.map_flatMap, List.head?_flatMap]
  refine congrArg (List.findSome? · _) (funext fun machine => ?_)
  rw [List.head?_map, List.head?_filter]
  exact document.root.view_machine_releaseDate machine

/-- A document without a rights element has no access blocks, and nothing is read from
it. -/
theorem metadata_blocks_eq_nil (h : document.rightsElements = []) :
    document.view.metadata.blocks = [] := by
  have hnone : document.accessBlocks = [] := by
    unfold accessBlocks
    rw [h]
    simp
  show document.view.blocks.filterMap document.view.block? = []
  rw [view_blocks, hnone, List.filterMap_nil]

/-- Without rights metadata there are no blocks. -/
theorem metadata_blocks_of_absent (h : document.view.metadata.isPresent = false) :
    document.view.metadata.blocks = [] := by
  refine document.metadata_blocks_eq_nil (not_not.mp fun hne => ?_)
  rw [document.metadata_isPresent_eq_true_iff.mpr hne] at h
  cases h

end Document

end AccessRights
