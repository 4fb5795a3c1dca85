import AccessRights.Proofs.ElementTrees

/-!
# Access blocks by recursion over a document

Access blocks are the access elements right inside rights elements, wherever these stand.
To tell the blocks of two documents apart that differ in one place it takes a description
that follows the tree.  `Content.blockNodesFrom` is that description: it walks through
some content and needs to know only whether that content is right inside a rights
element.  `Document.accessBlocks_eq` says that it finds the same blocks in the same
order.

`Content.blockElements` is the same walk without numbers.  What is said about rights in a
document depends on it, and on whether there is a rights element at all, and on nothing
else (`Document.metadata_eq`).
-/

namespace AccessRights

namespace Content

/-- The access blocks in some content, at any depth, numbered from `k`.  `inRights` says
that the content is right inside a rights element. -/
def blockNodesFrom (k : Nat) (inRights : Bool) : Content → List Node
  | nil => []
  | text _ rest => rest.blockNodesFrom k inRights
  | element name attributes inner rest =>
    (if inRights ∧ name = Vocabulary.access then [⟨k, name, attributes, inner⟩] else []) ++
      (inner.blockNodesFrom (k + 1) (name = Vocabulary.rightsMetadata) ++
        rest.blockNodesFrom (k + inner.size + 1) inRights)

/-- The access blocks in some content as elements. -/
def blockElements (inRights : Bool) : Content → List Element
  | nil => []
  | text _ rest => rest.blockElements inRights
  | element name attributes inner rest =>
    (if inRights ∧ name = Vocabulary.access then [⟨name, attributes, inner⟩] else []) ++
      (inner.blockElements (name = Vocabulary.rightsMetadata) ++ rest.blockElements inRights)

theorem map_element_blockNodesFrom (k : Nat) (inRights : Bool) (content : Content) :
    (content.blockNodesFrom k inRights).map Node.element = content.blockElements inRights := by
  induction content generalizing k inRights with
  | nil => rfl
  | text value rest ih => exact ih k inRights
  | element name attributes inner rest ihinner ihrest =>
    rw [blockNodesFrom, blockElements, List.map_append, List.map_append, ihinner, ihrest]
    split <;> rfl

/-- Each element at the top has its blocks in its own content, and may be one itself. -/
theorem blockElements_eq_flatMap (inRights : Bool) (content : Content) :
    content.blockElements inRights =
      content.topElements.flatMap fun element =>
        (if inRights ∧ element.name = Vocabulary.access then [element] else []) ++
          element.content.blockElements (element.name = Vocabulary.rightsMetadata) := by
  induction content with
  | nil => rfl
  | text value rest ih => exact ih
  | element name attributes inner rest _ ihrest =>
    rw [blockElements, topElements, List.flatMap_cons, List.append_assoc, ihrest]

theorem blockNodesFrom_sublist (k : Nat) (inRights : Bool) (content : Content) :
    (content.blockNodesFrom k inRights).Sublist (content.nodesFrom k) := by
  induction content generalizing k inRights with
  | nil => exact List.Sublist.refl _
  | text value rest ih => exact ih k inRights
  | element name attributes inner rest ihinner ihrest =>
    have hbelow := (ihinner (k + 1) (name = Vocabulary.rightsMetadata)).append
      (ihrest (k + inner.size + 1) inRights)
    rw [blockNodesFrom, nodesFrom]
    split
    · exact List.Sublist.cons_cons _ hbelow
    · exact List.Sublist.cons _ hbelow

/-- **The walk finds the access elements right inside rights elements.** -/
theorem mem_blockNodesFrom_iff {k : Nat} {inRights : Bool} {content : Content} {node : Node} :
    node ∈ content.blockNodesFrom k inRights ↔
      node.name = Vocabulary.access ∧
        ((inRights = true ∧ node ∈ content.elementsFrom k) ∨
          ∃ rights ∈ content.nodesFrom k,
            rights.name = Vocabulary.rightsMetadata ∧ node ∈ rights.children) := by
  induction content generalizing k inRights with
  | nil => simp [blockNodesFrom, elementsFrom, nodesFrom]
  | text value rest ih => exact ih
  | element name attributes inner rest ihinner ihrest =>
    have hchildren : (⟨k, name, attributes, inner⟩ : Node).children =
        inner.elementsFrom (k + 1) := rfl
    have hhere : node ∈ (if inRights ∧ name = Vocabulary.access then
        [(⟨k, name, attributes, inner⟩ : Node)] else []) ↔
        inRights = true ∧ node.name = Vocabulary.access ∧ node = ⟨k, name, attributes, inner⟩ := by
      split
      · next h =>
        rw [List.mem_singleton]
        constructor
        · rintro rfl
          exact ⟨h.1, h.2, rfl⟩
        · rintro ⟨-, -, hnode⟩
          exact hnode
      · next h =>
        refine iff_of_false List.not_mem_nil ?_
        rintro ⟨hrights, hname, rfl⟩
        exact h ⟨hrights, hname⟩
    rw [blockNodesFrom, elementsFrom, nodesFrom, List.mem_append, List.mem_append, hhere, ihinner,
      ihrest]
    simp only [List.mem_cons, List.mem_append, decide_eq_true_eq, or_and_right, exists_or,
      exists_eq_left, hchildren]
    grind

end Content

namespace Document

variable (document : Document)

/-- **The access blocks are those that a walk through the document finds**, in its
order. -/
theorem accessBlocks_eq : document.accessBlocks = document.content.blockNodesFrom 1 false := by
  have hsublist : (document.content.blockNodesFrom 1 false).Sublist document.elements :=
    document.content.blockNodesFrom_sublist 1 false
  refine InOrder.ext (InOrder.sublist List.filter_sublist document.root.inOrder_descendants)
    (InOrder.sublist hsublist document.root.inOrder_descendants) fun node => ?_
  rw [Content.mem_blockNodesFrom_iff]
  simp only [accessBlocks, rightsElements, List.mem_filter, decide_eq_true_eq, Bool.false_eq_true,
    false_and, false_or, and_assoc]
  constructor
  · rintro ⟨-, hname, rights, hmem, hrights, hchild⟩
    exact ⟨hname, rights, hmem, hrights, hchild⟩
  · rintro ⟨hname, rights, hmem, hrights, hchild⟩
    have hbelow : node ∈ rights.descendants := rights.children_sublist.subset hchild
    exact ⟨(Content.descendants_sublist hmem).subset hbelow, hname, rights, hmem, hrights, hchild⟩

theorem map_element_accessBlocks :
    document.accessBlocks.map Node.element = document.content.blockElements false := by
  rw [accessBlocks_eq, Content.map_element_blockNodesFrom]

end Document

/-! ## What is read from blocks -/

/-- The element read as an access block, if its type has a meaning. -/
def Element.block? (element : Element) : Option Block :=
  ((element.attributes.lookup Vocabulary.type).bind AccessKind.ofName?).map element.block

/-- **Whether an element is a block, and which, is read from the element alone.** -/
theorem Node.view_block?_eq (start node : Node) :
    start.view.block? node = node.element.block? := by
  have hblock : start.view.block? node = (start.view.kind? node).map (start.toBlock node) := by
    unfold View.block? toBlock
    rw [view_files, view_machines]
  rw [hblock, funext (start.toBlock_eq node)]
  rfl

namespace Document

variable (document : Document)

/-- **All that a document says about rights** is whether it has a rights element and what
its access blocks are. -/
theorem metadata_eq :
    document.view.metadata =
      { isPresent := document.content.allElements.any fun element =>
          element.name = Vocabulary.rightsMetadata
        blocks := (document.content.blockElements false).filterMap Element.block? } := by
  have hpresent : document.view.metadata.isPresent =
      document.content.allElements.any fun element =>
        element.name = Vocabulary.rightsMetadata := by
    rw [Bool.eq_iff_iff, metadata_isPresent_eq_true_iff, ← Content.map_element_nodesFrom 1,
      List.any_map, List.any_eq_true, rightsElements, Ne, List.filter_eq_nil_iff]
    push Not
    rfl
  have hblocks : document.view.metadata.blocks =
      (document.content.blockElements false).filterMap Element.block? := by
    show document.view.blocks.filterMap document.view.block? = _
    rw [view_blocks, ← map_element_accessBlocks, List.filterMap_map]
    exact List.filterMap_congr fun node _ => document.root.view_block?_eq node
  rw [← hpresent, ← hblocks]

end Document

end AccessRights
