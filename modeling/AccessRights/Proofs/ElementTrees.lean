import AccessRights.Proofs.GrantElements

/-!
# Elements wherever they stand

The number of a node says where in a document it stands.  An `Element` is what is left
without the number: a name, attributes and content.  Nothing that evaluation reads from
a node depends on more (`Node.view_grant_eq`, `Node.view_machine_eq`, `Node.toBlock_eq`),
so that the same element gives the same grant, machine or block in any document and at
any place of it.
-/

namespace AccessRights

/-- An element by what is written, wherever it stands. -/
structure Element where
  name : String
  attributes : List (String × String)
  content : Content
  deriving DecidableEq

/-- The element of a node. -/
def Node.element (node : Node) : Element :=
  ⟨node.name, node.attributes, node.content⟩

/-! ## Elements of some content -/

namespace Content

/-- The elements at the top. -/
def topElements : Content → List Element
  | nil => []
  | text _ rest => rest.topElements
  | element name attributes inner rest => ⟨name, attributes, inner⟩ :: rest.topElements

/-- The elements at any depth, each before those inside it. -/
def allElements : Content → List Element
  | nil => []
  | text _ rest => rest.allElements
  | element name attributes inner rest =>
    ⟨name, attributes, inner⟩ :: (inner.allElements ++ rest.allElements)

/-- The elements at the top are the same without their numbers. -/
theorem map_element_elementsFrom (k : Nat) (content : Content) :
    (content.elementsFrom k).map Node.element = content.topElements := by
  induction content generalizing k with
  | nil => rfl
  | text value rest ih => exact ih k
  | element name attributes inner rest _ ihrest =>
    rw [elementsFrom, List.map_cons, ihrest]
    rfl

/-- So are those at any depth. -/
theorem map_element_nodesFrom (k : Nat) (content : Content) :
    (content.nodesFrom k).map Node.element = content.allElements := by
  induction content generalizing k with
  | nil => rfl
  | text value rest ih => exact ih k
  | element name attributes inner rest ihinner ihrest =>
    rw [nodesFrom, List.map_cons, List.map_append, ihinner, ihrest]
    rfl

/-- The elements at any depth are those at the top, each with what is inside it. -/
theorem allElements_eq_flatMap (content : Content) :
    content.allElements =
      content.topElements.flatMap fun element => element :: element.content.allElements := by
  induction content with
  | nil => rfl
  | text value rest ih => exact ih
  | element name attributes inner rest _ ihrest =>
    rw [allElements, topElements, List.flatMap_cons, List.cons_append, ihrest]

end Content

/-! ## What is read from an element -/

namespace Element

variable (element : Element)

/-- The elements right inside. -/
def children : List Element :=
  element.content.topElements

/-- The elements inside, at any depth. -/
def inside : List Element :=
  element.content.allElements

/-- The element with all that are inside it. -/
def withInside : List Element :=
  element :: element.inside

/-- The elements of a name right inside. -/
def childrenNamed (name : String) : List Element :=
  element.children.filter fun child => child.name = name

def text : String :=
  element.content.allText

def rule? : Option String :=
  element.attributes.lookup Vocabulary.rule

/-- The element read as a grant. -/
def grant : Grant where
  name := element.name
  text := element.text
  rule := element.rule?
  groupRule := (element.childrenNamed Vocabulary.group).head?.bind rule?

/-- The element read as a machine. -/
def machine : Machine where
  grants := element.children.map grant
  hasRule := element.inside.any fun inner => inner.rule?.isSome
  releaseDate := (element.inside.find? fun inner => inner.name = Vocabulary.releaseDate).map text

/-- The element read as an access block of a kind. -/
def block (kind : AccessKind) : Block where
  kind := kind
  files := (element.childrenNamed Vocabulary.file).map text
  machines := (element.childrenNamed Vocabulary.machine).map machine

/-- What is inside an element is its children, each with what is inside it. -/
theorem inside_eq_flatMap : element.inside = element.children.flatMap withInside :=
  element.content.allElements_eq_flatMap

end Element

namespace Node

variable (start node : Node)

theorem map_element_children : node.children.map element = node.element.children :=
  Content.map_element_elementsFrom _ _

theorem map_element_descendants : node.descendants.map element = node.element.inside :=
  Content.map_element_nodesFrom _ _

/-- Children of a name are told without numbers too. -/
theorem map_element_childrenNamed (name : String) :
    (node.childrenNamed name).map element = node.element.childrenNamed name := by
  unfold childrenNamed Element.childrenNamed
  rw [← map_element_children, List.filter_map]
  rfl

/-- **A grant is read from its element alone.** -/
theorem view_grant_eq : start.view.grant node = node.element.grant := by
  have hgroup : node.lendingRule? =
      (node.element.childrenNamed Vocabulary.group).head?.bind Element.rule? := by
    rw [← map_element_childrenNamed, List.head?_map, Option.bind_map]
    rfl
  calc start.view.grant node
      = ⟨node.name, node.text, node.rule?, node.lendingRule?⟩ := by
        rw [← start.view_grant_groupRule node]
        rfl
    _ = node.element.grant := by
        rw [hgroup]
        rfl

/-- Grants are read from elements, so that numbers make no difference to them. -/
theorem map_view_grant (nodes : List Node) :
    nodes.map start.view.grant = (nodes.map element).map Element.grant := by
  rw [List.map_map]
  exact List.map_congr_left fun node _ => start.view_grant_eq node

/-- **A machine is read from its element alone.** -/
theorem view_machine_eq : start.view.machine node = node.element.machine := by
  have hgrants : (start.view.machine node).grants = node.element.children.map Element.grant := by
    rw [view_machine_grants, map_view_grant, map_element_children]
  have hrule : (start.view.machine node).hasRule =
      node.element.inside.any fun inner => inner.rule?.isSome := by
    rw [view_machine_hasRule, ← map_element_descendants, List.any_map]
    rfl
  have hdate : (start.view.machine node).releaseDate =
      (node.element.inside.find? fun inner => inner.name = Vocabulary.releaseDate).map
        Element.text := by
    rw [view_machine_releaseDate, ← map_element_descendants, List.find?_map, Option.map_map]
    rfl
  calc start.view.machine node
      = ⟨(start.view.machine node).grants, (start.view.machine node).hasRule,
          (start.view.machine node).releaseDate⟩ := rfl
    _ = node.element.machine := by
        rw [hgrants, hrule, hdate]
        rfl

/-- **A block is read from its element alone.** -/
theorem toBlock_eq (kind : AccessKind) : start.toBlock node kind = node.element.block kind := by
  have hfiles : node.listedFiles =
      (node.element.childrenNamed Vocabulary.file).map Element.text := by
    unfold listedFiles
    rw [← map_element_childrenNamed, List.map_map]
    rfl
  have hmachines : (node.childrenNamed Vocabulary.machine).map start.view.machine =
      (node.element.childrenNamed Vocabulary.machine).map Element.machine := by
    rw [← map_element_childrenNamed, List.map_map]
    exact List.map_congr_left fun machine _ => start.view_machine_eq machine
  unfold toBlock Element.block
  rw [hfiles, hmachines]

end Node

end AccessRights
