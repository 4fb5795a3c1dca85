import AccessRights.Document.Content

/-!
# Nodes

A node is an element together with its number.  Elements are numbered by the order of
their start tags, from one; the number zero belongs to the document itself, which is
the nameless node that holds the elements at the top.  Numbers are not stored in a
document: they follow from where an element stands, since an element with `k` elements
inside it, at any depth, is followed by the number `k + 1` further on.
-/

namespace AccessRights

/-- An element, or the document as a whole, with its number in document order. -/
structure Node where
  number : Nat
  name : String
  attributes : List (String × String)
  content : Content
  deriving DecidableEq

/-- The elements at the top of some content, numbered from `k`. -/
def Content.elementsFrom (k : Nat) : Content → List Node
  | .nil => []
  | .text _ rest => rest.elementsFrom k
  | .element name attributes inner rest =>
    ⟨k, name, attributes, inner⟩ :: rest.elementsFrom (k + inner.size + 1)

/-- The elements of some content at any depth, numbered from `k`.  An element comes
before those inside it. -/
def Content.nodesFrom (k : Nat) : Content → List Node
  | .nil => []
  | .text _ rest => rest.nodesFrom k
  | .element name attributes inner rest =>
    ⟨k, name, attributes, inner⟩ ::
      (inner.nodesFrom (k + 1) ++ rest.nodesFrom (k + inner.size + 1))

/-- Elements at any depth are numbered one after the other. -/
theorem Content.map_number_nodesFrom (k : Nat) (content : Content) :
    (content.nodesFrom k).map Node.number = List.range' k content.size := by
  induction content generalizing k with
  | nil => rfl
  | text value rest ih => exact ih k
  | element name attributes inner rest ihinner ihrest =>
    simp only [Content.nodesFrom, List.map_cons, List.map_append, ihinner, ihrest,
      Content.size_element]
    rw [List.range'_succ, ← List.range'_append]
    congr 3
    omega

namespace Node

/-- The elements right inside a node, in document order. -/
def children (node : Node) : List Node :=
  node.content.elementsFrom (node.number + 1)

/-- The elements inside a node at any depth, in document order. -/
def descendants (node : Node) : List Node :=
  node.content.nodesFrom (node.number + 1)

/-- All the text inside a node. -/
def text (node : Node) : String :=
  node.content.allText

/-- The value of an attribute; of several with one local name, the first. -/
def attribute? (node : Node) (name : String) : Option String :=
  node.attributes.lookup name

end Node

end AccessRights
