import AccessRights.Document.Basic
import AccessRights.Document.Selection

/-!
# Views of a document

Evaluation needs little of a document: the node to start from, the nodes that a path
leads to, and a node's name, text and attributes.  A `View` is just that, for any type
of nodes, so that evaluation can be stated, and reasoned about, without a word on how
documents are stored.

The node to start from need not be the document: seen from an element
(`Node.view`), only what is inside the element is there to be found.
-/

namespace AccessRights

/-- What evaluation sees of a document whose nodes are of type `ν`. -/
structure View (ν : Type) where
  /-- Where paths from the top start. -/
  root : ν
  /-- The nodes that a path leads to, in document order. -/
  findAll : ν → Path → List ν
  name : ν → String
  /-- All the text inside a node. -/
  text : ν → String
  /-- The value of an attribute. -/
  attribute? : ν → String → Option String

namespace View

variable {ν : Type}

/-- The first node that a path leads to. -/
def findFirst? (view : View ν) (node : ν) (path : Path) : Option ν :=
  (view.findAll node path).head?

end View

/-- What is seen from a node. -/
def Node.view (node : Node) : View Node where
  root := node
  findAll := Node.findAll
  name := Node.name
  text := Node.text
  attribute? := Node.attribute?

/-- What is seen from the top of a document. -/
def Document.view (document : Document) : View Node :=
  document.root.view

end AccessRights
