import AccessRights.Document.Builder
import AccessRights.Document.Node

/-!
# Documents

A document is the content read from a text.  Reading fails on malformed markup only;
tags that do not match are put right (`Content.ofTokens`).
-/

namespace AccessRights

open AccessRights.Markup

/-- What a text holds: elements at the top, in document order. -/
structure Document where
  content : Content
  deriving DecidableEq

namespace Document

/-- The document that a sequence of tokens describes. -/
def ofTokens (tokens : List Token) : Document :=
  ⟨Content.ofTokens tokens⟩

/-- Reads a document. -/
def read (text : String) : Except Malformed Document :=
  (tokens text).map ofTokens

/-- The node of the document as a whole, which has no name and no attributes. -/
def root (document : Document) : Node :=
  ⟨0, "", [], document.content⟩

/-- The number of elements. -/
def size (document : Document) : Nat :=
  document.content.size

/-- The elements in document order; the one with number `k` comes at place `k - 1`. -/
def elements (document : Document) : List Node :=
  document.root.descendants

/-- The node with a given number. -/
def node? (document : Document) (number : Nat) : Option Node :=
  (document.root :: document.elements)[number]?

/-- For every element its number and that of the node it stands right inside of. -/
def parents (document : Document) : List (Nat × Nat) :=
  (document.root :: document.elements).flatMap fun node =>
    node.children.map fun child => (child.number, node.number)

end Document

end AccessRights
