/-!
# Content

What stands between a start tag and its end tag: runs of text and elements, in the
order of the source.  Instead of a list of items that hold lists in turn, `Content` is
one inductive type in which every item carries the content that follows it, so that
recursion over a whole document is structural.
-/

namespace AccessRights

/-- Text and elements in document order. -/
inductive Content
  | nil
  /-- A run of text, then the rest. -/
  | text (value : String) (rest : Content)
  /-- An element with what it holds, then the rest. -/
  | element (name : String) (attributes : List (String × String)) (inner rest : Content)
  deriving DecidableEq

namespace Content

/-- The number of elements, at any depth. -/
def size : Content → Nat
  | nil => 0
  | text _ rest => rest.size
  | element _ _ inner rest => inner.size + rest.size + 1

/-- All the text, at any depth, in document order. -/
def allText : Content → String
  | nil => ""
  | text value rest => value ++ rest.allText
  | element _ _ inner rest => inner.allText ++ rest.allText

/-- The content in front of other content, its own items taken backwards.  What the
elements hold keeps its order. -/
def reverseOnto : Content → Content → Content
  | nil, after => after
  | text value rest, after => rest.reverseOnto (text value after)
  | element name attributes inner rest, after =>
    rest.reverseOnto (element name attributes inner after)

/-- The items in the opposite order. -/
def reverse (content : Content) : Content :=
  content.reverseOnto nil

@[simp] theorem size_nil : nil.size = 0 := rfl

@[simp] theorem size_text (value : String) (rest : Content) :
    (text value rest).size = rest.size := rfl

@[simp] theorem size_element (name : String) (attributes : List (String × String))
    (inner rest : Content) :
    (element name attributes inner rest).size = inner.size + rest.size + 1 := rfl

end Content

end AccessRights
