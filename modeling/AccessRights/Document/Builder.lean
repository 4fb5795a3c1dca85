import AccessRights.Document.Content
import AccessRights.Markup.Token

/-!
# Building a document from tokens

Tokens need not be balanced, and building never fails.  The rules are those of a
recovering reader:

* an end tag closes the innermost open element of its name, and with it every element
  that was opened after that one;
* an end tag whose name no open element has is ignored;
* what is still open at the end of the tokens is closed there;
* text outside of every element means nothing and is dropped.

`Builder` is the state in between: the elements that are open, and the content read so
far of the innermost of them.  Content that is not complete is kept backwards, so that
a new item goes in front.
-/

namespace AccessRights

open AccessRights.Markup

/-- An element that is open: its name and attributes, and what stood before it in the
element around it, backwards. -/
structure OpenElement where
  name : String
  attributes : List (String × String)
  before : Content
  deriving DecidableEq

/-- The open elements, innermost first, and the content of the innermost, backwards. -/
structure Builder where
  opened : List OpenElement
  done : Content
  deriving DecidableEq

namespace Builder

/-- Nothing read. -/
def start : Builder :=
  ⟨[], .nil⟩

/-- The content of the element around `element` once that is closed, backwards. -/
def closed (element : OpenElement) (done : Content) : Content :=
  .element element.name element.attributes done.reverse element.before

/-- Closes open elements up to and including the first of the given name. -/
def closeThrough (name : String) : List OpenElement → Content → Builder
  | [], done => ⟨[], done⟩
  | element :: outer, done =>
    if element.name = name then ⟨outer, closed element done⟩
    else closeThrough name outer (closed element done)

/-- Closes everything. -/
def closeAll : List OpenElement → Content → Content
  | [], done => done.reverse
  | element :: outer, done => closeAll outer (closed element done)

/-- Takes in one token. -/
def push (builder : Builder) : Token → Builder
  | .start name attributes => ⟨⟨name, attributes, builder.done⟩ :: builder.opened, .nil⟩
  | .empty name attributes =>
    { builder with done := .element name attributes .nil builder.done }
  | .text value =>
    if builder.opened.isEmpty then builder
    else { builder with done := .text value builder.done }
  | .stop name =>
    if builder.opened.any (·.name == name) then
      closeThrough name builder.opened builder.done
    else
      builder

/-- The content of the document, everything that is open closed. -/
def finish (builder : Builder) : Content :=
  closeAll builder.opened builder.done

end Builder

/-- The content that a sequence of tokens describes. -/
def Content.ofTokens (tokens : List Token) : Content :=
  (tokens.foldl Builder.push Builder.start).finish

end AccessRights
