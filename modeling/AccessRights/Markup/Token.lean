import AccessRights.Markup.Attribute
import AccessRights.Markup.Kind

/-!
# Tokens

A text is read as a sequence of tokens: start tags, empty tags, end tags and runs of
character data.  Comments, processing instructions and document type declarations
leave no token, yet they split the character data around them into separate runs,
each of which has its references resolved on its own.

`tokensFrom` alternates between character data, up to the next `<`, and one piece of
markup.  It stops at the first problem in the order of the text: a piece that is not
closed or of no known kind, or a tag with a malformed attribute.
-/

namespace AccessRights.Markup

open AccessRights.Text

/-- One token.  Names are local names, values and character data are resolved. -/
inductive Token
  | start (name : String) (attributes : List (String × String))
  | empty (name : String) (attributes : List (String × String))
  | stop (name : String)
  | text (value : String)
  deriving DecidableEq

/-- The name in a tag: everything up to the first white space. -/
def tagName (content : List Char) : List Char :=
  content.takeWhile fun c => !isMarkupSpace c

/-- Reads the attributes in the content of a tag. -/
def tagAttributes (content : List Char) : Except AttributeProblem (List (String × String)) :=
  (readAttributes (utf8Length content) []
    (content.dropWhile fun c => !isMarkupSpace c)).map attributesOf

/-- The token of a start tag, or of an empty tag if the content ends with a slash. -/
def Token.ofStartTag (content : List Char) : Except AttributeProblem Token :=
  if content.getLast? = some '/' then
    (tagAttributes content.dropLast).map
      (.empty (String.ofList (localName (tagName content.dropLast))))
  else
    (tagAttributes content).map (.start (String.ofList (localName (tagName content))))

/-- The name that an end tag closes.  White space after it does not count, unless there
is nothing else. -/
def endTagName (name : List Char) : List Char :=
  if name.all isMarkupSpace then name
  else (name.reverse.dropWhile isMarkupSpace).reverse

/-- The tokens of a piece of markup, from its kind and content.  `position` is that of
the `<`. -/
def Kind.tokens (position : Nat) (content : List Char) : Kind → Except Malformed (List Token)
  | startTag =>
    match Token.ofStartTag content with
    | .ok token => .ok [token]
    | .error problem => .error (.badAttribute position problem)
  | endTag => .ok [.stop (String.ofList (localName (endTagName (content.drop 1))))]
  | instruction =>
    if 2 ≤ content.length then .ok [] else .error (.badMarkup position .unclosedInstruction)
  | characterData =>
    if "![CDATA[".toList.isPrefixOf content then
      .ok [.text (String.ofList ((content.drop 8).dropLast.dropLast))]
    else
      .error (.badMarkup position .unclosedCharacterData)
  | comment =>
    if "!--".toList.isPrefixOf content then .ok []
    else .error (.badMarkup position .unclosedComment)
  | doctype =>
    if (content.take 8).map Char.toLower = "!doctype".toList then
      if (content.drop 8).all isMarkupSpace then
        .error (.badMarkup (position + 1 + utf8Length content) .unnamedDoctype)
      else
        .ok []
    else
      .error (.badMarkup position .unclosedDoctype)

/-- The tokens of a text that starts at `position`. -/
def tokensFrom (position : Nat) (cs : List Char) : Except Malformed (List Token) :=
  match cs with
  | [] => .ok []
  | '<' :: rest =>
    match Kind.of? rest with
    | none => .error (.badMarkup position .unknownMarkup)
    | some kind =>
      match _h : kind.split rest with
      | none => .error (.badMarkup position kind.unclosed)
      | some (content, after) => do
        let here ← kind.tokens position content
        let later ← tokensFrom (position + utf8Length content + 2) after
        pure (here ++ later)
  | c :: rest => do
    let run := c :: rest.takeWhile (· != '<')
    let later ← tokensFrom (position + utf8Length run) (rest.dropWhile (· != '<'))
    pure (.text (resolved run) :: later)
termination_by cs.length
decreasing_by
  · have := Kind.length_lt_of_split _h
    simp only [List.length_cons]
    omega
  · have := (rest.dropWhile_sublist (· != '<')).length_le
    simp only [List.length_cons]
    omega

/-- A text without the byte order mark it may start with. -/
def dropByteOrderMark : List Char → List Char
  | '\uFEFF' :: rest => rest
  | cs => cs

/-- The tokens of a text.  A byte order mark at its start is dropped, and positions
count from after it. -/
def tokens (text : String) : Except Malformed (List Token) :=
  tokensFrom 0 (dropByteOrderMark text.toList)

end AccessRights.Markup
