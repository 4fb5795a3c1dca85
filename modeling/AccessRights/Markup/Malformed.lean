/-!
# What makes a text malformed

Reading markup is forgiving about structure and strict about the markup itself.  Two
things stop it: a piece of markup that never ends or is of no known kind
(`MarkupProblem`), and an attribute that cannot be read (`AttributeProblem`).  Either
is reported with the byte position of the markup concerned; `Malformed.message` is the
only place where the wording is fixed.
-/

namespace AccessRights.Markup

/-- What is wrong with a piece of markup as a whole. -/
inductive MarkupProblem
  /-- After `<!` stands none of the characters that a known kind of markup starts with. -/
  | unknownMarkup
  | unclosedInstruction
  | unclosedComment
  | unclosedDoctype
  | unclosedCharacterData
  | unclosedTag
  /-- A document type declaration that names no document type. -/
  | unnamedDoctype
  deriving DecidableEq

/-- What is wrong with an attribute.  Offsets count bytes from the character after the
tag's `<`. -/
inductive AttributeProblem
  /-- The key is followed by something other than an equals sign. -/
  | noEqualsSign (offset : Nat)
  /-- The key at `offset` was given before, at `earlier`. -/
  | duplicate (offset earlier : Nat)
  /-- Nothing follows the equals sign. -/
  | noValue (offset : Nat)
  /-- The value does not start with a quote. -/
  | unquotedValue (offset : Nat)
  /-- The quote that opened the value does not come again. -/
  | unclosedValue (offset : Nat) (quote : Char)
  deriving DecidableEq

/-- Why a text could not be read, and where.  For an attribute the position is that of
the tag's `<`. -/
inductive Malformed
  | badMarkup (position : Nat) (problem : MarkupProblem)
  | badAttribute (position : Nat) (problem : AttributeProblem)
  deriving DecidableEq

/-- What the message says of a problem with markup. -/
def MarkupProblem.description : MarkupProblem → String
  | unknownMarkup => "syntax error: unknown or missed symbol in markup"
  | unclosedInstruction =>
    "syntax error: processing instruction or xml declaration not closed: `?>` not found before end of input"
  | unclosedComment => "syntax error: comment not closed: `-->` not found before end of input"
  | unclosedDoctype => "syntax error: DOCTYPE not closed: `>` not found before end of input"
  | unclosedCharacterData => "syntax error: CDATA not closed: `]]>` not found before end of input"
  | unclosedTag => "syntax error: tag not closed: `>` not found before end of input"
  | unnamedDoctype =>
    "ill-formed document: `<!DOCTYPE>` declaration does not contain a name of a document type"

/-- What the message says of a problem with an attribute. -/
def AttributeProblem.description : AttributeProblem → String
  | noEqualsSign offset =>
    s!"position {offset}: attribute key must be directly followed by `=` or space"
  | duplicate offset earlier =>
    s!"position {offset}: duplicated attribute, previous declaration at position {earlier}"
  | noValue offset => s!"position {offset}: `=` must be followed by an attribute value"
  | unquotedValue offset =>
    s!"position {offset}: attribute value must be enclosed in `\"` or `'`"
  | unclosedValue offset quote =>
    s!"position {offset}: missing closing quote `{quote}` in attribute value"

/-- The report of a malformed text. -/
def Malformed.message : Malformed → String
  | badMarkup position problem => s!"Malformed XML at byte {position}: {problem.description}"
  | badAttribute position problem =>
    s!"Malformed attribute at byte {position}: {problem.description}"

end AccessRights.Markup
