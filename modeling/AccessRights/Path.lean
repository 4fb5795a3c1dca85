/-!
# Location paths

A path leads from a node to other nodes in steps.  Each step goes to the children or
to all the descendants of the nodes reached so far and keeps those of one name, or of
any name.  In writing, `/` goes to children and `//` to descendants, and `*` stands for
any name.

Every text is a path.  A dot at its start, which stands for the node the path sets out
from, and a single slash after that mean nothing; every further empty stretch between
slashes makes the next step one to descendants.
-/

namespace AccessRights

/-- Where a step leads. -/
inductive Axis
  | child
  | descendant
  deriving DecidableEq

/-- Which elements a step keeps. -/
inductive NameTest
  | any
  | named (name : String)
  deriving DecidableEq

/-- An element of the given name is kept. -/
def NameTest.accepts : NameTest → String → Bool
  | any, _ => true
  | named expected, name => expected == name

/-- One step of a path. -/
structure Step where
  axis : Axis
  test : NameTest
  deriving DecidableEq

/-- A path is the list of its steps; without any it stays where it is. -/
structure Path where
  steps : List Step
  deriving DecidableEq

/-- The test that a name or a star between slashes stands for. -/
def NameTest.ofSegment (segment : List Char) : NameTest :=
  if segment = ['*'] then any else named (String.ofList segment)

/-- The steps of a list of segments.  The first step that is found goes along `axis`. -/
def stepsOfSegments (axis : Axis) : List (List Char) → List Step
  | [] => []
  | [] :: segments => stepsOfSegments .descendant segments
  | segment :: segments => ⟨axis, .ofSegment segment⟩ :: stepsOfSegments .child segments

/-- A path text without the dot it may start with. -/
def dropContextDot : List Char → List Char
  | '.' :: rest => rest
  | cs => cs

/-- A path text without the slash it may start with, where no second one follows. -/
def dropRootSlash : List Char → List Char
  | '/' :: '/' :: rest => '/' :: '/' :: rest
  | '/' :: rest => rest
  | cs => cs

/-- A name test in writing. -/
def NameTest.render : NameTest → String
  | any => "*"
  | named name => name

/-- The slashes before a step in writing. -/
def Axis.render : Axis → String
  | child => "/"
  | descendant => "//"

namespace Path

/-- Reads a path.  Every text is one. -/
def parse (text : String) : Path :=
  ⟨stepsOfSegments .child ((dropRootSlash (dropContextDot text.toList)).splitOn '/')⟩

/-- The path stays where it is. -/
def isEmpty (path : Path) : Bool :=
  path.steps.isEmpty

/-- Steps in writing, each with its slashes. -/
def renderSteps (steps : List Step) : String :=
  String.join (steps.map fun step => step.axis.render ++ step.test.render)

/-- A path in writing: a first step to children needs no slash, and a path without
steps is a dot. -/
def render : Path → String
  | ⟨[]⟩ => "."
  | ⟨⟨.child, test⟩ :: steps⟩ => test.render ++ renderSteps steps
  | ⟨steps⟩ => renderSteps steps

end Path

end AccessRights
