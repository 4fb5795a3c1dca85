import AccessRights.Text.Contains

/-!
# Vocabulary

The names of elements, attributes and values that give a rights document its meaning.
Everything else in a document is ignored.
-/

namespace AccessRights

namespace Vocabulary

/-- The element that holds all access blocks. -/
def rightsMetadata : String := "rightsMetadata"

/-- An access block; its `type` says what it grants. -/
def access : String := "access"

/-- Names a file to which an access block is limited. -/
def file : String := "file"

/-- Holds the grants of an access block. -/
def machine : String := "machine"

/-- A grant to everybody. -/
def world : String := "world"

/-- A grant to a named group. -/
def group : String := "group"

/-- A grant to a named agent, as a rule an application. -/
def agent : String := "agent"

/-- A grant to a place. -/
def location : String := "location"

/-- The express absence of a grant. -/
def none : String := "none"

/-- Controlled digital lending. -/
def lending : String := "cdl"

/-- The date until which reading is held back. -/
def releaseDate : String := "embargoReleaseDate"

/-- The attribute that says what an access block grants. -/
def type : String := "type"

/-- The attribute that qualifies a grant. -/
def rule : String := "rule"

/-- The one group that access questions are about. -/
def stanford : String := "stanford"

/-- The rule that withholds downloads from what is granted. -/
def noDownload : String := "no-download"

end Vocabulary

/-- What an access block grants. -/
inductive AccessKind
  /-- That the object can be found. -/
  | discover
  /-- That its content can be had. -/
  | read
  deriving DecidableEq

/-- The value of the `type` attribute for a kind of access. -/
def AccessKind.name : AccessKind → String
  | discover => "discover"
  | read => "read"

/-- The kind of access that a value of the `type` attribute names. -/
def AccessKind.ofName? (name : String) : Option AccessKind :=
  if name = AccessKind.discover.name then some discover
  else if name = AccessKind.read.name then some read
  else none

@[simp] theorem AccessKind.ofName?_name (kind : AccessKind) :
    AccessKind.ofName? kind.name = some kind := by
  cases kind <;> rfl

theorem AccessKind.ofName?_eq_some_iff {name : String} {kind : AccessKind} :
    AccessKind.ofName? name = some kind ↔ name = kind.name := by
  constructor
  · intro h
    unfold ofName? at h
    split at h
    · next heq => cases h; exact heq
    · split at h
      · next heq => cases h; exact heq
      · cases h
  · rintro rfl
    exact ofName?_name kind

/-- The text of a group element means the stanford group: it holds that word, letter
case in the ASCII range not counted. -/
def isStanfordGroup (text : String) : Bool :=
  Text.containsInfix Vocabulary.stanford.toList (text.toList.map Char.toLower)

end AccessRights
