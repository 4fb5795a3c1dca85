import AccessRights.Index.Tally
import AccessRights.Metadata.Basic
import AccessRights.Text.Lowercase

/-!
# Terms

A term is one fact about the structure of a document, in a form that a search index can
hold.  `terms` derives those of a document in a fixed order: facts about discovery,
about the grants for reading the object, about files, and then about the profile of the
object and the statistics of the files.

A term that carries a text from the document is written with a fixed beginning and the
text after it (`Term.render`).  The name of a group is in lower case.
-/

namespace AccessRights.Index

/-- A fact about a document. -/
inductive Term
  /-- Discovery is expressly granted to nobody. -/
  | noneDiscover
  /-- Discovery is granted to the world without a rule. -/
  | worldDiscover
  /-- A group may read the object. -/
  | hasGroupRights
  /-- Something in the machines for reading the object has a rule. -/
  | hasRule
  /-- The stanford group may read the object. -/
  | stanfordGroup
  /-- It may so under a rule. -/
  | stanfordGroupWithRule
  /-- Another group may read the object. -/
  | group (name : String)
  /-- The object may be read at some place. -/
  | location
  /-- Comes with every `location`. -/
  | locationWithRule
  /-- Some agent may read the object. -/
  | agent
  /-- Comes with every `agent`. -/
  | agentWithRule
  /-- The object is lent. -/
  | lending
  /-- Some file may expressly be read by nobody. -/
  | noneReadFile
  /-- The object may expressly be read by nobody. -/
  | noneRead
  /-- The world may read the object. -/
  | worldRead
  /-- It may so under this rule. -/
  | worldRule (rule : String)
  /-- What stands in the machines for reading the object. -/
  | profile (tally : Tally)
  /-- Some block for reading names files. -/
  | hasFileRights
  /-- The number of machines in such blocks. -/
  | fileMachines (count : Nat)
  /-- Some element of this name stands in these machines. -/
  | fileHas (element : String)
  /-- The number of elements of this name in these machines. -/
  | fileCount (element : String) (count : Nat)
  deriving DecidableEq

/-- A term in writing. -/
def Term.render : Term → String
  | noneDiscover => "none_discover"
  | worldDiscover => "world_discover"
  | hasGroupRights => "has_group_rights"
  | hasRule => "has_rule"
  | stanfordGroup => "group|stanford"
  | stanfordGroupWithRule => "group|stanford_with_rule"
  | group name => "group|" ++ name
  | location => "location"
  | locationWithRule => "location_with_rule"
  | agent => "agent"
  | agentWithRule => "agent_with_rule"
  | lending => "cdl_none"
  | noneReadFile => "none_read_file"
  | noneRead => "none_read"
  | worldRead => "world_read"
  | worldRule rule => "world|" ++ rule
  | profile tally => "profile:" ++ tally.render
  | hasFileRights => "has_file_rights"
  | fileMachines count => s!"file_rights_count|{count}"
  | fileHas element => "file_has_" ++ element
  | fileCount element count => s!"file_rights_for_{element}|{count}"

/-- The terms of a list, provided that a condition holds. -/
def provided (condition : Bool) (terms : List Term) : List Term :=
  if condition then terms else []

/-- Some grant has this name. -/
def hasGrant (name : String) (grants : List Grant) : Bool :=
  grants.any (·.name == name)

/-- The terms about discovery. -/
def discoveryTerms (grants : List Grant) : List Term :=
  provided (hasGrant Vocabulary.none grants) [.noneDiscover] ++
  provided (grants.any fun grant => grant.name == Vocabulary.world && grant.rule.isNone)
    [.worldDiscover]

/-- The terms about the groups that may read the object.  If the stanford group is among
them it alone is named, and otherwise the first group is. -/
def groupTerms (grants : List Grant) : List Term :=
  match stanfordGrant? grants, firstGrant? Vocabulary.group grants with
  | some grant, _ => .stanfordGroup :: provided grant.rule.isSome [.stanfordGroupWithRule]
  | none, some grant => [.group (Text.lowercase grant.text)]
  | none, none => []

/-- The terms about whom the object is granted to for reading. -/
def readingTerms (machines : List Machine) (grants : List Grant) : List Term :=
  provided (hasGrant Vocabulary.group grants) [.hasGroupRights] ++
  provided (machines.any (·.hasRule)) [.hasRule] ++
  groupTerms grants ++
  provided (hasGrant Vocabulary.location grants) [.location, .locationWithRule] ++
  provided (hasGrant Vocabulary.agent grants) [.agent, .agentWithRule] ++
  provided (hasGrant Vocabulary.lending grants) [.lending]

/-- The terms about the world as a reader of the object. -/
def worldTerms (grants : List Grant) : List Term :=
  if hasGrant Vocabulary.none grants then
    [.noneRead]
  else
    match firstGrant? Vocabulary.world grants with
    | some grant => .worldRead :: grant.rule.toList.map .worldRule
    | none => []

/-- The names of the elements of a list of grants, counted. -/
def tallyOf (grants : List Grant) : Tally :=
  .ofNames (grants.map (·.name))

/-- The profile of the object, unless it is empty. -/
def profileTerms (grants : List Grant) : List Term :=
  let tally := tallyOf grants
  provided (!tally.isEmpty) [.profile tally]

/-- The statistics of what files are granted. -/
def fileTerms (blocks : List Block) : List Term :=
  let machines := blocks.flatMap (·.machines)
  let tally := tallyOf (machines.flatMap (·.grants))
  provided (!blocks.isEmpty)
    (.hasFileRights :: .fileMachines machines.length ::
      tally.entries.flatMap fun entry => [.fileHas entry.1, .fileCount entry.1 entry.2])

/-- The terms of a document. -/
def terms (metadata : Metadata) : List Term :=
  let reading := metadata.grantsOf .read .object
  discoveryTerms (metadata.grantsOf .discover .object) ++
  readingTerms (metadata.machinesOf .read .object) reading ++
  provided (hasGrant Vocabulary.none (metadata.grantsOf .read .files)) [.noneReadFile] ++
  worldTerms reading ++
  profileTerms reading ++
  fileTerms (metadata.blocksOf .read .files)

end AccessRights.Index
