import AccessRights.Evaluation.Basic

/-!
# Questions to an evaluation

Whom an object and its files are open to.  The answers come from the entitlements of
the object and those of the files (`Evaluation.objectRight`, `Evaluation.fileRight`): a
file decides by an entitlement of its own where it has one, and otherwise the object
does.  Three questions are about the summary for the index and are refused where none
was worked out.
-/

namespace AccessRights

/-- A question that only a summary for the index can answer. -/
inductive IndexQuestion
  | summary
  | isDark
  | isCitation
  deriving DecidableEq

/-- The report where such a question is asked and no summary was worked out. -/
def IndexQuestion.refusal (question : IndexQuestion) : String :=
  let asked := match question with
    | summary => "index_summary"
    | isDark => "is_dark"
    | isCitation => "is_citation_only"
  s!"RightsAuth::{asked} can only be answered when index elements were built; construct with RightsAuth::parse_for_index or ParseConfig::for_index(true)"

namespace Evaluation

/-- What the object grants to somebody. -/
def objectRight (evaluation : Evaluation) (audience : Audience) : Right :=
  (evaluation.object.answer? audience).getD .denied

/-- What a file grants to somebody: what its own entitlements say, or else what the
object does. -/
def fileRight (evaluation : Evaluation) (file : String) (audience : Audience) : Right :=
  ((evaluation.files.get? file).bind (·.answer? audience)).getD
    (evaluation.objectRight audience)

/-- The world or the stanford group may read the object without a rule. -/
def isReadable (evaluation : Evaluation) : Bool :=
  (evaluation.objectRight .world).isUnrestricted ||
    (evaluation.objectRight .stanford).isUnrestricted

/-- The object names an agent, under whatever rule. -/
def namesAgent (evaluation : Evaluation) (agent : String) : Bool :=
  evaluation.object.agent.any (·.contains agent)

/-- The object names a place. -/
def isLocationRestricted (evaluation : Evaluation) : Bool :=
  evaluation.object.hasLocations

/-- The file or the object names a place.  The places of the object restrict every
file, even one with places of its own. -/
def isLocationRestrictedFor (evaluation : Evaluation) (file : String) : Bool :=
  (evaluation.files.get? file).any Entitlements.hasLocations || evaluation.isLocationRestricted

/-- The summary for the index, if one was worked out. -/
def summary (evaluation : Evaluation) : Except IndexQuestion Index.Summary :=
  match evaluation.index with
  | some summary => .ok summary
  | none => .error .summary

/-- The object cannot be found. -/
def isDark (evaluation : Evaluation) : Except IndexQuestion Bool :=
  match evaluation.index with
  | some summary => .ok (summary.label == .dark || summary.findings.contains .unclearDiscovery)
  | none => .error .isDark

/-- The object can be found but not read. -/
def isCitation (evaluation : Evaluation) : Except IndexQuestion Bool :=
  match evaluation.index with
  | some summary => .ok (summary.label == .citation)
  | none => .error .isCitation

end Evaluation

end AccessRights
