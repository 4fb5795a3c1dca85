import AccessRights.Evaluation.Basic
import AccessRights.Json.Reader
import AccessRights.Json.Record

/-!
# Rights, options and kinds of access in JSON

How the records of this library are read from JSON.  A right needs to say whether it is
granted, and entitlements need to have their groups; every other field may be missing
or null.  Options need nothing at all.  An instant is read from a timestamp.
-/

namespace AccessRights

open AccessRights.Json

/-- Reads a right. -/
def Right.ofValue? (value : Value) : Option Right := do
  match ← Record.fields? ["granted", "rule"] false value with
  | [granted, rule] =>
    let granted ← Record.required? bool? granted
    let rule ← Record.optional? none (orNull? text?) rule
    pure ⟨granted, rule⟩
  | _ => none

/-- Reads entitlements. -/
def Entitlements.ofValue? (value : Value) : Option Entitlements := do
  let names := ["world", "group", "agent", "location", "controlled_digital_lending"]
  let right? := Record.optional? none (orNull? Right.ofValue?)
  let rights? := Record.optional? none (orNull? (nameMap? Right.ofValue?))
  match ← Record.fields? names false value with
  | [world, group, agent, location, lending] =>
    let world ← right? world
    let group ← Record.required? (nameMap? Right.ofValue?) group
    let agent ← rights? agent
    let location ← rights? location
    let lending ← right? lending
    pure ⟨world, group, agent, location, lending⟩
  | _ => none

/-- Reads an instant from a timestamp. -/
def Calendar.Instant.ofValue? (value : Value) : Option Calendar.Instant := do
  let text ← text? value
  (Calendar.Timestamp.parse text.toList).toOption

/-- Reads options. -/
def Options.ofValue? (value : Value) : Option Options := do
  match ← Record.fields? ["for_index", "evaluated_at"] true value with
  | [forIndex, evaluatedAt] =>
    let forIndex ← Record.optional? Options.default.forIndex bool? forIndex
    let evaluatedAt ←
      Record.optional? Options.default.evaluatedAt (orNull? Calendar.Instant.ofValue?) evaluatedAt
    pure ⟨forIndex, evaluatedAt⟩
  | _ => none

/-- Reads a kind of access: its name, or an object with the name as its one key and
nothing for the value. -/
def AccessKind.ofValue? : Value → Option AccessKind
  | .string text => text.bind AccessKind.ofName?
  | .object [(key, .null)] => key.bind AccessKind.ofName?
  | _ => none

end AccessRights
