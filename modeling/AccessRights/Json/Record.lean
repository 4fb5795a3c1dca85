import AccessRights.Json.Value
import AccessRights.NameMap

/-!
# Records in JSON

A record with named fields is written in either of two ways: as an object, or as an
array of the values of all fields in order.  `Record.fields?` brings both into one form,
a value or nothing for each field.

In an object, members that are no field of the record are passed over, while a field
that comes twice is an error; so is a key that is not a text.  An array has to have a
value for every field, unless the record allows it to stop early, and never more.

The readers of single values coerce nothing: a truth value is read from a truth value
alone, and so on.
-/

namespace AccessRights.Json

/-- Reads a truth value. -/
def bool? : Value → Option Bool
  | .bool value => some value
  | _ => none

/-- Reads a text. -/
def text? : Value → Option String
  | .string text => text
  | _ => none

/-- Reads what may be null. -/
def orNull? {α : Type} (read : Value → Option α) : Value → Option (Option α)
  | .null => some none
  | value => (read value).map some

/-- The members of an object by their keys, if all keys are texts. -/
def namedMembers? (members : List (JsonText × Value)) : Option (List (String × Value)) :=
  members.mapM fun member => member.1.map fun key => (key, member.2)

/-- Reads a map from names.  A later member replaces an earlier one of the same key. -/
def nameMap? {α : Type} (read : Value → Option α) : Value → Option (NameMap α)
  | .object members => do
    let members ← namedMembers? members
    let entries ← members.mapM fun member => (read member.2).map fun value => (member.1, value)
    pure (.ofList entries)
  | _ => none

namespace Record

/-- The values of the members of one key. -/
def valuesOf (members : List (String × Value)) (key : String) : List Value :=
  (members.filter (·.1 == key)).map (·.2)

/-- The one value of a field, if there is any; several are an error. -/
def atMostOne? : List Value → Option (Option Value)
  | [] => some none
  | [value] => some (some value)
  | _ => none

/-- The values of the fields of a record.  `mayStop` says that an array may end before
the last field. -/
def fields? (names : List String) (mayStop : Bool) : Value → Option (List (Option Value))
  | .object members => do
    let members ← namedMembers? members
    names.mapM fun name => atMostOne? (valuesOf members name)
  | .array items =>
    if items.length = names.length ∨ (mayStop ∧ items.length < names.length) then
      some (names.mapIdx fun place _ => items[place]?)
    else
      none
  | _ => none

/-- Reads a field that has to be there. -/
def required? {α : Type} (read : Value → Option α) (field : Option Value) : Option α :=
  field.bind read

/-- Reads a field that may be missing, in favour of a default. -/
def optional? {α : Type} (default : α) (read : Value → Option α) : Option Value → Option α
  | none => some default
  | some value => read value

end Record

end AccessRights.Json
