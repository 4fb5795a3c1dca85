/-!
# JSON values

The values of the JSON data format.  Strings are escaped sequences of UTF-16 units, and
not every such sequence is a text: an escape may name one half of a surrogate pair
alone.  `JsonText` is a string that may be no text, so that a value can be read as a
whole before it is known which of its strings have to be texts.  Numbers are told apart
from other values and not from one another, since nothing that is read from JSON here
has a number in it.
-/

namespace AccessRights.Json

/-- What a string denotes, if it is a text. -/
abbrev JsonText : Type := Option String

/-- A JSON value.  The members of an object keep their order, and may repeat a key. -/
inductive Value
  | null
  | bool (value : Bool)
  | number
  | string (text : JsonText)
  | array (items : List Value)
  | object (members : List (JsonText × Value))

end AccessRights.Json
