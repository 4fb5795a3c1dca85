import AccessRights.Json.Value
import AccessRights.Text.Digit

/-!
# Reading JSON

The strict grammar: one value with white space around it, no trailing commas, no
control characters inside strings, no leading zeros.  A reader takes a value off the
front of a text and gives the rest, or nothing if the text does not go on as it has to.

Values nest, and each level takes at least one character, so that the length of the
text bounds the depth (`valueWithin`).
-/

namespace AccessRights.Json

open AccessRights.Text

/-- The white space of JSON. -/
def isJsonSpace (c : Char) : Bool :=
  c == ' ' || c == '\t' || c == '\n' || c == '\r'

/-- The text without the white space in front. -/
def skipSpace (cs : List Char) : List Char :=
  cs.dropWhile isJsonSpace

/-- The rest after a given beginning. -/
def after? : List Char → List Char → Option (List Char)
  | [], cs => some cs
  | _, [] => none
  | e :: expected, c :: cs => if e = c then after? expected cs else none

/-- Reads four hexadecimal digits. -/
def readUnit : List Char → Option (Nat × List Char)
  | a :: b :: c :: d :: rest => do
    let a ← hexDigit? a
    let b ← hexDigit? b
    let c ← hexDigit? c
    let d ← hexDigit? d
    pure (((16 * a + b) * 16 + c) * 16 + d, rest)
  | _ => none

/-- A piece of a string: a character, or a UTF-16 unit given by its number. -/
inductive StringPiece
  | char (c : Char)
  | unit (n : Nat)

/-- The character that an escape of one letter stands for. -/
def escaped? : Char → Option Char
  | '"' => some '"'
  | '\\' => some '\\'
  | '/' => some '/'
  | 'b' => some '\x08'
  | 'f' => some '\x0c'
  | 'n' => some '\n'
  | 'r' => some '\r'
  | 't' => some '\t'
  | _ => none

/-- The rest of a text after one piece of a string, with the piece.  The text is one
that does not start with a quote. -/
def readPiece : List Char → Option (StringPiece × List Char)
  | '\\' :: 'u' :: rest => do
    let (n, rest) ← readUnit rest
    pure (.unit n, rest)
  | '\\' :: c :: rest => (escaped? c).map fun c => (.char c, rest)
  | '\\' :: [] => none
  | c :: rest => if c.toNat < 0x20 then none else some (.char c, rest)
  | [] => none

/-- Reads the pieces of a string up to its closing quote.  `bound` is at least the
number of pieces. -/
def readPieces : Nat → List Char → Option (List StringPiece × List Char)
  | 0, _ => none
  | _ + 1, '"' :: rest => some ([], rest)
  | bound + 1, cs => do
    let (piece, rest) ← readPiece cs
    let (pieces, rest) ← readPieces bound rest
    pure (piece :: pieces, rest)

/-- The first half of a surrogate pair. -/
def isHighSurrogate (n : Nat) : Bool :=
  0xD800 ≤ n && n ≤ 0xDBFF

/-- The second half of a surrogate pair. -/
def isLowSurrogate (n : Nat) : Bool :=
  0xDC00 ≤ n && n ≤ 0xDFFF

/-- The characters of a string, if its escapes name no half of a surrogate pair alone. -/
def textOf : List StringPiece → Option (List Char)
  | [] => some []
  | .char c :: pieces => (textOf pieces).map (c :: ·)
  | .unit high :: .unit low :: pieces =>
    if isHighSurrogate high && isLowSurrogate low then
      (textOf pieces).map (Char.ofNat ((high - 0xD800) * 0x400 + (low - 0xDC00) + 0x10000) :: ·)
    else if isHighSurrogate high || isLowSurrogate high then none
    else (textOf (.unit low :: pieces)).map (Char.ofNat high :: ·)
  | .unit n :: pieces =>
    if isHighSurrogate n || isLowSurrogate n then none
    else (textOf pieces).map (Char.ofNat n :: ·)

/-- Reads a string from after its opening quote. -/
def readString (cs : List Char) : Option (JsonText × List Char) := do
  let (pieces, rest) ← readPieces (cs.length + 1) cs
  pure ((textOf pieces).map String.ofList, rest)

/-- The rest after one digit or more. -/
def afterDigits? (cs : List Char) : Option (List Char) :=
  match cs with
  | c :: rest => if c.isDigit then some (rest.dropWhile Char.isDigit) else none
  | [] => none

/-- The rest after the whole part of a number, which starts with a zero only if it is
one. -/
def afterWhole? : List Char → Option (List Char)
  | '0' :: c :: rest => if c.isDigit then none else some (c :: rest)
  | '0' :: [] => some []
  | cs => afterDigits? cs

/-- The rest after the fraction of a number, if it has one. -/
def afterFraction? : List Char → Option (List Char)
  | '.' :: rest => afterDigits? rest
  | cs => some cs

/-- The rest after the exponent of a number, if it has one. -/
def afterExponent? : List Char → Option (List Char)
  | 'e' :: rest | 'E' :: rest =>
    match rest with
    | '+' :: digits | '-' :: digits => afterDigits? digits
    | digits => afterDigits? digits
  | cs => some cs

/-- The rest after a number. -/
def afterNumber? (cs : List Char) : Option (List Char) := do
  let unsigned := match cs with
    | '-' :: rest => rest
    | cs => cs
  let rest ← afterWhole? unsigned
  let rest ← afterFraction? rest
  afterExponent? rest

/-- Reads what follows an item up to the end of a list of items: a comma and more items,
or the closing character.  `bound` is at least the number of items. -/
def readItems {α : Type} (item : List Char → Option (α × List Char)) (close : Char) :
    Nat → List Char → Option (List α × List Char)
  | 0, _ => none
  | bound + 1, cs => do
    let (first, rest) ← item (skipSpace cs)
    match skipSpace rest with
    | c :: rest =>
      if c = close then pure ([first], rest)
      else if c = ',' then do
        let (others, rest) ← readItems item close bound rest
        pure (first :: others, rest)
      else none
    | [] => none

/-- Reads a list of items, which may be empty, up to its closing character. -/
def readList {α : Type} (item : List Char → Option (α × List Char)) (close : Char)
    (cs : List Char) : Option (List α × List Char) :=
  match skipSpace cs with
  | [] => none
  | c :: rest => if c = close then some ([], rest) else readItems item close (cs.length + 1) cs

/-- Reads a member of an object, whose value is read by `value`. -/
def readMember (value : List Char → Option (Value × List Char)) :
    List Char → Option ((JsonText × Value) × List Char)
  | '"' :: rest => do
    let (key, rest) ← readString rest
    let rest ← after? [':'] (skipSpace rest)
    let (value, rest) ← value (skipSpace rest)
    pure ((key, value), rest)
  | _ => none

/-- Reads a value that is nested no deeper than `depth` levels. -/
def valueWithin : Nat → List Char → Option (Value × List Char)
  | 0, _ => none
  | depth + 1, cs =>
    match cs with
    | '"' :: rest => (readString rest).map fun (text, rest) => (.string text, rest)
    | '[' :: rest =>
      (readList (valueWithin depth) ']' rest).map fun (items, rest) => (.array items, rest)
    | '\x7b' :: rest =>
      (readList (readMember (valueWithin depth)) '\x7d' rest).map fun (members, rest) =>
        (.object members, rest)
    | 'n' :: rest => (after? ['u', 'l', 'l'] rest).map fun rest => (.null, rest)
    | 't' :: rest => (after? ['r', 'u', 'e'] rest).map fun rest => (.bool true, rest)
    | 'f' :: rest => (after? ['a', 'l', 's', 'e'] rest).map fun rest => (.bool false, rest)
    | cs => (afterNumber? cs).map fun rest => (.number, rest)

/-- The value that a text is, with white space around it. -/
def Value.parse? (text : String) : Option Value := do
  let cs := skipSpace text.toList
  let (value, rest) ← valueWithin (cs.length + 1) cs
  if (skipSpace rest).isEmpty then some value else none

end AccessRights.Json
