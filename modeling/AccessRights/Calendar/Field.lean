import AccessRights.Text.Digit
import AccessRights.Text.Space

/-!
# Reading dates and times field by field

Readers take characters off the front of a text and either give a value or fail.  A
failure is one of two kinds, which are told apart in reports: a number outside its
range, or text that does not have the form at all.
-/

namespace AccessRights.Calendar

open AccessRights.Text

/-- Why a reader stopped. -/
inductive Failure
  /-- A number, or the date or time made of several, is outside its range. -/
  | outOfRange
  /-- The text does not have the form that is read. -/
  | otherForm
  deriving DecidableEq

/-- A reader of values of type `α`: the state is the text that is still to be read. -/
abbrev FieldReader (α : Type) : Type :=
  StateT (List Char) (Except Failure) α

namespace FieldReader

/-- The number that a list of digits denotes. -/
def numberOf (digits : List Nat) : Nat :=
  digits.foldl (fun n d => 10 * n + d) 0

/-- Reads the next character. -/
def next : FieldReader Char := fun cs =>
  match cs with
  | [] => .error .otherForm
  | c :: rest => .ok (c, rest)

/-- Fails unless a condition on the form of the text holds. -/
def require (condition : Bool) : FieldReader Unit :=
  if condition then pure () else throw .otherForm

/-- Fails unless a number is in its range. -/
def within (condition : Bool) : FieldReader Unit :=
  if condition then pure () else throw .outOfRange

/-- Reads one character of a kind. -/
def oneOf (accepted : Char → Bool) : FieldReader Unit := do
  let c ← next
  require (accepted c)

/-- Reads one digit. -/
def digit : FieldReader Nat := do
  match decimalDigit? (← next) with
  | some value => pure value
  | none => throw .otherForm

/-- Reads a number of two digits. -/
def twoDigits : FieldReader Nat := do
  let tens ← digit
  let ones ← digit
  pure (10 * tens + ones)

/-- Reads a number of four digits. -/
def fourDigits : FieldReader Nat := do
  let high ← twoDigits
  let low ← twoDigits
  pure (100 * high + low)

/-- Reads digits as long as there are any, `most` at the most. -/
def takeDigits : Nat → List Char → List Nat × List Char
  | 0, cs => ([], cs)
  | _, [] => ([], [])
  | most + 1, c :: rest =>
    match decimalDigit? c with
    | none => ([], c :: rest)
    | some value =>
      let (values, rest) := takeDigits most rest
      (value :: values, rest)

/-- Reads a number of at least one digit, and of `most` at the most. -/
def number (most : Nat) : FieldReader Nat := fun cs =>
  match takeDigits most cs with
  | ([], _) => .error .otherForm
  | (digits, rest) => .ok (numberOf digits, rest)

/-- Reads a number of any length. -/
def longNumber : FieldReader Nat := fun cs =>
  number cs.length cs

/-- Passes over white space, if there is any. -/
def skipSpace : FieldReader Unit := fun cs =>
  .ok ((), cs.dropWhile isUnicodeSpace)

/-- The nanoseconds that the digits after a point denote: the first nine, with zeros for
those that are missing. -/
def nanosOf (digits : List Nat) : Nat :=
  numberOf ((digits ++ List.replicate 9 0).take 9)

/-- Reads the fraction of a second, if a point is next; then a digit has to follow. -/
def fraction : FieldReader Nat := fun cs =>
  match cs with
  | '.' :: rest =>
    match takeDigits rest.length rest with
    | ([], _) => .error .otherForm
    | (digits, rest) => .ok (nanosOf digits, rest)
  | _ => .ok (0, cs)

/-- Fails unless the text is at its end. -/
def finish : FieldReader Unit := fun cs =>
  if cs.isEmpty then .ok ((), []) else .error .otherForm

/-- What a reader makes of a whole text. -/
def read {α : Type} (reader : FieldReader α) (cs : List Char) : Except Failure α :=
  (reader cs).map (·.1)

end FieldReader

end AccessRights.Calendar
