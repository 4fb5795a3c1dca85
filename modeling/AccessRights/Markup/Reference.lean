import AccessRights.Text.Digit

/-!
# Character references

In running text and in attribute values `&` starts a reference: one of five names, or
a number in base ten or sixteen, up to a semicolon.  `resolve` replaces all references
of a text or none: a text with a single reference that means nothing, a bare `&`
included, is not resolved at all, and `resolved` then keeps it as it is written.
-/

namespace AccessRights.Markup

open AccessRights.Text

/-- The number that the digits denote, for one digit at least. -/
def numberOf? (base : Nat) (digit? : Char → Option Nat) : List Char → Option Nat
  | [] => none
  | c :: cs => (c :: cs).foldlM (fun n d => (digit? d).map (base * n + ·)) 0

/-- The character with a given number: none has the number zero, that of a surrogate,
or one past the end of Unicode. -/
def numbered? (n : Nat) : Option Char :=
  if n ≠ 0 ∧ n.isValidChar then some (Char.ofNat n) else none

/-- The character which a reference stands for, from what is between `&` and `;`. -/
def referenced? : List Char → Option Char
  | ['l', 't'] => some '<'
  | ['g', 't'] => some '>'
  | ['a', 'm', 'p'] => some '&'
  | ['a', 'p', 'o', 's'] => some '\''
  | ['q', 'u', 'o', 't'] => some '"'
  | '#' :: 'x' :: digits => numberOf? 16 hexDigit? digits >>= numbered?
  | '#' :: digits => numberOf? 10 decimalDigit? digits >>= numbered?
  | _ => none

/-- What may stand inside a reference: anything but its two ends. -/
def isInsideReference (c : Char) : Bool :=
  c != '&' && c != ';'

/-- The text with all its references replaced, if every one of them means something.
What replaces a reference is not looked at again. -/
def resolve : List Char → Option (List Char)
  | [] => some []
  | '&' :: rest =>
    match _h : rest.dropWhile isInsideReference with
    | ';' :: after => do
      let c ← referenced? (rest.takeWhile isInsideReference)
      let cs ← resolve after
      pure (c :: cs)
    | _ => none
  | c :: rest => (resolve rest).map (c :: ·)
termination_by cs => cs.length
decreasing_by
  · have := (List.dropWhile_sublist (p := isInsideReference) (l := rest)).length_le
    simp only [_h, List.length_cons] at this ⊢
    omega
  · simp

/-- The text with its references replaced, or as it is written where one of them means
nothing. -/
def resolved (cs : List Char) : String :=
  String.ofList ((resolve cs).getD cs)

end AccessRights.Markup
