/-!
# Containment

Whether a text holds another as a connected stretch.  The test is the obvious search;
`containsInfix_eq_true_iff` says so in terms of `List.IsInfix`.
-/

namespace AccessRights.Text

/-- `cs` holds `pattern` as a connected stretch. -/
def containsInfix (pattern : List Char) : List Char → Bool
  | [] => pattern.isEmpty
  | c :: cs => pattern.isPrefixOf (c :: cs) || containsInfix pattern cs

theorem containsInfix_eq_true_iff {pattern cs : List Char} :
    containsInfix pattern cs = true ↔ pattern <:+: cs := by
  induction cs with
  | nil => simp [containsInfix]
  | cons c cs ih => simp [containsInfix, ih, List.infix_cons_iff]

end AccessRights.Text
