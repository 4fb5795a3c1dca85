import AccessRights.Vocabulary

/-!
# Rights

A `Right` is the answer to one question of access: whether it is given, and under
which rule.
-/

namespace AccessRights

/-- Whether access is granted, and the rule that qualifies it.  Any rule restricts a
right; only `Vocabulary.noDownload` has a meaning of its own. -/
structure Right where
  granted : Bool
  rule : Option String
  deriving DecidableEq

namespace Right

/-- Nothing granted. -/
def denied : Right :=
  ⟨false, none⟩

/-- Access granted under a rule, if any. -/
def granting (rule : Option String) : Right :=
  ⟨true, rule⟩

/-- Granted without a rule. -/
def isUnrestricted (right : Right) : Bool :=
  right.granted && right.rule.isNone

/-- Granted, and not withheld from download. -/
def isDownloadable (right : Right) : Bool :=
  right.granted && right.rule != some Vocabulary.noDownload

end Right

end AccessRights
