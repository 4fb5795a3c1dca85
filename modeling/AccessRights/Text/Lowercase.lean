import AccessRights.Text.CaseTable

/-!
# Lowercase text

Full lowercasing as Unicode defines it: every character is replaced by its lowercase
mapping, with the two rules that no table of single characters can state.

* `U+0130`, a capital i with a dot, becomes two characters: `i` and a combining dot.
* A capital sigma at the end of a word becomes the final form.  The end of a word is
  where a cased letter stands before the sigma and none after it, case-ignorable
  characters in between not counted (`isFinalSigma`).
-/

namespace AccessRights.Text

/-- The lowercase mapping of a character on its own. -/
def lowercaseChar (c : Char) : List Char :=
  if c = '\u0130' then
    ['i', '\u0307']
  else
    match lowercaseRuns.findSome? fun run => run.image? c.toNat with
    | some code => [Char.ofNat code]
    | none => [c]

/-- The first character that is not case-ignorable is a cased letter. -/
def startsCased (cs : List Char) : Bool :=
  (cs.dropWhile (CharRange.holds caseIgnorableRanges)).head?.any
    (CharRange.holds casedRanges)

/-- Whether a sigma between the two stretches of text ends a word.  The text before it
is given backwards, so that the nearest character comes first in both. -/
def isFinalSigma (before after : List Char) : Bool :=
  startsCased before && !startsCased after

/-- Lowercases `cs` where it follows `before`, which is given backwards. -/
def lowercaseAfter (before : List Char) : List Char → List Char
  | [] => []
  | c :: rest =>
    (if c = 'Σ' then [if isFinalSigma before rest then 'ς' else 'σ']
      else lowercaseChar c) ++ lowercaseAfter (c :: before) rest

/-- The lowercase form of a text. -/
def lowercase (text : String) : String :=
  String.ofList (lowercaseAfter [] text.toList)

end AccessRights.Text
