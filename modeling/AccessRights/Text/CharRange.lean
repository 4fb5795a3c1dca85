/-!
# Ranges of code points

A character property is data: a list of ranges of code points.  `CharRange.holds`
decides whether a list has a character; nothing depends on the order of the list.
-/

namespace AccessRights.Text

/-- The code points from `first` to `last`, both included. -/
structure CharRange where
  first : Nat
  last : Nat
  deriving DecidableEq

/-- The character lies in one of the ranges. -/
def CharRange.holds (ranges : List CharRange) (c : Char) : Bool :=
  ranges.any fun range => range.first ≤ c.toNat && c.toNat ≤ range.last

end AccessRights.Text
