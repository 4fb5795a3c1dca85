import AccessRights.NameMap
import AccessRights.Vocabulary

/-!
# Element kinds and tallies

A `Tally` counts elements by their names.  In writing it is a fingerprint of a machine,
called its profile: every name with its count, in the order of the names.

`ElementKind` sorts the elements that may stand in a machine by what they mean.  Two
kinds are the same if their names are, however they came about: an element that was not
classified but has the name of a kind with a meaning is not told apart from it.
Equality and order of kinds are therefore those of their names.
-/

namespace AccessRights.Index

/-- What kind of element stands in a machine. -/
inductive ElementKind
  | world
  | group
  | agent
  | location
  | none
  | releaseDate
  | lending
  /-- An element by its name alone. -/
  | other (name : String)

namespace ElementKind

/-- The name of elements of this kind. -/
def name : ElementKind → String
  | world => Vocabulary.world
  | group => Vocabulary.group
  | agent => Vocabulary.agent
  | location => Vocabulary.location
  | none => Vocabulary.none
  | releaseDate => Vocabulary.releaseDate
  | lending => Vocabulary.lending
  | other name => name

/-- The kinds whose elements have a meaning. -/
def known : List ElementKind :=
  [world, group, agent, location, none, releaseDate, lending]

/-- The kind of the elements of a name. -/
def ofName (name : String) : ElementKind :=
  (known.find? fun kind => kind.name == name).getD (other name)

@[simp] theorem name_ofName (text : String) : (ofName text).name = text := by
  unfold ofName
  cases h : known.find? fun kind => kind.name == text with
  | none => rfl
  | some kind => simpa using List.find?_some h

instance : BEq ElementKind :=
  ⟨fun a b => a.name == b.name⟩

instance : Ord ElementKind :=
  ⟨fun a b => compare a.name b.name⟩

instance : LT ElementKind :=
  ⟨fun a b => a.name < b.name⟩

instance : DecidableLT ElementKind :=
  fun a b => inferInstanceAs (Decidable (a.name < b.name))

theorem beq_iff_name_eq {a b : ElementKind} : (a == b) = true ↔ a.name = b.name := by
  change (a.name == b.name) = true ↔ _
  exact beq_iff_eq

end ElementKind

/-- How many elements there are of each name. -/
structure Tally where
  counts : NameMap Nat
  deriving DecidableEq

namespace Tally

/-- Nothing counted. -/
def empty : Tally :=
  ⟨.empty⟩

/-- The number of elements of a name. -/
def countName (tally : Tally) (name : String) : Nat :=
  (tally.counts.get? name).getD 0

/-- The number of elements of a kind. -/
def count (tally : Tally) (kind : ElementKind) : Nat :=
  tally.countName kind.name

/-- Counts one more element. -/
def add (tally : Tally) (name : String) : Tally :=
  ⟨tally.counts.insert name (tally.countName name + 1)⟩

/-- Counts elements by their names. -/
def ofNames (names : List String) : Tally :=
  names.foldl add empty

/-- Counting one element counts for its name only. -/
theorem countName_add (tally : Tally) (name other : String) :
    (tally.add name).countName other =
      if other = name then tally.countName other + 1 else tally.countName other := by
  unfold countName add
  rw [NameMap.get?_insert]
  split
  · next h => rw [h]; rfl
  · rfl

/-- A name is counted as often as it is met. -/
theorem countName_foldl_add (names : List String) (tally : Tally) (name : String) :
    (names.foldl add tally).countName name = tally.countName name + names.count name := by
  induction names generalizing tally with
  | nil => simp
  | cons first rest ih =>
    rw [List.foldl_cons, ih, countName_add, List.count_cons]
    by_cases h : first = name
    · subst h
      simp only [if_pos, BEq.rfl]
      omega
    · rw [if_neg (Ne.symm h), if_neg (by simpa using h)]
      omega

/-- **The count of a name is the number of times it was given.** -/
@[simp] theorem countName_ofNames (names : List String) (name : String) :
    (ofNames names).countName name = names.count name := by
  unfold ofNames
  rw [countName_foldl_add]
  exact Nat.zero_add _

/-- The names with their counts, in the order of the names. -/
def entries (tally : Tally) : List (String × Nat) :=
  tally.counts.entries

/-- Nothing is counted. -/
def isEmpty (tally : Tally) : Bool :=
  tally.counts.isEmpty

/-- The profile: every name directly followed by its count, with bars between. -/
def render (tally : Tally) : String :=
  "|".intercalate (tally.entries.map fun entry => s!"{entry.1}{entry.2}")

end Tally

end AccessRights.Index
