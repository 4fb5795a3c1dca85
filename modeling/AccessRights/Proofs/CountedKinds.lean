import AccessRights.Proofs.TallyEntries
import AccessRights.Proofs.Utf8Bytes

/-!
# Kinds that are counted

A kind of element can come about in two ways.  `ElementKind.ofName` sorts a name into the kinds
with a meaning as far as it can, and `ElementKind.other` takes any name as it is, also one that
has a meaning.  Both must count as the same kind, and equality and order of kinds are therefore
made for it: they go by the name and by nothing else.

A `Tally` keeps names, so that the question does not even arise there.  This module asks it all
the same.  `countKinds` counts kinds where they stand, in a list in which the place of a kind is
found by comparing it with those that are there, and `Tally.kinds_ofNames` says that this is
what a tally of names amounts to.  What is right about the tally rests on two facts about the
comparison, and on no other:

* it is that of the names (`ElementKind.compare_eq_lt_iff`, `ElementKind.compare_eq_eq_iff`);
* names are in the order of their bytes (`ElementKind.lt_iff_utf8Bytes_lt`).

`Tally.countsEach_ofNames` has all of this in one statement.
-/

namespace AccessRights.Index

open AccessRights.Text

/-! ## One identity -/

namespace ElementKind

variable {kind other : ElementKind}

/-- Kinds that compare as equal have one name. -/
theorem compare_eq_eq_iff : compare kind other = .eq ↔ kind.name = other.name :=
  Std.LawfulEqOrd.compare_eq_iff_eq (a := kind.name) (b := other.name)

theorem compare_eq_lt_iff : compare kind other = .lt ↔ kind < other :=
  compareOfLessAndEq_eq_lt

/-- Looking names up keeps their order. -/
theorem ofName_lt_ofName_iff {name next : String} : ofName name < ofName next ↔ name < next := by
  change (ofName name).name < (ofName next).name ↔ _
  rw [name_ofName, name_ofName]

/-- The order of kinds is that of the bytes of their names. -/
theorem lt_iff_utf8Bytes_lt : kind < other ↔ utf8Bytes kind.name < utf8Bytes other.name :=
  utf8Bytes_lt_iff.symm

/-- **Kinds are in one line**, like their names. -/
instance : Std.TransOrd ElementKind where
  eq_swap {kind other} := Std.OrientedOrd.eq_swap (a := kind.name) (b := other.name)
  isLE_trans {kind other last} :=
    Std.TransOrd.isLE_trans (a := kind.name) (b := other.name) (c := last.name)

/-- **Kinds that are nowhere apart in the order are equal.** -/
instance : Std.LawfulBEqOrd ElementKind where
  compare_eq_iff_beq := compare_eq_eq_iff.trans beq_iff_name_eq.symm

/-- A kind is known by its name, however it came about. -/
theorem ofName_name_beq (kind : ElementKind) : (ofName kind.name == kind) = true :=
  beq_iff_name_eq.mpr (name_ofName kind.name)

end ElementKind

/-! ## Counting by comparison -/

/-- Counts one more element of a kind.  The kinds counted so far are in order, and the place of
this one is found by comparison; an entry of an equal kind stays and is only counted up. -/
def countKind (kind : ElementKind) : List (ElementKind × Nat) → List (ElementKind × Nat)
  | [] => [(kind, 1)]
  | entry :: rest =>
    match compare kind entry.1 with
    | .lt => (kind, 1) :: entry :: rest
    | .eq => (entry.1, entry.2 + 1) :: rest
    | .gt => entry :: countKind kind rest

/-- Counts the kinds of elements by their names. -/
def countKinds (names : List String) : List (ElementKind × Nat) :=
  names.foldl (fun counted name => countKind (.ofName name) counted) []

/-- The count of a kind, found by comparison. -/
def countOf (kind : ElementKind) : List (ElementKind × Nat) → Nat
  | [] => 0
  | entry :: rest => if compare kind entry.1 = .eq then entry.2 else countOf kind rest

/-- All counts together. -/
def total (counted : List (ElementKind × Nat)) : Nat :=
  counted.foldr (fun entry sum => entry.2 + sum) 0

/-- One more element is one more, wherever its kind stands. -/
theorem total_countKind (kind : ElementKind) (counted : List (ElementKind × Nat)) :
    total (countKind kind counted) = total counted + 1 := by
  unfold total
  induction counted with
  | nil => rfl
  | cons entry rest ih =>
    unfold countKind
    cases compare kind entry.1 with
    | lt => exact Nat.add_comm 1 _
    | eq => exact Nat.add_right_comm entry.2 1 _
    | gt => exact congrArg (entry.2 + ·) ih

/-- **Nothing is counted twice and nothing is left out.** -/
theorem total_countKinds (names : List String) : total (countKinds names) = names.length := by
  have hrun : ∀ counted, total (names.foldl (fun counted name => countKind (.ofName name) counted)
      counted) = total counted + names.length := by
    induction names with
    | nil => exact fun _ => rfl
    | cons name names ih =>
      intro counted
      rw [List.foldl_cons, ih, total_countKind, List.length_cons]
      omega
  exact (hrun []).trans (Nat.zero_add _)

/-! ## Kinds and names -/

/-- The kind of an entry's name, with its count. -/
def kindEntry (entry : String × Nat) : ElementKind × Nat :=
  (.ofName entry.1, entry.2)

/-- **One step of counting** finds the same place by kinds as by names. -/
theorem map_insertEntry {entries : List (String × Nat)}
    (hsorted : entries.Pairwise fun a b => a.1 < b.1) (name : String) :
    (NameMap.insertEntry name ((entries.lookup name).getD 0 + 1) entries).map kindEntry =
      countKind (.ofName name) (entries.map kindEntry) := by
  induction entries with
  | nil => rfl
  | cons entry rest ih =>
    obtain ⟨key, count⟩ := entry
    obtain ⟨hkey, hrest⟩ := List.pairwise_cons.mp hsorted
    rw [NameMap.insertEntry, NameMap.lookup_cons_eq_ite, List.map_cons, countKind]
    rcases Std.lt_trichotomy name key with hlt | rfl | hgt
    · -- The names that follow are greater still, so that there is no count yet.
      have hcompare : compare (ElementKind.ofName name) (kindEntry (key, count)).1 = .lt :=
        ElementKind.compare_eq_lt_iff.mpr (ElementKind.ofName_lt_ofName_iff.mpr hlt)
      have hnone : rest.lookup name = none :=
        NameMap.lookup_eq_none_of_lt fun other hother => String.lt_trans hlt (hkey other hother)
      rw [if_pos hlt, if_neg (String.ne_of_lt hlt), hnone, hcompare]
      rfl
    · have hcompare : compare (ElementKind.ofName name) (kindEntry (name, count)).1 = .eq :=
        ElementKind.compare_eq_eq_iff.mpr rfl
      rw [if_neg (String.lt_irrefl name), if_pos rfl, if_pos rfl, hcompare]
      rfl
    · have hcompare : compare (ElementKind.ofName name) (kindEntry (key, count)).1 = .gt := by
        rw [Std.OrientedOrd.eq_swap, Ordering.swap_eq_gt, ElementKind.compare_eq_lt_iff]
        exact ElementKind.ofName_lt_ofName_iff.mpr hgt
      have hne : name ≠ key := (String.ne_of_lt hgt).symm
      rw [if_neg (String.lt_asymm hgt), if_neg hne, if_neg hne, hcompare, List.map_cons, ih hrest]

namespace Tally

/-- What a tally holds, as kinds with their counts. -/
def kinds (tally : Tally) : List (ElementKind × Nat) :=
  tally.entries.map kindEntry

theorem kinds_add (tally : Tally) (name : String) :
    (tally.add name).kinds = countKind (.ofName name) tally.kinds :=
  map_insertEntry tally.counts.sorted name

/-- **A tally of names is what counting kinds by comparison gives.** -/
theorem kinds_ofNames (names : List String) : (ofNames names).kinds = countKinds names := by
  have hrun : ∀ tally : Tally, (names.foldl add tally).kinds =
      names.foldl (fun counted name => countKind (.ofName name) counted) tally.kinds := by
    induction names with
    | nil => exact fun _ => rfl
    | cons name names ih =>
      intro tally
      rw [List.foldl_cons, List.foldl_cons, ih, kinds_add]
  exact hrun empty

/-- A kind is found by comparison where its name is. -/
theorem countOf_kinds (tally : Tally) (kind : ElementKind) :
    countOf kind tally.kinds = tally.count kind := by
  unfold kinds count countName NameMap.get? entries
  induction tally.counts.entries with
  | nil => rfl
  | cons entry rest ih =>
    have hfound : compare kind (kindEntry entry).1 = .eq ↔ kind.name = entry.1 := by
      rw [ElementKind.compare_eq_eq_iff, kindEntry, ElementKind.name_ofName]
    rw [List.map_cons, countOf, ih, NameMap.lookup_cons_eq_ite]
    by_cases hname : kind.name = entry.1
    · rw [if_pos (hfound.mpr hname), if_pos hname]
      rfl
    · rw [if_neg (mt hfound.mp hname), if_neg hname]

/-- The tally counts each of the names, once for every time it is given. -/
structure CountsEach (names : List String) (tally : Tally) : Prop where
  /-- A name counts alike whether its kind is looked up or not. -/
  count_eq : ∀ name, tally.count (.ofName name) = names.count name ∧
    tally.count (.other name) = names.count name
  /-- Counting the kinds by comparison gives the same entries, and so does asking for them. -/
  counted : tally.kinds = countKinds names ∧ ∀ kind, countOf kind tally.kinds = tally.count kind
  increasing : tally.kinds.Pairwise fun first second =>
    utf8Bytes first.1.name < utf8Bytes second.1.name
  positive : ∀ entry ∈ tally.kinds, 1 ≤ entry.2
  distinct : tally.kinds.Pairwise fun first second => (first.1 == second.1) = false
  total_eq : total tally.kinds = names.length

/-- The names of the entries increase, byte by byte. -/
theorem pairwise_lt_kinds (tally : Tally) : tally.kinds.Pairwise fun first second =>
    utf8Bytes first.1.name < utf8Bytes second.1.name := by
  refine List.pairwise_map.mpr (tally.counts.sorted.imp fun {first second} hlt => ?_)
  exact ElementKind.lt_iff_utf8Bytes_lt.mp (ElementKind.ofName_lt_ofName_iff.mpr hlt)

theorem countsEach (names : List String) : CountsEach names (ofNames names) where
  count_eq name := by
    rw [count, count, countName_ofNames, countName_ofNames, ElementKind.name_ofName]
    exact ⟨rfl, rfl⟩
  counted := ⟨kinds_ofNames names, countOf_kinds _⟩
  increasing := pairwise_lt_kinds _
  positive := by
    intro entry hentry
    obtain ⟨⟨name, count⟩, hmem, rfl⟩ := List.mem_map.mp hentry
    obtain ⟨hname, rfl⟩ := mem_entries_ofNames.mp hmem
    exact List.count_pos_iff.mpr hname
  distinct := by
    refine (pairwise_lt_kinds _).imp fun {first second} hlt => Bool.eq_false_iff.mpr fun hsame => ?_
    rw [ElementKind.beq_iff_name_eq.mp hsame] at hlt
    exact List.lt_irrefl _ hlt
  total_eq := by rw [kinds_ofNames, total_countKinds]

/-- **A tally counts every name once, and kinds have one identity.**  Equality, order and name
of kinds agree, whether a kind was looked up or not; the order is total, and that of the bytes
of the names. -/
theorem countsEach_ofNames :
    (∀ names : List String, CountsEach names (ofNames names)) ∧
    ∀ first second third : ElementKind,
      ((first == second) = true ↔ first.name = second.name) ∧
      (compare first second = .eq ↔ first.name = second.name) ∧
      (compare first second = .lt ↔ utf8Bytes first.name < utf8Bytes second.name) ∧
      compare second first = (compare first second).swap ∧
      ((compare first second).isLE → (compare second third).isLE → (compare first third).isLE) ∧
      (ElementKind.ofName first.name == first) = true := by
  refine ⟨countsEach, fun first second third => ⟨ElementKind.beq_iff_name_eq,
    ElementKind.compare_eq_eq_iff, ?_, Std.OrientedOrd.eq_swap, Std.TransOrd.isLE_trans,
    ElementKind.ofName_name_beq first⟩⟩
  rw [ElementKind.compare_eq_lt_iff, ElementKind.lt_iff_utf8Bytes_lt]

/-- Names with and without a meaning, one of them empty and one not ASCII. -/
def mixedNames : List String :=
  ["world", "écran", "", "cdl", "world", "license"]

theorem countsEach_ofNames_mixedNames :
    (ofNames mixedNames).count (.ofName "world") = 2 ∧
      (ofNames mixedNames).count (.other "world") = 2 ∧
      (ofNames mixedNames).kinds.map (fun entry => (entry.1.name, entry.2)) =
        [("", 1), ("cdl", 1), ("license", 1), ("world", 2), ("écran", 1)] ∧
      total (ofNames mixedNames).kinds = 6 ∧
      (compare ElementKind.none (.other "world")).isLE = true ∧
      (compare (ElementKind.other "world") (.other "écran")).isLE = true ∧
      (compare ElementKind.none (.other "écran")).isLE = true ∧
      (ElementKind.world == .other "world") = true := by
  obtain ⟨hcounts, hkinds⟩ := countsEach_ofNames
  obtain ⟨hlooked, hbare⟩ := (hcounts mixedNames).count_eq "world"
  have hfirst : (compare ElementKind.none (.other "world")).isLE = true := by decide +kernel
  have hsecond : (compare (ElementKind.other "world") (.other "écran")).isLE = true := by
    decide +kernel
  obtain ⟨-, -, -, -, htrans, -⟩ := hkinds .none (.other "world") (.other "écran")
  exact ⟨hlooked, hbare, by decide +kernel, (hcounts mixedNames).total_eq, hfirst, hsecond,
    htrans hfirst hsecond, (hkinds .world (.other "world") .none).1.mpr rfl⟩

end Tally

end AccessRights.Index
