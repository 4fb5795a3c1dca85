import Mathlib.Data.List.Perm.Basic
import AccessRights.Proofs.TallyEntries
import AccessRights.Proofs.TermTexts

/-!
# A profile is a fingerprint

The profile of a machine sets names and counts side by side without a mark between them, and
entries with a bar between them.  It is meant as a fingerprint: two machines with the same
elements have the same profile, whatever the order of the elements, and two with different
ones do not.  `Tally.render_ofNames_eq_iff` says how far this goes.

* The order never counts, whatever the names are.
* The profile tells all lists of names apart, up to their order, in which no name has a digit
  or a bar.  This covers all names with a meaning.

A digit at the end of a name is taken for the start of the count: one `a1` is written like
eleven `a`.

## What carries the argument

Where no name has a digit or a bar a profile can be read back.  `readEntries` does this, by
cutting at the bars and then before the first digit, and it undoes `Tally.render`
(`Tally.readEntries_render`).  So the text determines the entries, these the counts, and the
counts the names up to their order (`Tally.ofNames_eq_iff`).
-/

namespace AccessRights

/-- The element names with a meaning. -/
def Vocabulary.elementNames : List String :=
  [rightsMetadata, access, file, machine, world, group, agent, location, none, lending,
    releaseDate]

namespace Index

/-! ## Tallies and lists of names -/

namespace Tally

theorem ext_entries {tally other : Tally} (h : tally.entries = other.entries) :
    tally = other := by
  obtain ⟨⟨entries, sorted⟩⟩ := tally
  obtain ⟨⟨entries', sorted'⟩⟩ := other
  cases h
  rfl

/-- **A tally knows the names up to their order**, and nothing of the order. -/
theorem ofNames_eq_iff {names others : List String} :
    ofNames names = ofNames others ↔ names.Perm others := by
  constructor
  · intro h
    apply List.perm_iff_count.mpr
    intro name
    rw [← countName_ofNames, h, countName_ofNames]
  · intro h
    apply ext_entries
    have hcounts : (ofNames names).counts = (ofNames others).counts := by
      apply NameMap.ext_get?
      intro name
      rw [get?_ofNames, get?_ofNames, h.count_eq]
      simp only [h.mem_iff]
    exact congrArg NameMap.entries hcounts

end Tally

/-! ## Reading a profile back -/

/-- Nothing in the name can be taken for a count or for the bar between two entries. -/
def IsCountFree (name : String) : Prop :=
  ∀ c ∈ name.toList, c.isDigit = false ∧ c ≠ '|'

instance (name : String) : Decidable (IsCountFree name) :=
  List.decidableBAll _ _

/-- The entry that a part of a profile stands for: the name ends before the first digit. -/
def readEntry (cs : List Char) : String × Nat :=
  (String.ofList (cs.takeWhile fun c => !c.isDigit),
    Nat.ofDigitChars 10 (cs.dropWhile fun c => !c.isDigit) 0)

/-- The entries that a profile stands for. -/
def readEntries (text : String) : List (String × Nat) :=
  if text = "" then [] else (text.toList.splitOn '|').map readEntry

theorem isDigit_of_mem_toString {c : Char} {count : Nat} (h : c ∈ (toString count).toList) :
    c.isDigit = true := by
  rw [Nat.toString_eq_repr, Nat.toList_repr] at h
  exact Nat.isDigit_of_mem_toDigits (by decide) (by decide) h

theorem takeWhile_toString (count : Nat) :
    (toString count).toList.takeWhile (fun c => !c.isDigit) = [] := by
  cases hcs : (toString count).toList with
  | nil => rfl
  | cons c cs =>
    have hdigit : c.isDigit = true := isDigit_of_mem_toString (hcs ▸ List.mem_cons_self)
    simp [hdigit]

theorem dropWhile_toString (count : Nat) :
    (toString count).toList.dropWhile (fun c => !c.isDigit) = (toString count).toList := by
  have hsplit := List.takeWhile_append_dropWhile (p := fun c : Char => !c.isDigit)
    (l := (toString count).toList)
  rwa [takeWhile_toString, List.nil_append] at hsplit

/-- **An entry is read back from its text.** -/
theorem readEntry_entry {name : String} (h : IsCountFree name) (count : Nat) :
    readEntry (name ++ toString count).toList = (name, count) := by
  have hname : ∀ c ∈ name.toList, (fun c : Char => !c.isDigit) c = true := by
    intro c hc
    simp [(h c hc).1]
  rw [readEntry, String.toList_append, List.takeWhile_append_of_pos hname,
    List.dropWhile_append_of_pos hname, takeWhile_toString, dropWhile_toString]
  simp

theorem bar_not_mem_entry {name : String} (h : IsCountFree name) (count : Nat) :
    '|' ∉ (name ++ toString count).toList := by
  rw [String.toList_append, List.mem_append, not_or]
  constructor
  · intro hbar
    exact (h '|' hbar).2 rfl
  · exact bar_not_mem_toString count

/-- Nothing is written for no entries only, since every entry has a count. -/
theorem intercalate_ne_empty {texts : List String} (hne : texts ≠ [])
    (h : ∀ text ∈ texts, text ≠ "") : "|".intercalate texts ≠ "" := by
  obtain ⟨text, texts, rfl⟩ := List.exists_cons_of_ne_nil hne
  have htext : text ≠ "" := h text List.mem_cons_self
  cases texts with
  | nil => simpa using htext
  | cons next texts => simp [String.intercalate_cons_cons, htext]

namespace Tally

/-- **A profile is read back**, unless a name in it can be taken for more than a name. -/
theorem readEntries_render {tally : Tally}
    (h : ∀ entry ∈ tally.entries, IsCountFree entry.1) :
    readEntries tally.render = tally.entries := by
  have hrender : tally.render =
      "|".intercalate (tally.entries.map fun entry => entry.1 ++ toString entry.2) := rfl
  have hnonempty : ∀ text ∈ tally.entries.map (fun entry => entry.1 ++ toString entry.2),
      text ≠ "" := by
    intro text htext
    obtain ⟨entry, -, rfl⟩ := List.mem_map.mp htext
    simp
  unfold readEntries
  by_cases hnil : tally.entries = []
  · rw [hrender, hnil]
    rfl
  · have hbars : ∀ text ∈ (tally.entries.map fun entry =>
        entry.1 ++ toString entry.2).map String.toList, '|' ∉ text := by
      intro text htext
      rw [List.map_map] at htext
      obtain ⟨entry, hentry, rfl⟩ := List.mem_map.mp htext
      exact bar_not_mem_entry (h entry hentry) entry.2
    rw [hrender, if_neg (intercalate_ne_empty (by simpa using hnil) hnonempty),
      String.toList_intercalate]
    have hbar : "|".toList = ['|'] := rfl
    rw [hbar, List.splitOn_intercalate '|' hbars (by simpa using hnil), List.map_map, List.map_map]
    calc tally.entries.map (readEntry ∘ String.toList ∘ fun entry => entry.1 ++ toString entry.2)
        = tally.entries.map id :=
          List.map_congr_left fun entry hentry => readEntry_entry (h entry hentry) entry.2
      _ = tally.entries := List.map_id _

/-- The names of the entries are the names that were given. -/
theorem isCountFree_of_mem_entries {names : List String} (h : ∀ name ∈ names, IsCountFree name) :
    ∀ entry ∈ (ofNames names).entries, IsCountFree entry.1 := by
  rintro ⟨name, count⟩ hentry
  exact h name (mem_entries_ofNames.mp hentry).1

/-- **A profile identifies the elements of a machine up to their order.**  Their order never
shows, and nothing else is lost where no name has a digit or a bar, as no name with a meaning
has. -/
theorem render_ofNames_eq_iff :
    (∀ names others : List String, names.Perm others →
      (ofNames names).render = (ofNames others).render) ∧
    (∀ names others : List String, (∀ name ∈ names ++ others, IsCountFree name) →
      ((ofNames names).render = (ofNames others).render ↔ names.Perm others)) ∧
    ∀ name ∈ Vocabulary.elementNames, IsCountFree name := by
  refine ⟨?_, ?_, by decide⟩
  · intro names others h
    rw [ofNames_eq_iff.mpr h]
  · intro names others h
    obtain ⟨hnames, hothers⟩ := List.forall_mem_append.mp h
    constructor
    · intro hrender
      apply ofNames_eq_iff.mp
      apply ext_entries
      rw [← readEntries_render (isCountFree_of_mem_entries hnames), hrender,
        readEntries_render (isCountFree_of_mem_entries hothers)]
    · intro hperm
      rw [ofNames_eq_iff.mpr hperm]

/-- An element without a name, and one name that is the start of another. -/
theorem render_ofNames_eq_iff_nameless :
    (∀ name ∈ ["world", "", "worlds", ""] ++ ["", "worlds", "world", ""], IsCountFree name) ∧
      (ofNames ["world", "", "worlds", ""]).render =
        (ofNames ["", "worlds", "world", ""]).render ∧
      (∀ name ∈ ["world", "world"] ++ ["world", "worlds"], IsCountFree name) ∧
      (ofNames ["world", "world"]).render ≠ (ofNames ["world", "worlds"]).render := by
  have hfree : ∀ name ∈ ["world", "", "worlds", ""] ++ ["", "worlds", "world", ""],
      IsCountFree name := by
    decide
  have hfree' : ∀ name ∈ ["world", "world"] ++ ["world", "worlds"], IsCountFree name := by
    decide
  refine ⟨hfree, ?_, hfree', ?_⟩
  · exact (render_ofNames_eq_iff.2.1 _ _ hfree).mpr (by decide)
  · intro hrender
    have hperm := (render_ofNames_eq_iff.2.1 _ _ hfree').mp hrender
    exact absurd hperm (by decide)

/-- A digit in a name can be taken for a count. -/
example : (ofNames ["a1"]).render = (ofNames (List.replicate 11 "a")).render := by
  decide +kernel

end Tally

end Index

end AccessRights
