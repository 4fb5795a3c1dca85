import AccessRights.Index.Tally
import AccessRights.Proofs.MapEntries

/-!
# The entries of a tally

A tally of names has an entry for every name that was given and no other, and the count
in it is the number of times the name was given (`Tally.mem_entries_ofNames`).
-/

namespace AccessRights.Index.Tally

/-- What is counted comes on top of what the tally holds, and a name that is not met stays as it
is. -/
theorem get?_foldl_add (names : List String) (tally : Tally) (name : String) :
    (names.foldl add tally).counts.get? name =
      if name ∈ names then some (tally.countName name + names.count name)
      else tally.counts.get? name := by
  induction names generalizing tally with
  | nil => rfl
  | cons first rest ih =>
    rw [List.foldl_cons, ih, countName_add, List.count_cons]
    by_cases hrest : name ∈ rest
    · rw [if_pos hrest, if_pos (List.mem_cons_of_mem _ hrest)]
      by_cases hfirst : name = first
      · subst hfirst
        simp only [if_true, BEq.rfl]
        congr 1
        omega
      · simp [hfirst, Ne.symm hfirst]
    · rw [if_neg hrest, add, NameMap.get?_insert, List.count_eq_zero_of_not_mem hrest]
      by_cases hfirst : name = first
      · subst hfirst
        simp
      · simp [hfirst, hrest]

/-- A tally has an entry for each name that is met, with the number of times. -/
theorem get?_ofNames (names : List String) (name : String) :
    (ofNames names).counts.get? name = if name ∈ names then some (names.count name) else none := by
  unfold ofNames
  rw [get?_foldl_add]
  have hcount : empty.countName name = 0 := rfl
  rw [hcount, Nat.zero_add]
  rfl

/-- **Every name that was given has an entry with its count**, and nothing else has. -/
theorem mem_entries_ofNames {names : List String} {name : String} {count : Nat} :
    (name, count) ∈ (ofNames names).entries ↔ name ∈ names ∧ count = names.count name := by
  rw [entries, NameMap.mem_entries_iff, get?_ofNames]
  by_cases h : name ∈ names
  · rw [if_pos h]
    simp [h, eq_comm]
  · rw [if_neg h]
    simp [h]

/-- It has none only if no name is met. -/
theorem isEmpty_ofNames (names : List String) : (ofNames names).isEmpty = names.isEmpty := by
  unfold isEmpty
  rw [Bool.eq_iff_iff, NameMap.isEmpty_eq_true_iff, List.isEmpty_iff]
  constructor
  · intro h
    refine List.eq_nil_iff_forall_not_mem.mpr fun name hname => ?_
    have hnone := h name
    rw [get?_ofNames, if_pos hname] at hnone
    cases hnone
  · rintro rfl name
    rfl

end AccessRights.Index.Tally
