import AccessRights.NameMap

/-!
# What a map holds

The entries of a map are the names with their values (`NameMap.mem_entries_iff`), since
the order of the entries leaves no room for a second entry of a name.

`NameMap.ofList` inserts entries one after the other, and each insertion replaces what
the name had before.  What the finished map holds is therefore told by the last entry
of each name alone (`NameMap.get?_ofList`), with no word on the insertions between.
Most maps of this library are built from a list of items that come with several names
each.  `NameMap.get?_ofList_flatMap` is the law for them: a name has the value of the
last item that comes with it.
-/

namespace AccessRights.NameMap

variable {α : Type}

theorem mem_iff_lookup {entries : List (String × α)}
    (h : entries.Pairwise fun a b => a.1 < b.1) (name : String) (value : α) :
    (name, value) ∈ entries ↔ entries.lookup name = some value := by
  induction entries with
  | nil => simp
  | cons entry rest ih =>
    obtain ⟨key, first⟩ := entry
    obtain ⟨hkey, hrest⟩ := List.pairwise_cons.mp h
    rw [List.mem_cons, ih hrest, lookup_cons_eq_ite]
    -- A name that is found first does not come again, since all that follow are greater.
    by_cases hname : name = key
    · subst hname
      rw [if_pos rfl, lookup_eq_none_of_lt hkey]
      simp [eq_comm]
    · rw [if_neg hname]
      simp [hname]

/-- **The entries are the names with their values.** -/
theorem mem_entries_iff {map : NameMap α} {name : String} {value : α} :
    (name, value) ∈ map.entries ↔ map.get? name = some value :=
  mem_iff_lookup map.sorted name value

theorem mem_keys_iff {map : NameMap α} {name : String} :
    name ∈ map.keys ↔ (map.get? name).isSome := by
  rw [keys, List.mem_map, Option.isSome_iff_exists]
  constructor
  · rintro ⟨⟨key, value⟩, hentry, rfl⟩
    exact ⟨value, mem_entries_iff.mp hentry⟩
  · rintro ⟨value, hvalue⟩
    exact ⟨(name, value), mem_entries_iff.mpr hvalue, rfl⟩

/-- Insertions on top of a map: the last entry of a name wins, and a name without an
entry keeps what the map had. -/
theorem get?_foldl_insert (entries : List (String × α)) (map : NameMap α) (name : String) :
    (entries.foldl (fun map entry => map.insert entry.1 entry.2) map).get? name =
      (((entries.filter (·.1 == name)).getLast?).map (·.2)).or (map.get? name) := by
  induction entries generalizing map with
  | nil => rfl
  | cons entry rest ih =>
    rw [List.foldl_cons, ih, get?_insert, List.filter_cons]
    by_cases h : name = entry.1
    · subst h
      rw [if_pos rfl, if_pos BEq.rfl, List.getLast?_cons]
      cases (rest.filter (·.1 == entry.1)).getLast? <;> rfl
    · rw [if_neg h, if_neg (by simpa using Ne.symm h)]

/-- **The last entry of a name counts.** -/
theorem get?_ofList (entries : List (String × α)) (name : String) :
    (ofList entries).get? name = ((entries.filter (·.1 == name)).getLast?).map (·.2) := by
  unfold ofList
  rw [get?_foldl_insert, get?_empty, Option.or_none]

/-- Of two lists of entries the second is asked first. -/
theorem get?_ofList_append (first second : List (String × α)) (name : String) :
    (ofList (first ++ second)).get? name =
      ((ofList second).get? name).or ((ofList first).get? name) := by
  rw [get?_ofList, get?_ofList, get?_ofList, List.filter_append, List.getLast?_append,
    Option.map_or]

/-- Several names with one value. -/
theorem get?_ofList_map_const (names : List String) (value : α) (name : String) :
    (ofList (names.map fun key => (key, value))).get? name =
      if name ∈ names then some value else none := by
  induction names with
  | nil => rfl
  | cons key rest ih =>
    rw [List.map_cons, ← List.singleton_append, get?_ofList_append, ih]
    by_cases hrest : name ∈ rest
    · rw [if_pos hrest, if_pos (List.mem_cons_of_mem _ hrest), Option.some_or]
    · rw [if_neg hrest, Option.none_or, ofList, List.foldl_cons, List.foldl_nil, get?_insert,
        get?_empty]
      by_cases hkey : name = key
      · rw [if_pos hkey, if_pos (hkey ▸ List.mem_cons_self)]
      · rw [if_neg hkey, if_neg (by simp [hkey, hrest])]

/-- **A name has the value of the last item that comes with it.** -/
theorem get?_ofList_flatMap {β : Type} (names : β → List String) (value : β → α)
    (items : List β) (name : String) :
    (ofList (items.flatMap fun item => (names item).map fun key => (key, value item))).get?
        name = ((items.filter fun item => name ∈ names item).getLast?).map value := by
  induction items with
  | nil => rfl
  | cons item rest ih =>
    rw [List.flatMap_cons, get?_ofList_append, ih, get?_ofList_map_const, List.filter_cons]
    -- The first item counts only where no later one comes with the name.
    by_cases h : name ∈ names item
    · rw [if_pos h, if_pos (decide_eq_true h), List.getLast?_cons]
      cases (rest.filter fun item => decide (name ∈ names item)).getLast? <;> rfl
    · rw [if_neg h, if_neg (by simpa using h), Option.or_none]

/-- A map from a list has every name of the list. -/
theorem isSome_get?_ofList_iff {entries : List (String × α)} {name : String} :
    ((ofList entries).get? name).isSome ↔ ∃ entry ∈ entries, entry.1 = name := by
  rw [get?_ofList, Option.isSome_map, List.getLast?_filter, List.find?_isSome]
  simp only [List.mem_reverse, beq_iff_eq]

/-- A map is empty exactly if no name has a value. -/
theorem isEmpty_eq_true_iff {map : NameMap α} :
    map.isEmpty = true ↔ ∀ name, map.get? name = none := by
  unfold isEmpty get?
  cases hentries : map.entries with
  | nil => simp
  | cons entry rest =>
    refine iff_of_false Bool.false_ne_true fun h => ?_
    have hfirst := h entry.1
    rw [lookup_cons_eq_ite entry.1, if_pos rfl] at hfirst
    cases hfirst

theorem isEmpty_eq_false_iff {map : NameMap α} :
    map.isEmpty = false ↔ ∃ name value, map.get? name = some value := by
  rw [← Bool.not_eq_true, isEmpty_eq_true_iff, Classical.not_forall]
  simp only [← ne_eq, Option.ne_none_iff_exists']

/-- A map from a list is empty exactly if the list is. -/
theorem isEmpty_ofList (entries : List (String × α)) :
    (ofList entries).isEmpty = entries.isEmpty := by
  cases entries with
  | nil => rfl
  | cons entry rest =>
    rw [List.isEmpty_cons, ← Bool.not_eq_true, isEmpty_eq_true_iff]
    intro h
    have hsome : ((ofList (entry :: rest)).get? entry.1).isSome :=
      isSome_get?_ofList_iff.mpr ⟨entry, List.mem_cons_self, rfl⟩
    rw [h entry.1] at hsome
    cases hsome

end AccessRights.NameMap
