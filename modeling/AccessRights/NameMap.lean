/-!
# Maps from names

A finite map whose keys are strings, kept as a list of entries in the order of the
names.  Names are ordered by code points, which is also the order of their UTF-8
bytes.  Because the order is part of the type, two maps with the same entries are
equal (`NameMap.ext_get?`), and whatever is printed from a map has one order.

`insert` replaces an entry of the same name, so that a map built from a list by
`ofList` holds for every name the value that was given last.
-/

namespace AccessRights

/-- Entries in strictly increasing order of their names. -/
structure NameMap (α : Type) where
  entries : List (String × α)
  sorted : entries.Pairwise fun a b => a.1 < b.1
  deriving DecidableEq

namespace NameMap

variable {α : Type}

/-- Puts an entry at its place in an ordered list, over an entry of the same name. -/
def insertEntry (name : String) (value : α) : List (String × α) → List (String × α)
  | [] => [(name, value)]
  | entry :: rest =>
    if name < entry.1 then (name, value) :: entry :: rest
    else if name = entry.1 then (name, value) :: rest
    else entry :: insertEntry name value rest

/-- Inserting adds no entry but the new one. -/
theorem mem_insertEntry {name : String} {value : α} {entry : String × α}
    {entries : List (String × α)} (h : entry ∈ insertEntry name value entries) :
    entry = (name, value) ∨ entry ∈ entries := by
  induction entries with
  | nil => exact Or.inl (List.mem_singleton.mp h)
  | cons first rest ih =>
    unfold insertEntry at h
    split at h
    · exact List.mem_cons.mp h
    · split at h
      · rcases List.mem_cons.mp h with h | h
        · exact Or.inl h
        · exact Or.inr (List.mem_cons_of_mem _ h)
      · rcases List.mem_cons.mp h with h | h
        · exact Or.inr (h ▸ List.mem_cons_self)
        · exact (ih h).imp_right (List.mem_cons_of_mem _)

/-- It keeps names in order. -/
theorem sorted_insertEntry (name : String) (value : α) {entries : List (String × α)}
    (h : entries.Pairwise fun a b => a.1 < b.1) :
    (insertEntry name value entries).Pairwise fun a b => a.1 < b.1 := by
  induction entries with
  | nil => exact List.pairwise_singleton _ _
  | cons first rest ih =>
    obtain ⟨hfirst, hrest⟩ := List.pairwise_cons.mp h
    unfold insertEntry
    split
    · next hlt =>
      refine List.pairwise_cons.mpr ⟨fun entry hentry => ?_, h⟩
      rcases List.mem_cons.mp hentry with rfl | hentry
      · exact hlt
      · exact String.lt_trans hlt (hfirst entry hentry)
    · next hlt =>
      split
      · next heq =>
        exact List.pairwise_cons.mpr ⟨fun entry hentry => heq ▸ hfirst entry hentry, hrest⟩
      · next hne =>
        refine List.pairwise_cons.mpr ⟨fun entry hentry => ?_, ih hrest⟩
        rcases mem_insertEntry hentry with rfl | hentry
        · exact Std.lt_of_le_of_ne (String.not_lt.mp hlt) (Ne.symm hne)
        · exact hfirst entry hentry

/-- The map without entries. -/
def empty : NameMap α :=
  ⟨[], List.Pairwise.nil⟩

/-- The map with the value of one name set, whether or not it had one. -/
def insert (map : NameMap α) (name : String) (value : α) : NameMap α :=
  ⟨insertEntry name value map.entries, sorted_insertEntry name value map.sorted⟩

/-- The map of a list of entries; of several with one name the last counts. -/
def ofList (entries : List (String × α)) : NameMap α :=
  entries.foldl (fun map entry => map.insert entry.1 entry.2) empty

/-- The value of a name. -/
def get? (map : NameMap α) (name : String) : Option α :=
  map.entries.lookup name

/-- The map has a value for the name. -/
def contains (map : NameMap α) (name : String) : Bool :=
  (map.get? name).isSome

/-- The names, in increasing order. -/
def keys (map : NameMap α) : List String :=
  map.entries.map (·.1)

/-- The map has no entries. -/
def isEmpty (map : NameMap α) : Bool :=
  map.entries.isEmpty

@[simp] theorem get?_empty (name : String) : (empty : NameMap α).get? name = none := rfl

theorem lookup_cons_eq_ite (name other : String) (value : α) (entries : List (String × α)) :
    ((name, value) :: entries).lookup other =
      if other = name then some value else entries.lookup other := by
  rw [List.lookup_cons]
  split
  · next h => rw [if_pos (beq_iff_eq.mp h)]
  · next h => rw [if_neg (beq_eq_false_iff_ne.mp h)]

/-- It sets the value of one name and leaves all others. -/
theorem lookup_insertEntry (name other : String) (value : α) (entries : List (String × α)) :
    (insertEntry name value entries).lookup other =
      if other = name then some value else entries.lookup other := by
  induction entries with
  | nil => exact lookup_cons_eq_ite name other value []
  | cons first rest ih =>
    obtain ⟨key, old⟩ := first
    unfold insertEntry
    split
    · exact lookup_cons_eq_ite ..
    · split
      · next heq =>
        change name = key at heq
        subst heq
        simp only [lookup_cons_eq_ite]
        split <;> rfl
      · next hne =>
        change name ≠ key at hne
        simp only [lookup_cons_eq_ite, ih]
        split
        · next heq => rw [if_neg (heq ▸ Ne.symm hne)]
        · rfl

@[simp] theorem get?_insert (map : NameMap α) (name other : String) (value : α) :
    (map.insert name value).get? other = if other = name then some value else map.get? other :=
  lookup_insertEntry name other value map.entries

/-- A name that comes before all others is not found. -/
theorem lookup_eq_none_of_lt {name : String} {entries : List (String × α)}
    (h : ∀ entry ∈ entries, name < entry.1) : entries.lookup name = none := by
  induction entries with
  | nil => rfl
  | cons first rest ih =>
    obtain ⟨key, value⟩ := first
    have hlt : name < key := h (key, value) List.mem_cons_self
    rw [lookup_cons_eq_ite, if_neg (String.ne_of_lt hlt)]
    exact ih fun entry hentry => h entry (List.mem_cons_of_mem _ hentry)

/-- Sorted entries are told by what is found in them. -/
theorem eq_of_lookup_eq {left right : List (String × α)}
    (hleft : left.Pairwise fun a b => a.1 < b.1) (hright : right.Pairwise fun a b => a.1 < b.1)
    (h : ∀ name, left.lookup name = right.lookup name) : left = right := by
  induction left generalizing right with
  | nil =>
    cases right with
    | nil => rfl
    | cons first rest =>
      have := h first.1
      rw [lookup_cons_eq_ite, if_pos rfl] at this
      cases this
  | cons first rest ih =>
    obtain ⟨key, value⟩ := first
    obtain ⟨hkey, hrest⟩ := List.pairwise_cons.mp hleft
    have hhead := h key
    rw [lookup_cons_eq_ite, if_pos rfl] at hhead
    cases right with
    | nil => cases hhead
    | cons other others =>
      obtain ⟨key', value'⟩ := other
      obtain ⟨hkey', hothers⟩ := List.pairwise_cons.mp hright
      have hhead' := h key'
      rw [lookup_cons_eq_ite key' key', if_pos rfl] at hhead'
      have heq : key = key' := by
        rcases Std.lt_trichotomy key key' with hlt | heq | hlt
        · rw [lookup_cons_eq_ite, if_neg (String.ne_of_lt hlt),
            lookup_eq_none_of_lt fun entry hentry => String.lt_trans hlt (hkey' entry hentry)]
            at hhead
          cases hhead
        · exact heq
        · rw [lookup_cons_eq_ite, if_neg (String.ne_of_lt hlt),
            lookup_eq_none_of_lt fun entry hentry => String.lt_trans hlt (hkey entry hentry)]
            at hhead'
          cases hhead'
      subst heq
      rw [lookup_cons_eq_ite, if_pos rfl] at hhead
      cases hhead
      have htail : rest = others := ih hrest hothers fun name => by
        have hname := h name
        rw [lookup_cons_eq_ite, lookup_cons_eq_ite] at hname
        split at hname
        · next heq =>
          subst heq
          rw [lookup_eq_none_of_lt hkey, lookup_eq_none_of_lt hkey']
        · exact hname
      rw [htail]

/-- **Extensionality.**  A map is determined by the values of the names. -/
theorem ext_get? {left right : NameMap α} (h : ∀ name, left.get? name = right.get? name) :
    left = right := by
  cases left with
  | mk leftEntries leftSorted =>
    cases right with
    | mk rightEntries rightSorted =>
      have : leftEntries = rightEntries := eq_of_lookup_eq leftSorted rightSorted h
      subst this
      rfl

end NameMap

end AccessRights
