import AccessRights.Proofs.TermsAgree
import AccessRights.Proofs.WellFormed
import Mathlib.Data.List.Induction
import Mathlib.Data.List.Nodup

/-!
# Listings lose no grant

A listing names those whom the grants of one scope are to, in the order of the document
and without repeats.  The entitlements of an evaluation are read from the same grants,
but of several to one name only the last stays in a map, and of several blocks that list
a file only the last decides.  So a listing may hold more than the entitlements do.  What
holds is that nothing these grant is missing from it (`Index.Listing.Covers`), and that
for the object, about which all blocks without files decide together, the names are the
same (`Index.Listing.MatchesObject`).

Bare names and names with rules are kept in lists of their own, and each is cleared of
repeats on its own.  They stay in step all the same (`Index.eraseDups_map_eraseDups`): where
a name comes for the first time so does the pair that it is in, so that to drop repeated
pairs before looking at names changes nothing.  This is an induction from the end of
a list, where an item is dropped for what stands in front of it
(`Index.eraseDups_concat`).
-/

namespace AccessRights

namespace Index

/-! ## Leaving out repeats -/

section Repeats

variable {α β : Type} [BEq α] [LawfulBEq α] [BEq β] [LawfulBEq β]

/-- The last item is left out exactly if it came before. -/
theorem eraseDups_concat (items : List α) (item : α) :
    (items ++ [item]).eraseDups =
      if item ∈ items then items.eraseDups else items.eraseDups ++ [item] := by
  rw [List.eraseDups_append]
  by_cases h : item ∈ items
  · have hseen : [item].removeAll items = [] := by simp [List.removeAll, h]
    rw [if_pos h, hseen, List.eraseDups_nil, List.append_nil]
  · have hnew : [item].removeAll items = [item] := by simp [List.removeAll, h]
    rw [if_neg h, hnew]
    rfl

/-- Leaving out repeats leaves none. -/
theorem nodup_eraseDups (items : List α) : items.eraseDups.Nodup := by
  induction items using List.reverseRecOn with
  | nil => exact List.nodup_nil
  | append_singleton items item ih =>
    rw [eraseDups_concat]
    by_cases h : item ∈ items
    · rw [if_pos h]
      exact ih
    · rw [if_neg h, ← List.concat_eq_append]
      exact ih.concat (mt List.mem_eraseDups.mp h)

/-- **Repeats may be left out before and after**: what is told of items without repeats is
told of all items, once repeats of it are left out too. -/
theorem eraseDups_map_eraseDups (f : α → β) (items : List α) :
    (items.eraseDups.map f).eraseDups = (items.map f).eraseDups := by
  induction items using List.reverseRecOn with
  | nil => rfl
  | append_singleton items item ih =>
    rw [eraseDups_concat, List.map_append, List.map_singleton, eraseDups_concat (items.map f)]
    by_cases h : item ∈ items
    · rw [if_pos h, ih, if_pos (List.mem_map_of_mem h)]
    · -- A new item may be told like an old one, and then it is left out on both sides.
      have hseen : f item ∈ items.eraseDups.map f ↔ f item ∈ items.map f := by
        simp only [List.mem_map, List.mem_eraseDups]
      rw [if_neg h, List.map_append, List.map_singleton, eraseDups_concat, ih]
      exact if_congr hseen rfl rfl

/-- Without repeats there is room for one item that all are equal to. -/
theorem eraseDups_eq_nil_or_singleton {items : List α} {item : α}
    (h : ∀ other ∈ items, other = item) :
    items.eraseDups = [] ∨ items.eraseDups = [item] := by
  have hnodup : items.eraseDups.Nodup := nodup_eraseDups items
  have hall : ∀ other ∈ items.eraseDups, other = item :=
    fun other hother => h other (List.mem_eraseDups.mp hother)
  cases herased : items.eraseDups with
  | nil => exact Or.inl rfl
  | cons first rest =>
    rw [herased] at hnodup hall
    obtain ⟨rfl, hrest⟩ := List.forall_mem_cons.mp hall
    refine Or.inr (congrArg (first :: ·) (List.eq_nil_iff_forall_not_mem.mpr ?_))
    intro other hother
    exact (List.nodup_cons.mp hnodup).1 (hrest other hother ▸ hother)

end Repeats

/-! ## What is recorded of grants -/

section Recorded

variable {grants : List Grant}

/-- What is recorded of the world is the rule of its right. -/
theorem mem_recordedWorld_iff {rule : Option String} :
    rule ∈ recordedWorld grants ↔ worldRight? grants = some (.granting rule) := by
  unfold recordedWorld worldRight?
  cases firstGrant? Vocabulary.world grants with
  | none => simp
  | some grant => simp [Right.granting, eq_comm]

/-- What is recorded of groups is the rule of the stanford group under its name. -/
theorem mem_recordedGroups_iff {named : NamedRule} :
    named ∈ recordedGroups grants ↔
      named.name = Vocabulary.stanford ∧
        stanfordRight? grants = some (.granting named.rule) := by
  obtain ⟨name, rule⟩ := named
  unfold recordedGroups stanfordRight?
  cases stanfordGrant? grants with
  | none => simp
  | some grant => simp [Right.granting, eq_comm]

/-- The right that a name has comes from a grant that is recorded. -/
theorem mem_recordedNames_of_get? {element name : String} {right : Right}
    (h : (rightsByText element grants).get? name = some right) :
    ⟨name, right.rule⟩ ∈ recordedNames element grants := by
  rw [get?_rightsByText, Option.map_eq_some_iff] at h
  obtain ⟨grant, hlast, rfl⟩ := h
  obtain ⟨hgrant, htext⟩ := List.mem_filter.mp (List.mem_of_getLast? hlast)
  refine List.mem_map.mpr ⟨grant, hgrant, ?_⟩
  rw [eq_of_beq htext]
  rfl

/-- The bare names that are listed of some grants are those that have a right by them. -/
theorem mem_names_iff_mem_keys {element name : String} :
    name ∈ (([grants].flatMap (recordedNames element)).map (·.name)).eraseDups ↔
      name ∈ (rightsByText element grants).keys := by
  rw [List.mem_eraseDups, List.flatMap_singleton, NameMap.mem_keys_iff, rightsByText,
    NameMap.isSome_get?_ofList_iff]
  simp [recordedNames]

end Recorded

/-! ## Listings in order -/

/-- No list of a listing has repeats, the bare names are those that come with rules, and
no group is named but the stanford group. -/
structure Listing.IsTidy (listing : Listing) : Prop where
  groups : listing.groups = (listing.groupRules.map (·.name)).eraseDups
  locations : listing.locations = (listing.locationRules.map (·.name)).eraseDups
  agents : listing.agents = (listing.agentRules.map (·.name)).eraseDups
  nodup_groups : listing.groups.Nodup
  nodup_locations : listing.locations.Nodup
  nodup_agents : listing.agents.Nodup
  nodup_worldRules : listing.worldRules.Nodup
  nodup_groupRules : listing.groupRules.Nodup
  nodup_locationRules : listing.locationRules.Nodup
  nodup_agentRules : listing.agentRules.Nodup
  stanford_only : listing.groups = [] ∨ listing.groups = [Vocabulary.stanford]

/-- **Every listing is in order**, whatever grants it is of. -/
theorem Listing.isTidy_ofGrants (scopes : List (List Grant)) : (ofGrants scopes).IsTidy where
  groups := (eraseDups_map_eraseDups _ _).symm
  locations := (eraseDups_map_eraseDups _ _).symm
  agents := (eraseDups_map_eraseDups _ _).symm
  nodup_groups := nodup_eraseDups _
  nodup_locations := nodup_eraseDups _
  nodup_agents := nodup_eraseDups _
  nodup_worldRules := nodup_eraseDups _
  nodup_groupRules := nodup_eraseDups _
  nodup_locationRules := nodup_eraseDups _
  nodup_agentRules := nodup_eraseDups _
  stanford_only := by
    refine eraseDups_eq_nil_or_singleton fun name hname => ?_
    obtain ⟨named, hnamed, rfl⟩ := List.mem_map.mp hname
    obtain ⟨grants, -, hrecorded⟩ := List.mem_flatMap.mp hnamed
    exact (mem_recordedGroups_iff.mp hrecorded).1

/-! ## Listings and entitlements -/

/-- Every right of the entitlements is in a listing, with its name and rule or for the
world with its rule alone. -/
structure Listing.Covers (listing : Listing) (entitlements : Entitlements) : Prop where
  world : ∀ rule, entitlements.world = some (.granting rule) → rule ∈ listing.worldRules
  group : ∀ name rule, entitlements.group.get? name = some (.granting rule) →
    ⟨name, rule⟩ ∈ listing.groupRules
  agent : ∀ agents, entitlements.agent = some agents → ∀ name right,
    agents.get? name = some right → ⟨name, right.rule⟩ ∈ listing.agentRules
  location : ∀ locations, entitlements.location = some locations → ∀ name right,
    locations.get? name = some right → ⟨name, right.rule⟩ ∈ listing.locationRules

section Covering

variable {scopes : List (List Grant)} {grants : List Grant}

/-- What is recorded of some grants that are listed is in the listing. -/
theorem mem_eraseDups_flatMap {α : Type} [BEq α] [LawfulBEq α] {record : List Grant → List α}
    {item : α} (h : grants ∈ scopes) (hitem : item ∈ record grants) :
    item ∈ (scopes.flatMap record).eraseDups :=
  List.mem_eraseDups.mpr (List.mem_flatMap.mpr ⟨grants, h, hitem⟩)

/-- Every scope in which the world has a right is in the listing, by its rule. -/
theorem Listing.mem_worldRules_of_worldRight? (h : grants ∈ scopes) {rule : Option String}
    (hworld : worldRight? grants = some (.granting rule)) :
    rule ∈ (ofGrants scopes).worldRules :=
  mem_eraseDups_flatMap h (mem_recordedWorld_iff.mpr hworld)

/-- So is every scope in which the stanford group has one. -/
theorem Listing.mem_groupRules_of_stanfordRight? (h : grants ∈ scopes) {rule : Option String}
    (hstanford : stanfordRight? grants = some (.granting rule)) :
    ⟨Vocabulary.stanford, rule⟩ ∈ (ofGrants scopes).groupRules :=
  mem_eraseDups_flatMap h (mem_recordedGroups_iff.mpr ⟨rfl, hstanford⟩)

/-- The listing has each agent of a scope with the rule that counts there. -/
theorem Listing.mem_agentRules_of_get? (h : grants ∈ scopes) {name : String} {right : Right}
    (hright : (rightsByText Vocabulary.agent grants).get? name = some right) :
    ⟨name, right.rule⟩ ∈ (ofGrants scopes).agentRules :=
  mem_eraseDups_flatMap h (mem_recordedNames_of_get? hright)

/-- And each place. -/
theorem Listing.mem_locationRules_of_get? (h : grants ∈ scopes) {name : String} {right : Right}
    (hright : (rightsByText Vocabulary.location grants).get? name = some right) :
    ⟨name, right.rule⟩ ∈ (ofGrants scopes).locationRules :=
  mem_eraseDups_flatMap h (mem_recordedNames_of_get? hright)

/-- A listing covers the files of every block that is listed. -/
theorem Listing.covers_ofFiles (h : grants ∈ scopes) :
    (ofGrants scopes).Covers (.ofFiles grants) where
  world _ hworld := mem_worldRules_of_worldRight? h hworld
  group := by
    intro name rule hgroup
    change ((stanfordRight? grants).elim NameMap.empty stanfordOnly).get? name = _ at hgroup
    cases hstanford : stanfordRight? grants with
    | none =>
      rw [hstanford] at hgroup
      cases hgroup
    | some right =>
      rw [hstanford] at hgroup
      obtain ⟨rfl, rfl⟩ := get?_stanfordOnly_eq_some_iff.mp hgroup
      exact mem_groupRules_of_stanfordRight? h hstanford
  agent := by
    intro agents hset name right hright
    obtain ⟨-, rfl⟩ := Entitlements.unlessEmpty_eq_some_iff.mp hset
    exact mem_agentRules_of_get? h hright
  location := by
    intro locations hset name right hright
    obtain ⟨-, rfl⟩ := Entitlements.unlessEmpty_eq_some_iff.mp hset
    exact mem_locationRules_of_get? h hright

/-- A right that is granted was found. -/
theorem eq_some_of_getD_denied_eq_granting {right? : Option Right} {rule : Option String}
    (h : right?.getD .denied = .granting rule) : right? = some (.granting rule) := by
  cases right? with
  | none => cases h
  | some right => exact congrArg some h

/-- A listing covers the object if the grants of the object are listed. -/
theorem Listing.covers_ofObject (h : grants ∈ scopes) :
    (ofGrants scopes).Covers (.ofObject grants) where
  world _ hworld :=
    mem_worldRules_of_worldRight? h
      (eq_some_of_getD_denied_eq_granting (Option.some.inj hworld))
  group := by
    intro name rule hgroup
    obtain ⟨rfl, hright⟩ := get?_stanfordOnly_eq_some_iff.mp hgroup
    exact mem_groupRules_of_stanfordRight? h (eq_some_of_getD_denied_eq_granting hright)
  agent := by
    intro agents hset name right hright
    cases hset
    exact mem_agentRules_of_get? h hright
  location := by
    intro locations hset name right hright
    cases hset
    exact mem_locationRules_of_get? h hright

end Covering

/-- A listing names those whom an evaluation names for the object. -/
structure Listing.MatchesObject (listing : Listing) (evaluation : Evaluation) : Prop where
  agents : ∃ agents, evaluation.object.agent = some agents ∧
    ∀ name, name ∈ listing.agents ↔ name ∈ agents.keys
  locations : ∃ locations, evaluation.object.location = some locations ∧
    ∀ name, name ∈ listing.locations ↔ name ∈ locations.keys
  world : listing.worldRules =
    if (evaluation.objectRight .world).granted then [(evaluation.objectRight .world).rule] else []
  stanford : listing.groupRules =
    if (evaluation.objectRight .stanford).granted then
      [⟨Vocabulary.stanford, (evaluation.objectRight .stanford).rule⟩]
    else []

/-- **What is listed of the object is what the object answers.** -/
theorem Listing.matchesObject_ofGrants {grants : List Grant} {evaluation : Evaluation}
    (h : evaluation.object = .ofObject grants) : (ofGrants [grants]).MatchesObject evaluation where
  agents := ⟨_, congrArg Entitlements.agent h, fun _ => mem_names_iff_mem_keys⟩
  locations := ⟨_, congrArg Entitlements.location h, fun _ => mem_names_iff_mem_keys⟩
  world := by
    show ([grants].flatMap recordedWorld).eraseDups = _
    rw [objectRight_world h, List.flatMap_singleton, recordedWorld]
    cases firstGrant? Vocabulary.world grants <;> rfl
  stanford := by
    show ([grants].flatMap recordedGroups).eraseDups = _
    rw [objectRight_stanford h, List.flatMap_singleton, recordedGroups]
    cases stanfordGrant? grants <;> rfl

/-- The listings of a summary are in order, and none of the rights of an evaluation is
missing from them. -/
structure Summary.ListsRights (summary : Summary) (evaluation : Evaluation) : Prop where
  object_tidy : summary.object.IsTidy
  files_tidy : summary.files.IsTidy
  object_matches : summary.object.MatchesObject evaluation
  object_covers : summary.object.Covers evaluation.object
  files_cover : ∀ file entitlements, evaluation.files.get? file = some entitlements →
    summary.files.Covers entitlements

end Index

namespace Document

variable {document : Document} {options : Options} {now : Calendar.Instant}
  {evaluation : Evaluation}

/-- **The listings of an evaluated document lose no grant and repeat none**, and those of
the object name whom the answers name. -/
theorem listsRights_of_evaluate (h : document.view.evaluate options now = .ok evaluation)
    (hindex : options.forIndex = true) :
    ∃ summary, evaluation.summary = .ok summary ∧ summary.ListsRights evaluation := by
  have hsummary := Index.Summary.ofMetadata_eq document.metadata_blocks_of_absent
  have hobject := congrArg Index.Summary.object hsummary
  have hfiles := congrArg Index.Summary.files hsummary
  have hentitled := View.object_of_evaluate h
  refine ⟨_, View.summary_of_evaluate h hindex, ?_⟩
  constructor
  case object_tidy =>
    rw [hobject]
    exact Index.Listing.isTidy_ofGrants _
  case files_tidy =>
    rw [hfiles]
    exact Index.Listing.isTidy_ofGrants _
  case object_matches =>
    rw [hobject]
    exact Index.Listing.matchesObject_ofGrants hentitled
  case object_covers =>
    rw [hobject, hentitled]
    exact Index.Listing.covers_ofObject (List.mem_singleton_self _)
  case files_cover =>
    intro file entitlements hfile
    rw [View.files_of_evaluate h] at hfile
    obtain ⟨block, hblock, rfl⟩ := Metadata.exists_of_get?_fileEntitlements hfile
    rw [hfiles]
    exact Index.Listing.covers_ofFiles (List.mem_map_of_mem hblock)

/-- Names one agent twice under different rules, and lists one file in two blocks. -/
def renamed : Document :=
  ⟨.element "rightsMetadata" []
    (.element "access" [("type", "read")]
      (.element "machine" []
        (.element "agent" [("rule", "a")] (.text "app" .nil)
        (.element "agent" [("rule", "b")] (.text "app" .nil)
        (.element "world" [("rule", "vpn")] .nil .nil))) .nil)
    (.element "access" [("type", "read")]
      (.element "file" [] (.text "a.pdf" .nil)
        (.element "machine" []
          (.element "location" [("rule", "early")] (.text "desk" .nil) .nil) .nil))
    (.element "access" [("type", "read")]
      (.element "file" [] (.text "a.pdf" .nil)
        (.element "machine" []
          (.element "location" [("rule", "late")] (.text "desk" .nil) .nil) .nil))
      .nil))) .nil⟩

theorem listsRights_renamed : ∃ evaluation summary,
    renamed.view.evaluate .indexing ⟨0, 0⟩ = .ok evaluation ∧
      evaluation.summary = .ok summary ∧
      "app" ∈ summary.object.agents ∧
      ⟨"app", some "b"⟩ ∈ summary.object.agentRules ∧
      summary.object.worldRules = [some "vpn"] ∧
      summary.object.groupRules = [] ∧
      ⟨"desk", some "late"⟩ ∈ summary.files.locationRules ∧
      summary.files.groups.Nodup := by
  have h : renamed.view.evaluate .indexing ⟨0, 0⟩ = .ok _ := rfl
  obtain ⟨summary, hsummary, hlists⟩ := listsRights_of_evaluate h rfl
  refine ⟨_, summary, h, hsummary, ?_, ?_, ?_, ?_, ?_, hlists.files_tidy.nodup_groups⟩
  · obtain ⟨agents, hset, hnames⟩ := hlists.object_matches.agents
    cases hset
    exact (hnames "app").mpr (by decide)
  · exact hlists.object_covers.agent _ rfl "app" (.granting (some "b")) rfl
  · exact hlists.object_matches.world
  · exact hlists.object_matches.stanford
  · exact (hlists.files_cover "a.pdf" _ rfl).location _ rfl "desk" (.granting (some "late")) rfl

end Document

end AccessRights
