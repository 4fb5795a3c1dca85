import AccessRights.Evaluation.Basic

/-!
# Records make no difference

Grants are read with a record kept on the way, or without one.  This module says what comes
out of reading, and what of the record, each without the other: the entitlements are those of
`Entitlements.ofObject` and `Entitlements.ofFiles`, whatever is recorded, and a record grows by
what `Index.recordedWorld` and its like find in the grants, in their order.

## What carries the argument

`run_readEntitlements` has both sides in one equation, for any record to start with or for none.
The state of reading is left open in it, so that it can be used block after block: one record
goes through all the blocks for files (`run_readFiles`).  In the outcome the record occurs on the
right side of the pair only, which is all that is needed to tell that it changes no answer.

`Metadata.evaluate_eq` takes evaluation apart with it.  Everything further on starts from there
and knows nothing of records.
-/

namespace AccessRights

open AccessRights.Index

/-! ## What a record has in the end -/

namespace Index.Listing

/-- The listing with entries for places written behind. -/
def addLocations (named : List NamedRule) (listing : Listing) : Listing :=
  { listing with
    locations := listing.locations ++ named.map (·.name)
    locationRules := listing.locationRules ++ named }

/-- The listing with entries for agents written behind. -/
def addAgents (named : List NamedRule) (listing : Listing) : Listing :=
  { listing with
    agents := listing.agents ++ named.map (·.name)
    agentRules := listing.agentRules ++ named }

/-- The listing with all that the grants of one scope add to it. -/
def addGrants (grants : List Grant) (listing : Listing) : Listing where
  groups := listing.groups ++ (recordedGroups grants).map (·.name)
  locations := listing.locations ++ (recordedNames Vocabulary.location grants).map (·.name)
  agents := listing.agents ++ (recordedNames Vocabulary.agent grants).map (·.name)
  worldRules := listing.worldRules ++ recordedWorld grants
  groupRules := listing.groupRules ++ recordedGroups grants
  locationRules := listing.locationRules ++ recordedNames Vocabulary.location grants
  agentRules := listing.agentRules ++ recordedNames Vocabulary.agent grants

/-- Entries that are written one after the other are written behind. -/
theorem foldl_entry {entry : String → Option String → Listing → Listing}
    {add : List NamedRule → Listing → Listing} (hnil : ∀ listing, add [] listing = listing)
    (hcons : ∀ named rest listing,
      add (named :: rest) listing = add rest (entry named.name named.rule listing))
    (grants : List Grant) (listing : Listing) :
    grants.foldl (fun listing grant => entry grant.text grant.rule listing) listing =
      add (grants.map fun grant => ⟨grant.text, grant.rule⟩) listing := by
  induction grants generalizing listing with
  | nil => exact (hnil listing).symm
  | cons grant grants ih => rw [List.foldl_cons, ih, List.map_cons, hcons]

theorem foldl_recordLocation (grants : List Grant) (listing : Listing) :
    grants.foldl (fun listing grant => recordLocation grant.text grant.rule listing) listing =
      addLocations (grants.map fun grant => ⟨grant.text, grant.rule⟩) listing := by
  apply foldl_entry
  · intro listing
    simp [addLocations]
  · intro named rest listing
    simp [addLocations, recordLocation]

theorem foldl_recordAgent (grants : List Grant) (listing : Listing) :
    grants.foldl (fun listing grant => recordAgent grant.text grant.rule listing) listing =
      addAgents (grants.map fun grant => ⟨grant.text, grant.rule⟩) listing := by
  apply foldl_entry
  · intro listing
    simp [addAgents]
  · intro named rest listing
    simp [addAgents, recordAgent]

/-- What several lists of grants add, one after the other. -/
theorem foldl_addGrants (scopes : List (List Grant)) (listing : Listing) :
    scopes.foldl (fun listing grants => addGrants grants listing) listing =
      { groups := listing.groups ++ (scopes.flatMap recordedGroups).map (·.name)
        locations :=
          listing.locations ++ (scopes.flatMap (recordedNames Vocabulary.location)).map (·.name)
        agents := listing.agents ++ (scopes.flatMap (recordedNames Vocabulary.agent)).map (·.name)
        worldRules := listing.worldRules ++ scopes.flatMap recordedWorld
        groupRules := listing.groupRules ++ scopes.flatMap recordedGroups
        locationRules :=
          listing.locationRules ++ scopes.flatMap (recordedNames Vocabulary.location)
        agentRules := listing.agentRules ++ scopes.flatMap (recordedNames Vocabulary.agent) } := by
  induction scopes generalizing listing with
  | nil => simp
  | cons grants scopes ih =>
    rw [List.foldl_cons, ih]
    simp only [addGrants, List.flatMap_cons, List.map_append, List.append_assoc]

/-- **A record that starts with nothing is a listing of the grants**, once repeats are left
out. -/
theorem withoutRepeats_foldl_addGrants (scopes : List (List Grant)) :
    (scopes.foldl (fun listing grants => addGrants grants listing) empty).withoutRepeats =
      ofGrants scopes := by
  rw [foldl_addGrants]
  rfl

end Index.Listing

/-! ## Reading grants -/

/-- The entitlements of the grants of a scope. -/
def Scope.entitlements : Scope → List Grant → Entitlements
  | .object => .ofObject
  | .files => .ofFiles

section Reading

variable {kept : Option Listing}

/-- Reading goes on with what came out of the first step, and with its record. -/
theorem run_bind_of_eq {α β : Type} {first : Recording α} {next : α → Recording β} {value : α}
    {after : Option Listing} (h : first.run kept = (value, after)) :
    (first >>= next).run kept = (next value).run after := by
  show (next (first.run kept).1).run (first.run kept).2 = _
  rw [h]

/-- **What a step does to a record, a loop does step by step.**  No step looks at the record, and
neither does the loop. -/
theorem run_foldlM {α β : Type} {step : β → α → Recording β} {next : β → α → β}
    {entry : α → Listing → Listing}
    (hstep : ∀ value item kept,
      (step value item).run kept = (next value item, kept.map (entry item)))
    (items : List α) (value : β) :
    (items.foldlM step value).run kept =
      (items.foldl next value,
        kept.map fun listing => items.foldl (fun listing item => entry item listing) listing) := by
  induction items generalizing value kept with
  | nil =>
    show (value, kept) = (value, kept.map id)
    rw [Option.map_id_fun, id]
  | cons item items ih =>
    rw [List.foldlM_cons, run_bind_of_eq (hstep value item kept), ih, Option.map_map]
    rfl

/-- A grant gives its right, and adds its entry to a record. -/
theorem run_readGrant (entry : Option String → Listing → Listing) (found : Option Grant) :
    (readGrant entry found).run kept =
      (found.map fun grant => .granting grant.rule,
        kept.map fun listing => found.elim listing fun grant => entry grant.rule listing) := by
  cases found with
  | none =>
    show (none, kept) = (none, kept.map id)
    rw [Option.map_id_fun, id]
  | some grant => rfl

/-- Grants give a map with the last right for every text, and add all their entries to a
record. -/
theorem run_readByText (entry : String → Option String → Listing → Listing)
    (grants : List Grant) :
    (readByText entry grants).run kept =
      (.ofList (grants.map fun grant => (grant.text, .granting grant.rule)),
        kept.map fun listing =>
          grants.foldl (fun listing grant => entry grant.text grant.rule listing) listing) := by
  rw [NameMap.ofList, List.foldl_map]
  exact run_foldlM (fun _ _ _ => rfl) grants NameMap.empty

/-- What the two scopes make of the rights that the grants give is what the grants entitle
to. -/
theorem settle_eq_entitlements (scope : Scope) (grants : List Grant) :
    { world := scope.settle (worldRight? grants)
      group := (scope.settle (stanfordRight? grants)).elim .empty stanfordOnly
      agent := scope.settleMap (rightsByText Vocabulary.agent grants)
      location := scope.settleMap (rightsByText Vocabulary.location grants)
      lending := scope.settle (lendingRight? grants) } = scope.entitlements grants := by
  cases scope with
  | object => rfl
  | files =>
    have hmap : ∀ rights, Scope.files.settleMap rights = Entitlements.unlessEmpty rights := by
      intro rights
      unfold Scope.settleMap Entitlements.unlessEmpty
      cases rights.isEmpty <;> rfl
    rw [hmap, hmap]
    rfl

/-- The entries that the grants add, one kind after the other. -/
theorem record_eq_addGrants (grants : List Grant) (listing : Listing) :
    (grantsNamed Vocabulary.location grants).foldl
        (fun listing grant => listing.recordLocation grant.text grant.rule)
      ((grantsNamed Vocabulary.agent grants).foldl
        (fun listing grant => listing.recordAgent grant.text grant.rule)
        ((stanfordGrant? grants).elim
          ((firstGrant? Vocabulary.world grants).elim listing fun grant =>
            listing.recordWorld grant.rule)
          fun grant => Listing.recordGroup Vocabulary.stanford grant.rule
            ((firstGrant? Vocabulary.world grants).elim listing fun grant =>
              listing.recordWorld grant.rule))) =
      listing.addGrants grants := by
  have hworld : ((firstGrant? Vocabulary.world grants).elim listing fun grant =>
      listing.recordWorld grant.rule) =
        { listing with worldRules := listing.worldRules ++ recordedWorld grants } := by
    unfold recordedWorld
    cases firstGrant? Vocabulary.world grants with
    | none => simp
    | some grant => rfl
  have hgroup : ∀ listing : Listing,
      ((stanfordGrant? grants).elim listing fun grant =>
        listing.recordGroup Vocabulary.stanford grant.rule) =
        { listing with
          groups := listing.groups ++ (recordedGroups grants).map (·.name)
          groupRules := listing.groupRules ++ recordedGroups grants } := by
    intro listing
    unfold recordedGroups
    cases stanfordGrant? grants with
    | none => simp
    | some grant => rfl
  rw [hworld, hgroup, Listing.foldl_recordAgent, Listing.foldl_recordLocation]
  rfl

/-- **Reading the grants of a scope** gives what they entitle to, and adds to a record what they
are. -/
theorem run_readEntitlements (scope : Scope) (grants : List Grant) :
    (readEntitlements scope grants).run kept =
      (scope.entitlements grants, kept.map (Listing.addGrants grants)) := by
  rw [readEntitlements, run_bind_of_eq (run_readGrant _ _), run_bind_of_eq (run_readGrant _ _),
    run_bind_of_eq (run_readByText _ _), run_bind_of_eq (run_readByText _ _)]
  rw [Option.map_map, Option.map_map, Option.map_map]
  refine Prod.ext (settle_eq_entitlements scope grants) (congrArg kept.map ?_)
  exact funext (record_eq_addGrants grants)

/-- **Reading the blocks for files** gives every file what the last block that names it entitles
to, and adds to a record what the grants of all the blocks are. -/
theorem run_readFiles (blocks : List Block) :
    (readFiles blocks).run kept =
      (.ofList (blocks.flatMap fun block => block.files.map fun file =>
          (file, .ofFiles block.grants)),
        kept.map fun listing =>
          (blocks.map Block.grants).foldl (fun listing grants => listing.addGrants grants)
            listing) := by
  rw [NameMap.ofList, List.foldl_flatMap]
  simp only [List.foldl_map]
  refine run_foldlM ?_ blocks NameMap.empty
  intro files block kept
  rw [run_bind_of_eq (run_readEntitlements .files block.grants)]
  rfl

end Reading

/-! ## Evaluation without records -/

/-- Where a record is kept, the summary lists all grants of either scope. -/
theorem Index.Summary.ofRecords_eq {metadata : Metadata} {kept : Option Listing}
    (hkept : metadata.isPresent = true → kept = some .empty) :
    ofRecords metadata
        ((kept.map fun listing => listing.addGrants (metadata.grantsOf .read .object)).getD .empty)
        ((kept.map fun listing => ((metadata.blocksOf .read .files).map Block.grants).foldl
          (fun listing grants => listing.addGrants grants) listing).getD .empty) =
      ofMetadata metadata := by
  unfold ofRecords ofMetadata withListings
  split
  · next hpresent =>
    have hobject : (Listing.empty.addGrants (metadata.grantsOf .read .object)).withoutRepeats =
        .ofGrants [metadata.grantsOf .read .object] :=
      Listing.withoutRepeats_foldl_addGrants [metadata.grantsOf .read .object]
    rw [hkept hpresent, Option.map_some, Option.getD_some, Option.map_some, Option.getD_some,
      hobject, Listing.withoutRepeats_foldl_addGrants]
  · rfl

/-- **Records change no answer**: what evaluation gives, with no word on how grants are read. -/
theorem Metadata.evaluate_eq (metadata : Metadata) (options : Options) (now : Calendar.Instant) :
    metadata.evaluate options now =
      (readRelease metadata.releaseDate?).map fun release =>
        { object := metadata.objectEntitlements
          files := metadata.fileEntitlements
          release := release
          isEmbargoed := release.any fun date => decide (options.evaluatedAt.getD now < date)
          index := if options.forIndex then some (.ofMetadata metadata) else none } := by
  unfold evaluate
  simp only [run_readEntitlements, run_readFiles]
  cases hindex : options.forIndex with
  | true =>
    have hkept : metadata.isPresent = true →
        (if true && metadata.isPresent then some Listing.empty else none) = some .empty := by
      intro hpresent
      rw [hpresent]
      rfl
    rw [Index.Summary.ofRecords_eq hkept]
    rfl
  | false => rfl

end AccessRights
