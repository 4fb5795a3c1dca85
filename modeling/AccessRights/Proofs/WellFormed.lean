import AccessRights.Proofs.Evaluated

/-!
# Well-formed evaluations

What the questions to an evaluation rely on.  The object has an entitlement of every
kind, and the stanford group is the only group in it; what a file sets is always a
grant, and a map of agents or places that a file sets names somebody, so that a file
never takes a question away from the object only to have no answer of its own.

The properties are stated for one scope each (`Entitlements.FitsObject`,
`Entitlements.FitsFile`).  Both are met by what is read from any list of grants
whatsoever, which is why the many ways in which a document can spread, repeat or omit
its grants need no case of their own.
-/

namespace AccessRights

/-- A right that is not granted has no rule. -/
def Right.Coherent (right : Right) : Prop :=
  right.granted = false → right.rule = none

namespace Right.Coherent

/-- What is granted is coherent, with a rule or without. -/
theorem of_granted {right : Right} (h : right.granted = true) : right.Coherent := by
  intro hdenied
  rw [h] at hdenied
  cases hdenied

theorem denied : Right.denied.Coherent := fun _ => rfl

/-- So is a right that is looked for, as what is not found is denied. -/
theorem getD_denied {right? : Option Right} (h : ∀ right, right? = some right → right.Coherent) :
    (right?.getD .denied).Coherent := by
  cases right? with
  | none => exact denied
  | some right => exact h right rfl

/-- A rule never comes with a denial. -/
theorem ne_mk_false_some {right : Right} (h : right.Coherent) (rule : String) :
    right ≠ ⟨false, some rule⟩ := by
  rintro rfl
  cases h rfl

end Right.Coherent

namespace Entitlements

/-- The right stands in some field of the entitlements, for anybody. -/
inductive Holds (entitlements : Entitlements) : Right → Prop
  | world {right : Right} (h : entitlements.world = some right) : entitlements.Holds right
  | group {name : String} {right : Right} (h : entitlements.group.get? name = some right) :
    entitlements.Holds right
  | agent {agents : NameMap Right} {name : String} {right : Right}
    (hset : entitlements.agent = some agents) (h : agents.get? name = some right) :
    entitlements.Holds right
  | location {locations : NameMap Right} {name : String} {right : Right}
    (hset : entitlements.location = some locations) (h : locations.get? name = some right) :
    entitlements.Holds right
  | lending {right : Right} (h : entitlements.lending = some right) : entitlements.Holds right

/-- What the object entitles to is complete. -/
structure FitsObject (entitlements : Entitlements) : Prop where
  world_isSome : entitlements.world.isSome
  agent_isSome : entitlements.agent.isSome
  location_isSome : entitlements.location.isSome
  lending_isSome : entitlements.lending.isSome
  group_keys : entitlements.group.keys = [Vocabulary.stanford]
  agent_granted : ∀ agents, entitlements.agent = some agents →
    ∀ name right, agents.get? name = some right → right.granted = true
  location_granted : ∀ locations, entitlements.location = some locations →
    ∀ name right, locations.get? name = some right → right.granted = true
  coherent : ∀ right, entitlements.Holds right → right.Coherent

/-- What files are entitled to is granted throughout, and no field is set for nobody. -/
structure FitsFile (entitlements : Entitlements) : Prop where
  group_keys : entitlements.group.keys = [] ∨ entitlements.group.keys = [Vocabulary.stanford]
  granted : ∀ right, entitlements.Holds right → right.granted = true
  agent_nonempty : ∀ agents, entitlements.agent = some agents → agents.isEmpty = false
  location_nonempty : ∀ locations, entitlements.location = some locations →
    locations.isEmpty = false

/-- An answer is a right that is held, or a denial to somebody who is not named. -/
theorem holds_or_eq_denied_of_answer? {entitlements : Entitlements} {audience : Audience}
    {right : Right} (h : entitlements.answer? audience = some right) :
    entitlements.Holds right ∨ right = .denied := by
  cases audience with
  | world => exact Or.inl (.world h)
  | stanford => exact Or.inl (.group h)
  | agent name =>
    obtain ⟨agents, hset, rfl⟩ := Option.map_eq_some_iff.mp h
    cases hname : agents.get? name with
    | none => exact Or.inr rfl
    | some right => exact Or.inl (.agent hset hname)
  | location name =>
    obtain ⟨locations, hset, rfl⟩ := Option.map_eq_some_iff.mp h
    cases hname : locations.get? name with
    | none => exact Or.inr rfl
    | some right => exact Or.inl (.location hset hname)
  | lending => exact Or.inl (.lending h)

/-- Every answer about the object is coherent. -/
theorem FitsObject.coherent_answer {entitlements : Entitlements} (h : entitlements.FitsObject)
    (audience : Audience) : ((entitlements.answer? audience).getD .denied).Coherent := by
  refine Right.Coherent.getD_denied fun right hright => ?_
  rcases holds_or_eq_denied_of_answer? hright with hholds | rfl
  · exact h.coherent right hholds
  · exact Right.Coherent.denied

/-- And every answer about a file that the file itself gives. -/
theorem FitsFile.coherent_answer {entitlements : Entitlements} (h : entitlements.FitsFile)
    {audience : Audience} {right : Right} (hright : entitlements.answer? audience = some right) :
    right.Coherent := by
  rcases holds_or_eq_denied_of_answer? hright with hholds | rfl
  · exact Right.Coherent.of_granted (h.granted right hholds)
  · exact Right.Coherent.denied

/-! ## What is read from grants is well-formed -/

/-- Whatever grant a right is read from, the right is granted. -/
theorem granted_of_map_granting {grant? : Option Grant} {rule : Grant → Option String}
    {right : Right} (h : (grant?.map fun grant => Right.granting (rule grant)) = some right) :
    right.granted = true := by
  obtain ⟨grant, -, rfl⟩ := Option.map_eq_some_iff.mp h
  rfl

/-- What is kept by text is granted, since only grants are kept. -/
theorem granted_of_get?_rightsByText {element name : String} {grants : List Grant}
    {right : Right} (h : (rightsByText element grants).get? name = some right) :
    right.granted = true := by
  rw [get?_rightsByText] at h
  exact granted_of_map_granting h

theorem coherent_getD_map_granting (grant? : Option Grant) (rule : Grant → Option String) :
    ((grant?.map fun grant => Right.granting (rule grant)).getD .denied).Coherent :=
  Right.Coherent.getD_denied fun _ h => Right.Coherent.of_granted (granted_of_map_granting h)

theorem keys_stanfordOnly (right : Right) : (stanfordOnly right).keys = [Vocabulary.stanford] := rfl

/-- The map of the stanford group holds the one right that it was made of. -/
theorem eq_of_get?_stanfordOnly {given right : Right} {name : String}
    (h : (stanfordOnly given).get? name = some right) : right = given :=
  (get?_stanfordOnly_eq_some_iff.mp h).2.symm

/-- A map that is set has an entry. -/
theorem unlessEmpty_eq_some_iff {rights set : NameMap Right} :
    unlessEmpty rights = some set ↔ rights.isEmpty = false ∧ rights = set := by
  unfold unlessEmpty
  cases rights.isEmpty <;> simp

/-- **The object's entitlements are complete**, whatever its grants are. -/
theorem fitsObject_ofObject (grants : List Grant) : (ofObject grants).FitsObject where
  world_isSome := rfl
  agent_isSome := rfl
  location_isSome := rfl
  lending_isSome := rfl
  group_keys := keys_stanfordOnly _
  agent_granted := by
    intro agents hset name right h
    cases hset
    exact granted_of_get?_rightsByText h
  location_granted := by
    intro locations hset name right h
    cases hset
    exact granted_of_get?_rightsByText h
  coherent := by
    intro right hholds
    -- Named agents and places are granted; the other fields hold a grant or the default.
    cases hholds with
    | world h => exact Option.some.inj h ▸ coherent_getD_map_granting _ _
    | group h => exact eq_of_get?_stanfordOnly h ▸ coherent_getD_map_granting _ _
    | agent hset h =>
      cases hset
      exact Right.Coherent.of_granted (granted_of_get?_rightsByText h)
    | location hset h =>
      cases hset
      exact Right.Coherent.of_granted (granted_of_get?_rightsByText h)
    | lending h => exact Option.some.inj h ▸ coherent_getD_map_granting _ _

/-- **What a file is entitled to is granted**, whatever the grants of its block are. -/
theorem fitsFile_ofFiles (grants : List Grant) : (ofFiles grants).FitsFile where
  group_keys := by
    show ((stanfordRight? grants).elim NameMap.empty stanfordOnly).keys = [] ∨
      ((stanfordRight? grants).elim NameMap.empty stanfordOnly).keys = _
    cases stanfordRight? grants with
    | none => exact Or.inl rfl
    | some right => exact Or.inr (keys_stanfordOnly right)
  granted := by
    intro right hholds
    cases hholds with
    | world h => exact granted_of_map_granting h
    | group h =>
      change ((stanfordRight? grants).elim NameMap.empty stanfordOnly).get? _ = some right at h
      cases hstanford : stanfordRight? grants with
      | none =>
        rw [hstanford] at h
        cases h
      | some given =>
        rw [hstanford] at h
        exact eq_of_get?_stanfordOnly h ▸ granted_of_map_granting hstanford
    | agent hset h =>
      obtain ⟨-, rfl⟩ := unlessEmpty_eq_some_iff.mp hset
      exact granted_of_get?_rightsByText h
    | location hset h =>
      obtain ⟨-, rfl⟩ := unlessEmpty_eq_some_iff.mp hset
      exact granted_of_get?_rightsByText h
    | lending h => exact granted_of_map_granting h
  agent_nonempty := by
    intro agents hset
    obtain ⟨hnonempty, rfl⟩ := unlessEmpty_eq_some_iff.mp hset
    exact hnonempty
  location_nonempty := by
    intro locations hset
    obtain ⟨hnonempty, rfl⟩ := unlessEmpty_eq_some_iff.mp hset
    exact hnonempty

end Entitlements

/-! ## Evaluations -/

/-- The object and all files of an evaluation have entitlements that fit them. -/
structure Evaluation.WellFormed (evaluation : Evaluation) : Prop where
  object : evaluation.object.FitsObject
  files : ∀ file entitlements, evaluation.files.get? file = some entitlements →
    entitlements.FitsFile

namespace Evaluation.WellFormed

variable {evaluation : Evaluation}

/-- No answer about the object denies with a rule. -/
theorem coherent_objectRight (h : evaluation.WellFormed) (audience : Audience) :
    (evaluation.objectRight audience).Coherent :=
  h.object.coherent_answer audience

/-- Nor does one about a file, which may be that of the object. -/
theorem coherent_fileRight (h : evaluation.WellFormed) (file : String) (audience : Audience) :
    (evaluation.fileRight file audience).Coherent := by
  unfold Evaluation.fileRight
  cases hanswer : (evaluation.files.get? file).bind (·.answer? audience) with
  | none => exact h.coherent_objectRight audience
  | some right =>
    obtain ⟨entitlements, hfile, hright⟩ := Option.bind_eq_some_iff.mp hanswer
    exact (h.files file entitlements hfile).coherent_answer hright

/-- An agent is named exactly if it is granted something. -/
theorem namesAgent_eq_granted (h : evaluation.WellFormed) (agent : String) :
    evaluation.namesAgent agent = (evaluation.objectRight (.agent agent)).granted := by
  obtain ⟨agents, hset⟩ := Option.isSome_iff_exists.mp h.object.agent_isSome
  have hright : evaluation.objectRight (.agent agent) = (agents.get? agent).getD .denied := by
    rw [Evaluation.objectRight, Entitlements.answer?, hset]
    rfl
  rw [Evaluation.namesAgent, hset, Option.any_some, hright, NameMap.contains]
  cases hname : agents.get? agent with
  | none => rfl
  | some right => exact (h.object.agent_granted agents hset agent right hname).symm

end Evaluation.WellFormed

/-- What a file is entitled to is what some block of files grants. -/
theorem Metadata.exists_of_get?_fileEntitlements {metadata : Metadata} {file : String}
    {entitlements : Entitlements} (h : metadata.fileEntitlements.get? file = some entitlements) :
    ∃ block ∈ metadata.blocksOf .read .files, entitlements = .ofFiles block.grants := by
  rw [Metadata.fileEntitlements, NameMap.get?_ofList_flatMap, Option.map_eq_some_iff] at h
  obtain ⟨block, hlast, rfl⟩ := h
  exact ⟨block, (List.mem_filter.mp (List.mem_of_getLast? hlast)).1, rfl⟩

/-- Entitlements of a file come from some block. -/
theorem Metadata.fitsFile_of_get?_fileEntitlements {metadata : Metadata} {file : String}
    {entitlements : Entitlements} (h : metadata.fileEntitlements.get? file = some entitlements) :
    entitlements.FitsFile := by
  obtain ⟨block, -, rfl⟩ := Metadata.exists_of_get?_fileEntitlements h
  exact Entitlements.fitsFile_ofFiles block.grants

namespace View

variable {ν : Type} {view : View ν} {options : Options} {now : Calendar.Instant}
  {evaluation : Evaluation}

/-- **Every evaluation is well formed**, whatever the view. -/
theorem wellFormed_of_evaluate (h : view.evaluate options now = .ok evaluation) :
    evaluation.WellFormed where
  object := by
    rw [object_of_evaluate h]
    exact Entitlements.fitsObject_ofObject _
  files := by
    intro file entitlements hfile
    rw [files_of_evaluate h] at hfile
    exact Metadata.fitsFile_of_get?_fileEntitlements hfile

/-- **Every evaluation is well-formed**, and so no answer is a denial under a rule, and
the agents that the object names are those it grants something to. -/
theorem coherent_of_evaluate (h : view.evaluate options now = .ok evaluation) :
    evaluation.WellFormed ∧
      (∀ audience rule, evaluation.objectRight audience ≠ ⟨false, some rule⟩) ∧
      (∀ file audience rule, evaluation.fileRight file audience ≠ ⟨false, some rule⟩) ∧
      ∀ agent, evaluation.namesAgent agent = true ↔
        (evaluation.objectRight (.agent agent)).granted = true := by
  have hwell : evaluation.WellFormed := wellFormed_of_evaluate h
  refine ⟨hwell, ?_, ?_, ?_⟩
  · intro audience rule
    exact (hwell.coherent_objectRight audience).ne_mk_false_some rule
  · intro file audience rule
    exact (hwell.coherent_fileRight file audience).ne_mk_false_some rule
  · intro agent
    rw [hwell.namesAgent_eq_granted agent]

end View

/-- Grants to one agent under a rule, and lists a file without any grant. -/
def Document.oneAgent : Document :=
  ⟨.element "rightsMetadata" []
    (.element "access" [("type", "read")]
      (.element "machine" []
        (.element "agent" [("rule", "no-download")] (.text "app" .nil) .nil) .nil)
    (.element "access" [("type", "read")]
      (.element "file" [] (.text "a.pdf" .nil) .nil) .nil)) .nil⟩

theorem View.coherent_of_evaluate_oneAgent : ∃ evaluation,
    Document.oneAgent.view.evaluate .default ⟨0, 0⟩ = .ok evaluation ∧
      evaluation.WellFormed ∧
      evaluation.fileRight "a.pdf" (.agent "other") ≠ ⟨false, some "no-download"⟩ ∧
      evaluation.namesAgent "app" = true := by
  have h : Document.oneAgent.view.evaluate .default ⟨0, 0⟩ = .ok _ := rfl
  obtain ⟨hwell, -, hfile, hagent⟩ := coherent_of_evaluate h
  exact ⟨_, h, hwell, hfile "a.pdf" (.agent "other") "no-download", (hagent "app").mpr rfl⟩

end AccessRights
