import AccessRights.Proofs.Evaluated
import AccessRights.Proofs.GrantElements

/-!
# Answers follow the document

What an evaluation answers to a question of access, told from the elements of the
document alone.  `rightAmong?` is what the grants of one scope say: for the world, the
stanford group and lending the first grant that fits decides, for an agent or a place
the last one with its exact name, and a scope that names any agent answers for all
agents (and likewise for places).

A file is asked about in the last block that lists it and nowhere else, and the object
in all blocks without files together.  `Document.rights_of_evaluate` puts this together:
the grants of the file decide where they say anything, then those of the object, and
nothing is granted where both are silent.
-/

namespace AccessRights

/-- A text holds the word `stanford`, letter case in the ASCII range not counted. -/
def NamesStanford (text : String) : Prop :=
  ∃ stretch, stretch <:+: text.toList ∧
    stretch.map Char.toLower = Vocabulary.stanford.toList

/-- The group is told by its name in ASCII lowercase. -/
theorem isStanfordGroup_eq_true_iff {text : String} :
    isStanfordGroup text = true ↔ NamesStanford text := by
  unfold isStanfordGroup NamesStanford
  rw [Text.containsInfix_eq_true_iff, List.infix_map_iff]
  simp only [eq_comm]

instance (text : String) : Decidable (NamesStanford text) :=
  decidable_of_iff _ isStanfordGroup_eq_true_iff

/-! ## What the grants of a scope say -/

/-- What grants say to a question about one of the names that elements of a kind give:
nothing if there are no such elements, and otherwise what the last with this exact name
grants, if there is one. -/
def rightOfName? (element name : String) (grants : List Node) : Option Right :=
  if ∃ grant ∈ grants, grant.name = element then
    some (match (grants.filter fun grant => grant.name = element ∧ grant.text = name).getLast? with
      | some grant => .granting grant.rule?
      | none => .denied)
  else
    none

/-- What the grants of one scope say to a question of access, if anything. -/
def rightAmong? (grants : List Node) : Audience → Option Right
  | .world =>
    (grants.find? fun grant => grant.name = Vocabulary.world).map
      fun grant => .granting grant.rule?
  | .stanford =>
    (grants.find? fun grant => grant.name = Vocabulary.group ∧ NamesStanford grant.text).map
      fun grant => .granting grant.rule?
  | .agent name => rightOfName? Vocabulary.agent name grants
  | .location name => rightOfName? Vocabulary.location name grants
  | .lending =>
    (grants.find? fun grant => grant.name = Vocabulary.lending).map
      fun grant => .granting grant.lendingRule?

theorem rightAmong?_nil (audience : Audience) : rightAmong? [] audience = none := by
  cases audience <;> rfl

section Reading

variable (start : Node) (grants : List Node)

/-- The first grant of a name is read from the first element of the name. -/
theorem firstGrant?_map_grant (name : String) :
    firstGrant? name (grants.map start.view.grant) =
      (grants.find? fun grant => grant.name = name).map start.view.grant := by
  unfold firstGrant?
  rw [List.find?_map]
  rfl

/-- And the grant to the stanford group from the first group that has its name. -/
theorem stanfordGrant?_map_grant :
    stanfordGrant? (grants.map start.view.grant) =
      (grants.find? fun grant => grant.name = Vocabulary.group ∧ NamesStanford grant.text).map
        start.view.grant := by
  unfold stanfordGrant?
  rw [List.find?_map]
  congr 2
  funext grant
  rw [Bool.eq_iff_iff]
  simp [isStanfordGroup_eq_true_iff]

theorem grantsNamed_map_grant (name : String) :
    grantsNamed name (grants.map start.view.grant) =
      (grants.filter fun grant => grant.name = name).map start.view.grant := by
  unfold grantsNamed
  rw [List.filter_map]
  rfl

/-- Of grants with one text the last one is kept. -/
theorem get?_rightsByText_map_grant (element name : String) :
    (rightsByText element (grants.map start.view.grant)).get? name =
      ((grants.filter fun grant => grant.name = element ∧ grant.text = name).getLast?).map
        fun grant => .granting grant.rule? := by
  rw [get?_rightsByText, grantsNamed_map_grant, List.filter_map, List.filter_filter,
    List.getLast?_map, Option.map_map]
  refine congrArg
    (fun found : List Node => found.getLast?.map fun grant => Right.granting grant.rule?)
    (List.filter_congr fun grant _ => ?_)
  rw [Bool.eq_iff_iff]
  simp [and_comm]

/-- A scope that names anybody answers for all; one that names nobody says nothing. -/
theorem unlessEmpty_rightsByText_map_grant (element name : String) :
    ((Entitlements.unlessEmpty (rightsByText element (grants.map start.view.grant))).map
        fun rights => (rights.get? name).getD .denied) =
      rightOfName? element name grants := by
  unfold Entitlements.unlessEmpty rightOfName?
  rw [isEmpty_rightsByText, grantsNamed_map_grant, List.isEmpty_map]
  by_cases h : ∃ grant ∈ grants, grant.name = element
  · have hsome : (grants.filter fun grant => grant.name = element).isEmpty = false := by
      obtain ⟨grant, hgrant, hname⟩ := h
      exact List.isEmpty_eq_false_iff_exists_mem.mpr
        ⟨grant, List.mem_filter.mpr ⟨hgrant, decide_eq_true hname⟩⟩
    rw [if_pos h, hsome, if_neg Bool.false_ne_true, Option.map_some,
      get?_rightsByText_map_grant]
    cases (grants.filter fun grant => grant.name = element ∧ grant.text = name).getLast? <;> rfl
  · have hnone : (grants.filter fun grant => grant.name = element).isEmpty = true := by
      rw [List.isEmpty_iff, List.filter_eq_nil_iff]
      intro grant hgrant hname
      exact h ⟨grant, hgrant, of_decide_eq_true hname⟩
    rw [if_neg h, hnone, if_pos rfl, Option.map_none]

/-- **Files are entitled to what their grants say.** -/
theorem answer?_ofFiles_map_grant (audience : Audience) :
    (Entitlements.ofFiles (grants.map start.view.grant)).answer? audience =
      rightAmong? grants audience := by
  cases audience with
  | world =>
    show worldRight? _ = _
    rw [worldRight?, firstGrant?_map_grant, Option.map_map]
    rfl
  | stanford =>
    have hstanford : stanfordRight? (grants.map start.view.grant) =
        rightAmong? grants .stanford := by
      rw [stanfordRight?, stanfordGrant?_map_grant, Option.map_map]
      rfl
    show ((stanfordRight? _).elim NameMap.empty stanfordOnly).get? Vocabulary.stanford = _
    rw [← hstanford]
    cases stanfordRight? (grants.map start.view.grant) <;> rfl
  | agent name => exact unlessEmpty_rightsByText_map_grant start grants _ name
  | location name => exact unlessEmpty_rightsByText_map_grant start grants _ name
  | lending =>
    show lendingRight? _ = _
    rw [lendingRight?, firstGrant?_map_grant, Option.map_map]
    unfold rightAmong?
    congr 1
    funext grant
    exact congrArg Right.granting (start.view_grant_groupRule grant)

end Reading

/-! ## What a document entitles to -/

namespace Document

variable (document : Document)

/-- The blocks that decide about a file are those that list it. -/
theorem filter_blocks_listing (file : String) :
    ((document.blocks .read .files).filter fun block => file ∈ block.listedFiles) =
      (document.blocksOfKind .read).filter fun block => file ∈ block.listedFiles := by
  unfold blocks
  rw [List.filter_filter]
  refine List.filter_congr fun block _ => ?_
  by_cases h : file ∈ block.listedFiles
  · have hscope : block.blockScope = .files := by
      unfold Node.blockScope
      rw [if_neg (List.ne_nil_of_mem h)]
    simp [h, hscope]
  · simp [h]

/-- **The last block that lists a file decides about it.** -/
theorem get?_fileEntitlements (file : String) :
    document.view.metadata.fileEntitlements.get? file =
      (document.lastBlockFor? file).map fun block =>
        .ofFiles (block.blockGrants.map document.view.grant) := by
  unfold Metadata.fileEntitlements
  rw [NameMap.get?_ofList_flatMap, metadata_blocksOf, List.filter_map, List.getLast?_map,
    Option.map_map]
  unfold lastBlockFor?
  rw [← filter_blocks_listing]
  congr 1
  funext block
  exact congrArg Entitlements.ofFiles (document.root.toBlock_grants block .read)

variable {document} {options : Options} {now : Calendar.Instant} {evaluation : Evaluation}

/-- The object always has an answer, and it is that of its grants. -/
theorem answer?_object_of_evaluate (h : document.view.evaluate options now = .ok evaluation)
    (audience : Audience) :
    evaluation.object.answer? audience =
      some ((rightAmong? (document.grants .read .object) audience).getD .denied) := by
  rw [View.object_of_evaluate h, Metadata.objectEntitlements, metadata_grantsOf,
    Entitlements.answer?_ofObject]
  exact congrArg (fun right => some (right.getD .denied))
    (answer?_ofFiles_map_grant document.root _ audience)

/-- **The right to the object is the one that its grants give.** -/
theorem objectRight_of_evaluate (h : document.view.evaluate options now = .ok evaluation)
    (audience : Audience) :
    evaluation.objectRight audience =
      (rightAmong? (document.grants .read .object) audience).getD .denied := by
  rw [Evaluation.objectRight, answer?_object_of_evaluate h]
  rfl

/-- **A file answers by its own grants**, where these say anything. -/
theorem answer?_file_of_evaluate (h : document.view.evaluate options now = .ok evaluation)
    (file : String) (audience : Audience) :
    (evaluation.files.get? file).bind (·.answer? audience) =
      rightAmong? (document.fileGrants file) audience := by
  rw [View.files_of_evaluate h, get?_fileEntitlements]
  unfold fileGrants
  cases document.lastBlockFor? file with
  | none => exact (rightAmong?_nil audience).symm
  | some block =>
    rw [Option.map_some, Option.bind_some, Option.toList_some, List.flatMap_singleton]
    exact answer?_ofFiles_map_grant document.root _ audience

/-- **Answers are exactly what the document says.**  About a file the grants of the last
block that lists it decide, where they say anything to the question; otherwise, and for
questions about the object, those of the object do; and nothing is granted where these
are silent too. -/
theorem rights_of_evaluate (h : document.view.evaluate options now = .ok evaluation) :
    (∀ audience, evaluation.objectRight audience =
      (rightAmong? (document.grants .read .object) audience).getD .denied) ∧
    (∀ file audience, evaluation.fileRight file audience =
      ((rightAmong? (document.fileGrants file) audience).or
        (rightAmong? (document.grants .read .object) audience)).getD .denied) := by
  refine ⟨objectRight_of_evaluate h, ?_⟩
  intro file audience
  rw [Evaluation.fileRight, answer?_file_of_evaluate h, objectRight_of_evaluate h]
  cases rightAmong? (document.fileGrants file) audience <;> rfl

/-- Lists one file in two blocks, of which the later one grants less. -/
def twiceListed : Document :=
  ⟨.element "rightsMetadata" []
    (.element "access" [("type", "read")]
      (.element "machine" []
        (.element "group" [("rule", "no-download")] (.text "STANFORD" .nil)
          (.element "agent" [] (.text "app" .nil) .nil)) .nil)
    (.element "access" [("type", "read")]
      (.element "file" [] (.text "a.pdf" .nil)
        (.element "machine" [] (.element "world" [] .nil .nil) .nil))
    (.element "access" [("type", "read")]
      (.element "file" [] (.text "a.pdf" .nil)
        (.element "machine" [] (.element "agent" [] (.text "other" .nil) .nil) .nil))
      .nil))) .nil⟩

theorem rights_of_evaluate_twiceListed : ∃ evaluation,
    twiceListed.view.evaluate .default ⟨0, 0⟩ = .ok evaluation ∧
      evaluation.fileRight "a.pdf" .world = ⟨false, none⟩ ∧
      evaluation.fileRight "a.pdf" .stanford = ⟨true, some "no-download"⟩ ∧
      evaluation.fileRight "a.pdf" (.agent "app") = ⟨false, none⟩ := by
  have h : twiceListed.view.evaluate .default ⟨0, 0⟩ = .ok _ := rfl
  obtain ⟨-, hfile⟩ := rights_of_evaluate h
  refine ⟨_, h, ?_, ?_, ?_⟩
  -- No world is left, the group is the object's, and the other agent shuts out this one.
  · rw [hfile]
    decide
  · rw [hfile]
    decide
  · rw [hfile]
    decide

end Document

end AccessRights
