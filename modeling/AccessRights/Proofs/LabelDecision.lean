import AccessRights.Proofs.Evaluated
import AccessRights.Proofs.FindingFacts
import AccessRights.Proofs.GrantElements
import AccessRights.Proofs.TermFacts

/-!
# The label is a decision over the document

A label comes out of three readings of a document, one for findings, one for terms and
one that goes through both.  `Document.label` decides it from the elements of the
document in one go: whether the object can be found, whether it can be read, by whom,
and whether there is any rule on that.  `Document.label_of_evaluate` says that the two
agree, so that no object is filed as open because one reading missed a block, a machine
or a rule that another saw.
-/

namespace AccessRights

/-- The label is that of the findings and terms, except where there are no rights metadata. -/
theorem Index.Summary.label_ofMetadata (metadata : Metadata) :
    (ofMetadata metadata).label =
      if metadata.isPresent then classify (Index.findings metadata) (Index.terms metadata)
      else .dark := by
  unfold ofMetadata withListings
  split <;> rfl

namespace Document

/-- The grants of the object's blocks of one kind hold an element of this name. -/
def HasGrant (document : Document) (kind : AccessKind) (name : String) : Prop :=
  ∃ grant ∈ document.grants kind .object, grant.name = name

/-- The object cannot be found: nothing says that it can, or something denies it. -/
def IsHidden (document : Document) : Prop :=
  document.rightsElements = [] ∨ document.machines .discover .object = [] ∨
    document.HasGrant .discover Vocabulary.none

/-- The object cannot be read: nothing says that it can, or something denies it. -/
def IsClosed (document : Document) : Prop :=
  document.machines .read .object = [] ∨ document.HasGrant .read Vocabulary.none

/-- The object can be read by groups, at places or by agents. -/
def IsRestricted (document : Document) : Prop :=
  document.HasGrant .read Vocabulary.group ∨ document.HasGrant .read Vocabulary.location ∨
    document.HasGrant .read Vocabulary.agent

/-- Some element inside a machine for reading the object, at any depth, has a rule. -/
def IsQualified (document : Document) : Prop :=
  ∃ machine ∈ document.machines .read .object,
    ∃ element ∈ machine.descendants, element.rule?.isSome

instance (document : Document) (kind : AccessKind) (name : String) :
    Decidable (document.HasGrant kind name) :=
  inferInstanceAs (Decidable (∃ grant ∈ _, _))

instance (document : Document) : Decidable document.IsHidden :=
  inferInstanceAs (Decidable (_ ∨ _ ∨ _))

instance (document : Document) : Decidable document.IsClosed :=
  inferInstanceAs (Decidable (_ ∨ _))

instance (document : Document) : Decidable document.IsRestricted :=
  inferInstanceAs (Decidable (_ ∨ _ ∨ _))

instance (document : Document) : Decidable document.IsQualified :=
  inferInstanceAs (Decidable (∃ machine ∈ _, _))

/-- The label of a document, decided from its elements. -/
def label (document : Document) : Index.Label :=
  if document.IsHidden then .dark
  else if document.IsClosed then .citation
  else if document.HasGrant .read Vocabulary.lending then .lending
  else if document.HasGrant .read Vocabulary.world then
    if document.IsQualified then .worldQualified else .world
  else if document.IsRestricted then
    if document.IsQualified then .restrictedQualified else .restricted
  else
    if document.IsQualified then .unknownQualified else .unknown

/-! ## Terms and findings that the label is made from -/

variable {document : Document}

theorem hasGrant_grantsOf_iff {kind : AccessKind} {name : String} :
    Index.hasGrant name (document.view.metadata.grantsOf kind .object) = true ↔
      document.HasGrant kind name := by
  rw [Index.hasGrant_eq_true_iff]
  exact exists_mem_grantsOf_iff

/-- No machine is read exactly if there is no machine element. -/
theorem machinesOf_eq_nil_iff {kind : AccessKind} {scope : Scope} :
    document.view.metadata.machinesOf kind scope = [] ↔ document.machines kind scope = [] := by
  rw [metadata_machinesOf, List.map_eq_nil_iff]

/-- A machine has a rule exactly if one stands somewhere in a machine element. -/
theorem hasRule_iff_isQualified :
    (∃ machine ∈ document.view.metadata.machinesOf .read .object, machine.hasRule = true) ↔
      document.IsQualified := by
  have hrule : ∀ node, (document.view.machine node).hasRule = true ↔
      ∃ element ∈ node.descendants, element.rule?.isSome := by
    intro node
    rw [← List.any_eq_true]
    exact Bool.eq_iff_iff.mp (document.root.view_machine_hasRule node)
  rw [metadata_machinesOf]
  unfold IsQualified
  constructor
  · rintro ⟨_, hmachine, h⟩
    obtain ⟨node, hnode, rfl⟩ := List.mem_map.mp hmachine
    exact ⟨node, hnode, (hrule node).mp h⟩
  · rintro ⟨node, hnode, h⟩
    exact ⟨_, List.mem_map_of_mem hnode, (hrule node).mpr h⟩

/-! ## The label -/

/-- Of the two findings about discovery one comes with the other, so that machines
decide. -/
theorem isHidden_iff (hpresent : document.rightsElements ≠ []) :
    (Index.Term.noneDiscover ∈ Index.terms document.view.metadata ∨
      .noAccess .discover ∈ Index.findings document.view.metadata ∨
      .noMachine .discover ∈ Index.findings document.view.metadata) ↔ document.IsHidden := by
  rw [Index.mem_terms_iff, Index.mem_findings_iff, Index.mem_findings_iff]
  show (Index.hasGrant Vocabulary.none (document.view.metadata.grantsOf .discover .object) = true ∨
    (document.view.metadata.isPresent = true ∧ _) ∨
    (document.view.metadata.isPresent = true ∧ _)) ↔ _
  rw [hasGrant_grantsOf_iff, machinesOf_eq_nil_iff, metadata_isPresent_eq_true_iff]
  unfold IsHidden
  constructor
  · rintro (hnone | ⟨-, hblocks⟩ | ⟨-, hmachines⟩)
    · exact Or.inr (Or.inr hnone)
    · exact Or.inr (Or.inl (machinesOf_eq_nil_iff.mp (Index.machinesOf_eq_nil hblocks)))
    · exact Or.inr (Or.inl hmachines)
  · rintro (habsent | hmachines | hnone)
    · exact absurd habsent hpresent
    · exact Or.inr (Or.inr ⟨hpresent, hmachines⟩)
    · exact Or.inl hnone

/-- Reading is closed by the lack of machines or by an express denial. -/
theorem isClosed_iff (hpresent : document.rightsElements ≠ []) :
    (.noMachine .read ∈ Index.findings document.view.metadata ∨
      Index.Term.noneRead ∈ Index.terms document.view.metadata) ↔ document.IsClosed := by
  rw [Index.mem_terms_iff, Index.mem_findings_iff]
  show ((document.view.metadata.isPresent = true ∧ _) ∨
    Index.hasGrant Vocabulary.none (document.view.metadata.grantsOf .read .object) = true) ↔ _
  rw [hasGrant_grantsOf_iff, machinesOf_eq_nil_iff, metadata_isPresent_eq_true_iff,
    and_iff_right hpresent]
  rfl

theorem lending_mem_terms_iff :
    .lending ∈ Index.terms document.view.metadata ↔ document.HasGrant .read Vocabulary.lending := by
  rw [Index.mem_terms_iff]
  exact hasGrant_grantsOf_iff

/-- A grant to the world makes a term only where nothing denies reading. -/
theorem worldRead_mem_terms_iff (hopen : ¬ document.IsClosed) :
    .worldRead ∈ Index.terms document.view.metadata ↔ document.HasGrant .read Vocabulary.world := by
  have hnone : Index.hasGrant Vocabulary.none
      (document.view.metadata.grantsOf .read .object) = false := by
    rw [← Bool.not_eq_true, hasGrant_grantsOf_iff]
    intro hnone
    exact hopen (Or.inr hnone)
  rw [Index.mem_terms_iff, ← hasGrant_grantsOf_iff, ← Index.isSome_firstGrant?_iff]
  exact and_iff_right hnone

/-- It is restricted by a grant to a group, a place or an agent. -/
theorem isRestricted_iff :
    (.hasGroupRights ∈ Index.terms document.view.metadata ∨
      .location ∈ Index.terms document.view.metadata ∨
      .agent ∈ Index.terms document.view.metadata) ↔ document.IsRestricted := by
  simp only [Index.mem_terms_iff]
  exact or_congr hasGrant_grantsOf_iff (or_congr hasGrant_grantsOf_iff hasGrant_grantsOf_iff)

theorem hasRule_mem_terms_iff :
    .hasRule ∈ Index.terms document.view.metadata ↔ document.IsQualified := by
  rw [Index.mem_terms_iff]
  exact hasRule_iff_isQualified

/-- What findings and terms lead to is what the elements do. -/
theorem classify_eq_label (hpresent : document.rightsElements ≠ []) :
    Index.classify (Index.findings document.view.metadata)
      (Index.terms document.view.metadata) = document.label := by
  unfold Index.classify label
  simp only [hasRule_mem_terms_iff]
  by_cases hhidden : document.IsHidden
  · rw [if_pos hhidden]
    by_cases hnone : .noneDiscover ∈ Index.terms document.view.metadata
    · rw [if_pos hnone]
    · rw [if_neg hnone, if_pos (((isHidden_iff hpresent).mpr hhidden).resolve_left hnone)]
  · obtain ⟨hnone, hfindings⟩ := not_or.mp (mt (isHidden_iff hpresent).mp hhidden)
    rw [if_neg hhidden, if_neg hnone, if_neg hfindings]
    by_cases hclosed : document.IsClosed
    · rw [if_pos hclosed, if_pos ((isClosed_iff hpresent).mpr hclosed)]
    · rw [if_neg hclosed, if_neg (mt (isClosed_iff hpresent).mp hclosed)]
      simp only [lending_mem_terms_iff, worldRead_mem_terms_iff hclosed, isRestricted_iff]

/-- A document without a rights element is filed as dark before anything is decided, as
the decision would have it. -/
theorem label_ofMetadata_view (document : Document) :
    (Index.Summary.ofMetadata document.view.metadata).label = document.label := by
  rw [Index.Summary.label_ofMetadata]
  split
  case isTrue hpresent =>
    exact classify_eq_label (document.metadata_isPresent_eq_true_iff.mp hpresent)
  case isFalse habsent =>
    have hhidden : document.IsHidden :=
      Or.inl (not_not.mp (mt document.metadata_isPresent_eq_true_iff.mpr habsent))
    rw [label, if_pos hhidden]

variable {options : Options} {now : Calendar.Instant} {evaluation : Evaluation}

/-- **The label of a summary is the one decided from the document.** -/
theorem label_of_evaluate (h : document.view.evaluate options now = .ok evaluation)
    (hindex : options.forIndex = true) :
    ∃ summary, evaluation.summary = .ok summary ∧ summary.label = document.label :=
  ⟨_, View.summary_of_evaluate h hindex, document.label_ofMetadata_view⟩

/-- Can be read at a place, with a rule that stands deep inside the grant. -/
def readingRoom : Document :=
  ⟨.element "rightsMetadata" []
    (.element "access" [("type", "discover")]
      (.element "machine" [] (.element "world" [] .nil .nil) .nil)
    (.element "access" [("type", "read")]
      (.element "machine" []
        (.element "location" []
          (.text "reading room" (.element "note" [("rule", "on-site")] .nil .nil)) .nil) .nil)
      .nil)) .nil⟩

theorem label_of_evaluate_readingRoom : ∃ evaluation summary,
    readingRoom.view.evaluate .indexing ⟨0, 0⟩ = .ok evaluation ∧
      evaluation.summary = .ok summary ∧ summary.label = .restrictedQualified := by
  have h : readingRoom.view.evaluate .indexing ⟨0, 0⟩ = .ok _ := rfl
  obtain ⟨summary, hsummary, hlabel⟩ := label_of_evaluate h rfl
  have hdecided : readingRoom.label = .restrictedQualified := by decide
  exact ⟨_, summary, h, hsummary, hlabel.trans hdecided⟩

end Document

end AccessRights
