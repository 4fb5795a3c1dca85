import AccessRights.Proofs.LabelDecision
import AccessRights.Proofs.TermsAgree

/-!
# What can be found

Whether an object can be found is answered from two parts of its summary: the label,
which may be `dark`, and the finding that the machines for discovery settle nothing.
Between them these cover five ways in which a document can fall short, from one without
a rights element to one that expressly denies discovery.

`Document.IsDiscoverable` is the one condition that all of these are the opposite of:
some grant opens discovery to the world without a rule, and none denies it.  A grant
that opens discovery stands in a machine, the machine in a block and the block in a
rights element, which is why the condition has no word on any of them.
-/

namespace AccessRights

/-- No finding is left out of a summary. -/
theorem Index.Summary.findings_ofMetadata (metadata : Metadata) :
    (ofMetadata metadata).findings = Index.findings metadata := by
  unfold ofMetadata withListings
  split
  case isTrue => rfl
  case isFalse habsent =>
    rw [Index.findings, if_neg habsent]
    rfl

namespace Document

/-- Some grant opens discovery to the world without a rule. -/
def OpensDiscovery (document : Document) : Prop :=
  ∃ grant ∈ document.grants .discover .object,
    grant.name = Vocabulary.world ∧ grant.rule? = none

/-- The object can be found: some grant opens discovery, and none denies it. -/
def IsDiscoverable (document : Document) : Prop :=
  document.OpensDiscovery ∧ ¬ document.HasGrant .discover Vocabulary.none

instance (document : Document) : Decidable document.OpensDiscovery :=
  inferInstanceAs (Decidable (∃ grant ∈ _, _))

instance (document : Document) : Decidable document.IsDiscoverable :=
  inferInstanceAs (Decidable (_ ∧ _))

variable {document : Document}

/-! ## What falls short -/

/-- Dark is what is hidden, and nothing else. -/
theorem label_eq_dark_iff : document.label = .dark ↔ document.IsHidden := by
  constructor
  · intro hlabel
    by_contra hfound
    rw [label, if_neg hfound] at hlabel
    split_ifs at hlabel
  · intro hhidden
    rw [label, if_pos hhidden]

/-- A grant settles discovery if it is to the world, without a rule, or an express denial. -/
theorem settlesDiscovery_grant_iff (start node : Node) :
    Index.settlesDiscovery (start.view.grant node) = true ↔
      (node.name = Vocabulary.world ∧ node.rule? = none) ∨ node.name = Vocabulary.none := by
  unfold Index.settlesDiscovery
  rw [Bool.or_eq_true, Bool.and_eq_true, beq_iff_eq, beq_iff_eq, Option.isNone_iff_eq_none]
  rfl

/-- Some grant does exactly if the document opens discovery or denies it. -/
theorem exists_settlesDiscovery_iff :
    (∃ grant ∈ document.view.metadata.grantsOf .discover .object,
      Index.settlesDiscovery grant = true) ↔
        document.OpensDiscovery ∨ document.HasGrant .discover Vocabulary.none := by
  rw [exists_mem_grantsOf_iff]
  constructor
  · rintro ⟨node, hnode, hsettles⟩
    rcases (settlesDiscovery_grant_iff _ node).mp hsettles with hopens | hdenies
    · exact Or.inl ⟨node, hnode, hopens⟩
    · exact Or.inr ⟨node, hnode, hdenies⟩
  · rintro (⟨node, hnode, hopens⟩ | ⟨node, hnode, hdenies⟩)
    · exact ⟨node, hnode, (settlesDiscovery_grant_iff _ node).mpr (Or.inl hopens)⟩
    · exact ⟨node, hnode, (settlesDiscovery_grant_iff _ node).mpr (Or.inr hdenies)⟩

/-- Discovery is unclear where there are machines for it, but no grant that opens or
denies it. -/
theorem unclearDiscovery_mem_findings_iff :
    .unclearDiscovery ∈ Index.findings document.view.metadata ↔
      document.machines .discover .object ≠ [] ∧
        ¬ (document.OpensDiscovery ∨ document.HasGrant .discover Vocabulary.none) := by
  rw [Index.mem_findings_iff, ← exists_settlesDiscovery_iff]
  unfold Index.Finding.HoldsOf
  rw [metadata_isPresent_eq_true_iff, ne_eq (document.view.metadata.machinesOf _ _),
    machinesOf_eq_nil_iff]
  simp only [not_exists, not_and, Bool.not_eq_true]
  -- Machines stand in a rights element, so that the first condition says nothing new.
  exact and_iff_right_of_imp fun h => rightsElements_ne_nil_of_machines h.1

/-- **An object cannot be found exactly if the label or the finding says so.**  The label
speaks of rights elements, blocks and machines that are missing and of a denial, the
finding of machines that settle nothing. -/
theorem not_isDiscoverable_iff :
    ¬ document.IsDiscoverable ↔ document.label = .dark ∨
      .unclearDiscovery ∈ Index.findings document.view.metadata := by
  rw [label_eq_dark_iff, unclearDiscovery_mem_findings_iff]
  unfold IsDiscoverable IsHidden
  constructor
  · intro hshort
    by_cases hdenied : document.HasGrant .discover Vocabulary.none
    · exact Or.inl (Or.inr (Or.inr hdenied))
    · have hclosed : ¬ document.OpensDiscovery := fun hopens => hshort ⟨hopens, hdenied⟩
      by_cases hmachines : document.machines .discover .object = []
      · exact Or.inl (Or.inr (Or.inl hmachines))
      · exact Or.inr ⟨hmachines, not_or.mpr ⟨hclosed, hdenied⟩⟩
  · rintro (hhidden | ⟨-, hunsettled⟩) ⟨hopens, hfree⟩
    · obtain ⟨grant, hgrant, -⟩ := hopens
      have hmachines := machines_ne_nil_of_mem_grants hgrant
      rcases hhidden with hnone | hnone | hdenied
      · exact rightsElements_ne_nil_of_machines hmachines hnone
      · exact hmachines hnone
      · exact hfree hdenied
    · exact hunsettled (Or.inl hopens)

/-! ## Discovery by terms -/

/-- Asking for the text of a term about discovery is asking for the fact. -/
theorem hasTerm_discovery_iff {summary : Index.Summary} {metadata : Metadata}
    (hterms : summary.terms = Index.terms metadata) (token : Index.Term)
    (htoken : token ∈ [Index.Term.noneDiscover, .worldDiscover]) :
    summary.hasTerm token.render = true ↔ token.HoldsOf metadata := by
  have hfixed : ∀ token ∈ [Index.Term.noneDiscover, .worldDiscover], token ∈ Index.fixedTerms := by
    decide
  exact Index.hasTerm_fixed_iff hterms (hfixed token htoken)

/-- The fact of the term is that the document opens discovery. -/
theorem worldDiscover_holdsOf_iff :
    Index.Term.worldDiscover.HoldsOf document.view.metadata ↔ document.OpensDiscovery :=
  exists_mem_grantsOf_iff

/-- The term that the world can discover the object asks whether discovery is opened. -/
theorem hasTerm_worldDiscover_iff (document : Document) :
    (Index.Summary.ofMetadata document.view.metadata).hasTerm "world_discover" = true ↔
      document.OpensDiscovery :=
  (hasTerm_discovery_iff document.terms_ofMetadata_view .worldDiscover (by simp)).trans
    worldDiscover_holdsOf_iff

/-- The term that nobody can asks whether discovery is denied. -/
theorem hasTerm_noneDiscover_iff (document : Document) :
    (Index.Summary.ofMetadata document.view.metadata).hasTerm "none_discover" = true ↔
      document.HasGrant .discover Vocabulary.none :=
  (hasTerm_discovery_iff document.terms_ofMetadata_view .noneDiscover (by simp)).trans
    hasGrant_grantsOf_iff

/-! ## Discovery of an evaluated document -/

variable {options : Options} {now : Calendar.Instant} {evaluation : Evaluation}

/-- Being dark is decided by the label and the check together. -/
theorem isDark_eq_decide (h : document.view.evaluate options now = .ok evaluation)
    (hindex : options.forIndex = true) :
    evaluation.isDark = .ok (decide ¬ document.IsDiscoverable) := by
  rw [Evaluation.isDark, View.index_of_evaluate h hindex]
  show Except.ok _ = _
  rw [label_ofMetadata_view, Index.Summary.findings_ofMetadata]
  congr 1
  rw [Bool.eq_iff_iff, Bool.or_eq_true, beq_iff_eq, List.contains_iff_mem, decide_eq_true_iff,
    not_isDiscoverable_iff]

/-- **An object can be found exactly if its document says so**: some grant opens discovery
to the world without a rule, and none denies it.  The terms for these two facts say the
same. -/
theorem isDark_of_evaluate (h : document.view.evaluate options now = .ok evaluation)
    (hindex : options.forIndex = true) :
    (evaluation.isDark = .ok false ↔ document.IsDiscoverable) ∧
      (evaluation.isDark = .ok true ↔ ¬ document.IsDiscoverable) ∧
      ∃ summary, evaluation.summary = .ok summary ∧
        (evaluation.isDark = .ok false ↔
          summary.hasTerm "world_discover" = true ∧ summary.hasTerm "none_discover" = false) := by
  have hdark : evaluation.isDark = .ok false ↔ document.IsDiscoverable := by
    rw [isDark_eq_decide h hindex, Except.ok.injEq, decide_eq_false_iff_not, not_not]
  refine ⟨hdark, ?_, _, View.summary_of_evaluate h hindex, ?_⟩
  · rw [isDark_eq_decide h hindex, Except.ok.injEq, decide_eq_true_iff]
  · rw [hdark, ← Bool.not_eq_true, hasTerm_worldDiscover_iff, hasTerm_noneDiscover_iff]
    exact Iff.rfl

/-- Opens discovery twice, in two blocks, and only the second time without a rule. -/
def openedTwice : Document :=
  ⟨.element "rightsMetadata" []
    (.element "access" [("type", "discover")]
      (.element "machine" [] (.element "world" [("rule", "on-site")] .nil .nil) .nil)
    (.element "access" [("type", "discover")]
      (.element "machine" [] .nil
        (.element "machine" [] (.element "world" [] .nil .nil) .nil)) .nil)) .nil⟩

theorem isDark_of_evaluate_openedTwice : ∃ evaluation summary,
    openedTwice.view.evaluate .indexing ⟨0, 0⟩ = .ok evaluation ∧
      evaluation.isDark = .ok false ∧
      evaluation.summary = .ok summary ∧
      summary.hasTerm "world_discover" = true ∧ summary.hasTerm "none_discover" = false := by
  have h : openedTwice.view.evaluate .indexing ⟨0, 0⟩ = .ok _ := rfl
  obtain ⟨hdark, -, summary, hsummary, hterms⟩ := isDark_of_evaluate h rfl
  have hfound : openedTwice.IsDiscoverable := by decide
  have hlight := hdark.mpr hfound
  exact ⟨_, summary, h, hlight, hsummary, hterms.mp hlight⟩

end Document

end AccessRights
