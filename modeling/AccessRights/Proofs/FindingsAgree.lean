import AccessRights.Proofs.Discovery

/-!
# Findings agree with what is found

A document is checked for what it lacks without being evaluated, and the check looks for
blocks, machines and grants on its own.  This module says that it sees what the other
readings of the document see.  `Document.findings_agree` has all of it in one statement.

* The check reports a document without a rights element as that and nothing else.
  Otherwise it reports some of five findings, in one order and each once
  (`Index.Finding.reportOrder`).
* What it says of blocks and machines is true of the elements of the document, and what it
  says of discovery is true of the terms of the document.
* Where it misses machines for reading, the object grants nothing to anybody.

`Document.ReportedBy` gathers what a report says about a document.  Its fields about blocks
and machines ask for a rights element, since without one there are no blocks either and
still no word on them.
-/

namespace AccessRights

namespace Index

/-- The findings about a document with a rights element, in the order of a report. -/
def Finding.reportOrder : List Finding :=
  [.noAccess .discover, .noMachine .discover, .noAccess .read, .noMachine .read,
    .unclearDiscovery]

/-- What is missing of a kind is reported in one order. -/
theorem missing_sublist (metadata : Metadata) (kind : AccessKind) :
    (missing metadata kind).Sublist [.noAccess kind, .noMachine kind] := by
  unfold missing
  split
  · exact List.Sublist.refl _
  · split
    · exact List.sublist_cons_self _ _
    · exact List.nil_sublist _

/-- **Findings come in one order**, and each at most once. -/
theorem findings_sublist {metadata : Metadata} (h : metadata.isPresent = true) :
    (findings metadata).Sublist Finding.reportOrder := by
  have hunclear : (if discoveryIsUnclear metadata then [Finding.unclearDiscovery] else []).Sublist
      [.unclearDiscovery] := by
    split
    · exact List.Sublist.refl _
    · exact List.nil_sublist _
  rw [findings, if_pos h]
  exact ((missing_sublist metadata .discover).append (missing_sublist metadata .read)).append
    hunclear

/-- The lack of rights metadata is all that is reported of it. -/
theorem findings_eq_noMetadata_iff {metadata : Metadata} :
    findings metadata = [.noMetadata] ↔ metadata.isPresent = false := by
  constructor
  · intro h
    have hmem : Finding.noMetadata ∈ findings metadata := by simp [h]
    exact mem_findings_iff.mp hmem
  · intro h
    rw [findings, if_neg (by simp [h])]

end Index

namespace Document

/-- The report says of the document what is so.  `summary` is what an index holds of it. -/
structure ReportedBy (document : Document) (report : List Index.Finding)
    (summary : Index.Summary) : Prop where
  /-- Without a rights element, and only then, that is all there is to say. -/
  absent : report = [.noMetadata] ↔ document.rightsElements = []
  /-- The report keeps to one order, in which nothing comes twice. -/
  ordered : document.rightsElements ≠ [] → report.Sublist Index.Finding.reportOrder
  machines : document.rightsElements ≠ [] → ∀ kind,
    (.noMachine kind ∈ report ↔ document.machines kind .object = [])
  blocks : document.rightsElements ≠ [] → ∀ kind,
    (.noAccess kind ∈ report ↔ document.blocks kind .object = [])
  /-- Where a block is missing, so are its machines. -/
  noMachine_of_noAccess : ∀ kind, .noAccess kind ∈ report → .noMachine kind ∈ report
  /-- Discovery is unclear where there are machines for it and no term is about it. -/
  unclear : .unclearDiscovery ∈ report ↔
    document.machines .discover .object ≠ [] ∧
      summary.hasTerm "none_discover" = false ∧ summary.hasTerm "world_discover" = false
  /-- It is not said to be unclear where it is said to have no machines. -/
  notBoth : .unclearDiscovery ∈ report → .noMachine .discover ∉ report
  /-- The index holds the same report. -/
  inSummary : summary.findings = report

variable {document : Document}

theorem blocksOf_eq_nil_iff {kind : AccessKind} {scope : Scope} :
    document.view.metadata.blocksOf kind scope = [] ↔ document.blocks kind scope = [] := by
  rw [metadata_blocksOf, List.map_eq_nil_iff]

/-- The lack of machines is reported where there are rights metadata. -/
theorem noMachine_mem_findings_iff {kind : AccessKind} :
    .noMachine kind ∈ document.view.findings ↔
      document.rightsElements ≠ [] ∧ document.machines kind .object = [] := by
  rw [← metadata_isPresent_eq_true_iff, ← machinesOf_eq_nil_iff]
  exact Index.mem_findings_iff

/-- And so is the lack of blocks. -/
theorem noAccess_mem_findings_iff {kind : AccessKind} :
    .noAccess kind ∈ document.view.findings ↔
      document.rightsElements ≠ [] ∧ document.blocks kind .object = [] := by
  rw [← metadata_isPresent_eq_true_iff, ← blocksOf_eq_nil_iff]
  exact Index.mem_findings_iff

/-- The machines of no blocks. -/
theorem machines_eq_nil_of_blocks {kind : AccessKind} {scope : Scope}
    (h : document.blocks kind scope = []) : document.machines kind scope = [] := by
  by_contra hmachines
  exact blocks_ne_nil_of_machines hmachines h

/-- **Of discovery the check and the terms say the same.** -/
theorem unclearDiscovery_iff_terms :
    .unclearDiscovery ∈ document.view.findings ↔
      document.machines .discover .object ≠ [] ∧
        (Index.Summary.ofMetadata document.view.metadata).hasTerm "none_discover" = false ∧
        (Index.Summary.ofMetadata document.view.metadata).hasTerm "world_discover" = false := by
  have hunsettled : ¬ (document.OpensDiscovery ∨ document.HasGrant .discover Vocabulary.none) ↔
      ¬ document.HasGrant .discover Vocabulary.none ∧ ¬ document.OpensDiscovery := by
    rw [not_or, and_comm]
  rw [← Bool.not_eq_true, ← Bool.not_eq_true, hasTerm_worldDiscover_iff,
    hasTerm_noneDiscover_iff, ← hunsettled]
  exact unclearDiscovery_mem_findings_iff

/-- **What the check reports is so.** -/
theorem reportedBy_findings (document : Document) :
    document.ReportedBy document.view.findings
      (Index.Summary.ofMetadata document.view.metadata) where
  absent := by
    apply Index.findings_eq_noMetadata_iff.trans
    rw [← Bool.not_eq_true, metadata_isPresent_eq_true_iff, not_not]
  ordered hpresent := Index.findings_sublist (document.metadata_isPresent_eq_true_iff.mpr hpresent)
  machines hpresent kind := noMachine_mem_findings_iff.trans (and_iff_right hpresent)
  blocks hpresent kind := noAccess_mem_findings_iff.trans (and_iff_right hpresent)
  noMachine_of_noAccess := by
    intro kind hblocks
    obtain ⟨hpresent, hnone⟩ := noAccess_mem_findings_iff.mp hblocks
    exact noMachine_mem_findings_iff.mpr ⟨hpresent, machines_eq_nil_of_blocks hnone⟩
  unclear := unclearDiscovery_iff_terms
  notBoth := by
    intro hunclear hmissing
    exact (unclearDiscovery_iff_terms.mp hunclear).1 (noMachine_mem_findings_iff.mp hmissing).2
  inSummary := Index.Summary.findings_ofMetadata _

end Document

/-! ## Without machines for reading -/

/-- The object grants nothing to anybody, and names nobody and no place. -/
structure Evaluation.GrantsNothing (evaluation : Evaluation) : Prop where
  denies : ∀ audience, evaluation.objectRight audience = .denied
  agents : evaluation.object.agent = some .empty
  locations : evaluation.object.location = some .empty

/-- An object without grants grants nothing to anyone. -/
theorem Evaluation.grantsNothing_of_object {evaluation : Evaluation}
    (h : evaluation.object = .ofObject []) : evaluation.GrantsNothing where
  denies := by
    intro audience
    rw [objectRight, h]
    cases audience <;> rfl
  agents := by
    rw [h]
    rfl
  locations := by
    rw [h]
    rfl

namespace Document

variable {document : Document} {options : Options} {now : Calendar.Instant}
  {evaluation : Evaluation}

/-- **Where no machine for reading is found nothing is granted.** -/
theorem grantsNothing_of_noMachine (h : document.view.evaluate options now = .ok evaluation)
    (hmissing : .noMachine .read ∈ document.view.findings) : evaluation.GrantsNothing := by
  apply Evaluation.grantsNothing_of_object
  have hgrants : document.grants .read .object = [] := by
    rw [grants, (noMachine_mem_findings_iff.mp hmissing).2, List.flatMap_nil]
  rw [View.object_of_evaluate h, Metadata.objectEntitlements, metadata_grantsOf, hgrants,
    List.map_nil]

/-- **What a document is found to lack agrees with what is found in it**: with its elements,
with the terms for an index, and with the answers of the object. -/
theorem findings_agree (document : Document) :
    (Index.Finding.noMetadata :: Index.Finding.reportOrder).map Index.Finding.code =
      ["no_rightsMetadata", "no_discover_access", "no_discover_machine", "no_read_access",
        "no_read_machine", "discover_machine_unrecognized"] ∧
    Index.Finding.reportOrder.Nodup ∧
    document.ReportedBy document.view.findings
      (Index.Summary.ofMetadata document.view.metadata) ∧
    ∀ options now evaluation, document.view.evaluate options now = .ok evaluation →
      (options.forIndex = true →
        evaluation.summary = .ok (Index.Summary.ofMetadata document.view.metadata)) ∧
      (.noMachine .read ∈ document.view.findings → evaluation.GrantsNothing) := by
  refine ⟨by decide, by decide, document.reportedBy_findings, ?_⟩
  intro options now evaluation h
  constructor
  · intro hindex
    exact View.summary_of_evaluate h hindex
  · intro hmissing
    exact grantsNothing_of_noMachine h hmissing

/-- Opens discovery under a rule only, and reading for a file only. -/
def halfOpen : Document :=
  ⟨.element "rightsMetadata" []
    (.element "access" [("type", "discover")]
      (.element "machine" [] (.element "world" [("rule", "on-site")] .nil .nil) .nil)
    (.element "access" [("type", "read")]
      (.element "file" [] (.text "a.pdf" .nil)
      (.element "machine" [] (.element "world" [] .nil .nil) .nil)) .nil)) .nil⟩

theorem findings_agree_halfOpen : ∃ evaluation,
    halfOpen.view.evaluate .indexing ⟨0, 0⟩ = .ok evaluation ∧
      Options.indexing.forIndex = true ∧
      halfOpen.rightsElements ≠ [] ∧
      halfOpen.view.findings = [.noAccess .read, .noMachine .read, .unclearDiscovery] ∧
      evaluation.GrantsNothing ∧
      ∃ summary, evaluation.summary = .ok summary ∧
        summary.hasTerm "none_discover" = false ∧ summary.hasTerm "world_discover" = false := by
  have h : halfOpen.view.evaluate .indexing ⟨0, 0⟩ = .ok _ := rfl
  have hfindings : halfOpen.view.findings =
      [.noAccess .read, .noMachine .read, .unclearDiscovery] := by
    decide +kernel
  obtain ⟨-, -, hreported, hevaluated⟩ := findings_agree halfOpen
  obtain ⟨hsummary, hnothing⟩ := hevaluated _ _ _ h
  have hterms := (hreported.unclear.mp (by simp [hfindings])).2
  exact ⟨_, h, rfl, by decide, hfindings, hnothing (by simp [hfindings]), _, hsummary rfl, hterms⟩

end Document

end AccessRights
