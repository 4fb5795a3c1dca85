import AccessRights.Index.Finding

/-!
# Findings are what is missing

A finding is something that a document lacks, and `Finding.HoldsOf` says which, with no
word on the order of the checks.  `mem_findings_iff` is the law for findings, as
`mem_terms_iff` is for terms: a document is found to lack something exactly if it does.

A document without a block of some kind has no machine of that kind either and is found
to lack both.
-/

namespace AccessRights.Index

/-- The document lacks what the finding says.  A document without a rights element is
said to lack that and nothing else. -/
def Finding.HoldsOf (metadata : Metadata) : Finding → Prop
  | noMetadata => metadata.isPresent = false
  | noAccess kind => metadata.isPresent = true ∧ metadata.blocksOf kind .object = []
  | noMachine kind => metadata.isPresent = true ∧ metadata.machinesOf kind .object = []
  | unclearDiscovery => metadata.isPresent = true ∧
      metadata.machinesOf .discover .object ≠ [] ∧
      ∀ grant ∈ metadata.grantsOf .discover .object, settlesDiscovery grant = false

/-- Where there is no block there is no machine. -/
theorem machinesOf_eq_nil {metadata : Metadata} {kind : AccessKind} {scope : Scope}
    (h : metadata.blocksOf kind scope = []) : metadata.machinesOf kind scope = [] := by
  rw [Metadata.machinesOf, h, List.flatMap_nil]

/-- What may be missing of a kind is its blocks and its machines. -/
theorem mem_missing {metadata : Metadata} {kind : AccessKind} {finding : Finding} :
    finding ∈ missing metadata kind ↔
      (metadata.blocksOf kind .object = [] ∧ finding = .noAccess kind) ∨
      (metadata.machinesOf kind .object = [] ∧ finding = .noMachine kind) := by
  unfold missing
  simp only [List.isEmpty_iff]
  by_cases hblocks : metadata.blocksOf kind .object = []
  · simp [hblocks, machinesOf_eq_nil hblocks]
  · by_cases hmachines : metadata.machinesOf kind .object = [] <;> simp [hblocks, hmachines]

/-- Discovery is unclear where there are machines for it and none of their grants settles it. -/
theorem discoveryIsUnclear_eq_true_iff {metadata : Metadata} :
    discoveryIsUnclear metadata = true ↔
      metadata.machinesOf .discover .object ≠ [] ∧
        ∀ grant ∈ metadata.grantsOf .discover .object, settlesDiscovery grant = false := by
  unfold discoveryIsUnclear
  rw [Bool.and_eq_true, Bool.not_eq_true', Bool.not_eq_true', List.isEmpty_eq_false_iff,
    List.any_eq_false]
  simp only [Bool.not_eq_true]

/-- **A document is found to lack something exactly if it does.** -/
theorem mem_findings_iff {metadata : Metadata} {finding : Finding} :
    finding ∈ findings metadata ↔ finding.HoldsOf metadata := by
  unfold findings
  cases hpresent : metadata.isPresent with
  | false =>
    rw [if_neg Bool.false_ne_true, List.mem_singleton]
    cases finding <;> simp [Finding.HoldsOf, hpresent]
  | true =>
    have hunclear : finding ∈ (if discoveryIsUnclear metadata then [.unclearDiscovery] else []) ↔
        discoveryIsUnclear metadata = true ∧ finding = .unclearDiscovery := by
      split <;> simp [*]
    rw [if_pos rfl, List.mem_append, List.mem_append, mem_missing, mem_missing, hunclear,
      discoveryIsUnclear_eq_true_iff]
    -- Each finding is named in one place, except that the kinds share two of them.
    cases finding with
    | noMetadata => simp [Finding.HoldsOf, hpresent]
    | noAccess kind => cases kind <;> simp [Finding.HoldsOf, hpresent]
    | noMachine kind => cases kind <;> simp [Finding.HoldsOf, hpresent]
    | unclearDiscovery => simp [Finding.HoldsOf, hpresent]

end AccessRights.Index
