import AccessRights.Proofs.DistinctTerms
import AccessRights.Proofs.PoolOrder

/-!
# File statistics

The index counts what stands in the machines for reading files: the machines themselves
and, name by name, the elements in them.  Its counts are taken from what is pooled from the
blocks, one block after the other, and blocks may stand inside each other.

Here the same numbers are told from the document, where every element stands once
(`Document.fileMachines`, `Document.fileElements`).  That the two agree is a matter of which
elements are pooled and not of how often or in what order: nothing is pooled twice
(`Document.nodup_pooledGrants`), so that what is pooled is a rearrangement of what the
document has (`fileMachines_perm`, `fileElements_perm`).  Nor does it matter
which blocks decide about a file in the end.  A block that later ones overrule for all of its
files is counted like any other.

The texts of the statistics hold names of elements, which may look like one another's
counts: an element may be called `world|2`.  `Index.Summary.CountsFiles` is all the
same an exact account of what an index has, since a count is read from its last bar
(`Index.append_bar_toString_inj`).
-/

namespace AccessRights

namespace Document

variable (document : Document)

/-! ## What stands in the machines for files -/

/-- The machines right inside the blocks for reading files, each once. -/
def fileMachines : List Node :=
  document.elements.filter fun node =>
    node.name = Vocabulary.machine ∧ ∃ block ∈ document.blocks .read .files, node ∈ block.children

/-- The elements of a name right inside these machines, each once. -/
def fileElements (name : String) : List Node :=
  document.elements.filter fun node =>
    node.name = name ∧ ∃ machine ∈ document.fileMachines, node ∈ machine.children

/-- No element is met twice. -/
theorem nodup_elements : document.elements.Nodup :=
  document.root.inOrder_descendants.nodup

/-- **The machines that are pooled are those of the document**, in whatever order. -/
theorem fileMachines_perm : (document.machines .read .files).Perm document.fileMachines := by
  have hpooled : (document.machines .read .files).Nodup :=
    document.nodup_pooledMachines .read (some .files)
  have hlisted : document.fileMachines.Nodup := document.nodup_elements.filter _
  refine (List.perm_ext_iff_of_nodup hpooled hlisted).mpr ?_
  intro node
  have hinside : node ∈ document.machines .read .files → node ∈ document.elements :=
    document.pooledMachines_subset_elements .read (some .files) node
  rw [fileMachines, List.mem_filter, decide_eq_true_iff]
  constructor
  · intro hnode
    obtain ⟨block, hblock, hmachine⟩ := List.mem_flatMap.mp hnode
    obtain ⟨hchild, hname⟩ := List.mem_filter.mp hmachine
    exact ⟨hinside hnode, of_decide_eq_true hname, block, hblock, hchild⟩
  · rintro ⟨-, hname, block, hblock, hchild⟩
    exact List.mem_flatMap.mpr
      ⟨block, hblock, List.mem_filter.mpr ⟨hchild, decide_eq_true hname⟩⟩

/-- **The elements of a name that are pooled are those of the document.** -/
theorem fileElements_perm (name : String) :
    ((document.grants .read .files).filter fun grant => grant.name = name).Perm
      (document.fileElements name) := by
  have hpooled : (document.grants .read .files).Nodup :=
    document.nodup_pooledGrants .read (some .files)
  have hlisted : (document.fileElements name).Nodup := document.nodup_elements.filter _
  refine (List.perm_ext_iff_of_nodup (hpooled.filter _) hlisted).mpr ?_
  intro node
  simp only [fileElements, List.mem_filter, decide_eq_true_iff, grants, List.mem_flatMap,
    ← document.fileMachines_perm.mem_iff]
  constructor
  · rintro ⟨⟨machine, hmachine, hchild⟩, hname⟩
    have hinside := document.pooledMachines_subset_elements .read (some .files) machine hmachine
    exact ⟨(Content.descendants_sublist hinside).subset (machine.children_sublist.subset hchild),
      hname, machine, hmachine, hchild⟩
  · rintro ⟨-, hname, machine, hmachine, hchild⟩
    exact ⟨⟨machine, hmachine, hchild⟩, hname⟩

/-! ## What an index counts -/

/-- As many machines for files are read as there are elements of machines. -/
theorem length_machinesOf_files :
    (document.view.metadata.machinesOf .read .files).length = document.fileMachines.length := by
  rw [metadata_machinesOf, List.length_map, document.fileMachines_perm.length_eq]

/-- And as many grants of a name as there are elements of that name in them. -/
theorem count_grantsOf_files (name : String) :
    ((document.view.metadata.grantsOf .read .files).map (·.name)).count name =
      (document.fileElements name).length := by
  rw [metadata_grantsOf, List.map_map, ← (document.fileElements_perm name).length_eq,
    List.count, List.countP_map, List.countP_eq_length_filter]
  refine congrArg List.length (List.filter_congr fun grant _ => ?_)
  exact beq_eq_decide _ _

/-- There are blocks for files exactly if an access element for reading lists one. -/
theorem blocksOf_files_ne_nil_iff :
    document.view.metadata.blocksOf .read .files ≠ [] ↔ document.blocks .read .files ≠ [] := by
  rw [metadata_blocksOf, ne_eq, List.map_eq_nil_iff]

/-- An element of a name is there exactly if the count of the name is not zero. -/
theorem hasGrant_files_iff (name : String) :
    Index.hasGrant name (document.view.metadata.grantsOf .read .files) = true ↔
      0 < (document.fileElements name).length := by
  rw [← count_grantsOf_files, List.count_pos_iff, List.mem_map, Index.hasGrant_eq_true_iff]

end Document

/-! ## Statistics by terms -/

/-- A summary for the index has no text twice, and counts for files what the document has
in their machines. -/
structure Index.Summary.CountsFiles (summary : Summary) (document : Document) : Prop where
  distinct : summary.termTexts.Nodup
  blocks : summary.hasTerm "has_file_rights" = true ↔ document.blocks .read .files ≠ []
  machines : ∀ count : Nat, summary.hasTerm ("file_rights_count|" ++ toString count) = true ↔
    document.blocks .read .files ≠ [] ∧ document.fileMachines.length = count
  /-- No count is zero: what is not there is not counted. -/
  elements : ∀ (name : String) (count : Nat),
    summary.hasTerm ("file_rights_for_" ++ name ++ "|" ++ toString count) = true ↔
      0 < count ∧ (document.fileElements name).length = count
  presence : ∀ name, summary.hasTerm ("file_has_" ++ name) = true ↔
    0 < (document.fileElements name).length

namespace Document

variable {document : Document} {options : Options} {now : Calendar.Instant}
  {evaluation : Evaluation}

/-- **Where the terms are those of the document the texts count its files.** -/
theorem countsFiles_of_terms {summary : Index.Summary}
    (hterms : summary.terms = Index.terms document.view.metadata) :
    summary.CountsFiles document where
  distinct := Index.nodup_termTexts hterms
  blocks :=
    (Index.hasTerm_fixed_iff hterms (by decide : Index.Term.hasFileRights ∈ _)).trans
      document.blocksOf_files_ne_nil_iff
  machines := by
    intro count
    refine (Index.hasTerm_iff_holdsOf hterms (.fileMachines count)
      fun _ _ => Index.eq_fileMachines_of_render_eq).trans ?_
    show document.view.metadata.blocksOf .read .files ≠ [] ∧ count = _ ↔ _
    rw [blocksOf_files_ne_nil_iff, length_machinesOf_files, eq_comm]
  elements := by
    intro name count
    refine (Index.hasTerm_iff_holdsOf hterms (.fileCount name count)
      fun _ _ => Index.eq_fileCount_of_render_eq).trans ?_
    show Index.hasGrant name _ = true ∧ count = _ ↔ _
    rw [hasGrant_files_iff, count_grantsOf_files]
    constructor
    · rintro ⟨hpos, rfl⟩
      exact ⟨hpos, rfl⟩
    · rintro ⟨hpos, rfl⟩
      exact ⟨hpos, rfl⟩
  presence := by
    intro name
    exact (Index.hasTerm_iff_holdsOf hterms (.fileHas name)
      fun _ _ => Index.eq_fileHas_of_render_eq).trans (document.hasGrant_files_iff name)

/-- **The statistics of an evaluated document are exact**, and no term is written
twice. -/
theorem countsFiles_of_evaluate (h : document.view.evaluate options now = .ok evaluation)
    (hindex : options.forIndex = true) :
    ∃ summary, evaluation.summary = .ok summary ∧ summary.CountsFiles document :=
  ⟨_, View.summary_of_evaluate h hindex, countsFiles_of_terms document.terms_ofMetadata_view⟩

/-- Lists one file in three blocks, one of which stands inside another, and has elements
whose names look like a count. -/
def overruled : Document :=
  ⟨.element "rightsMetadata" []
    (.element "access" [("type", "read")]
      (.element "file" [] (.text "a.pdf" .nil)
      (.element "machine" []
        (.element "world" [] .nil (.element "world|2" [] .nil .nil))
      (.element "rightsMetadata" []
        (.element "access" [("type", "read")]
          (.element "file" [] (.text "a.pdf" .nil)
          (.element "machine" [] (.element "world" [] .nil .nil) .nil)) .nil) .nil)))
    (.element "access" [("type", "read")]
      (.element "file" [] (.text "a.pdf" .nil)
      (.element "machine" [] (.element "none" [] .nil .nil) .nil)) .nil)) .nil⟩

theorem countsFiles_overruled : ∃ evaluation summary,
    overruled.view.evaluate .indexing ⟨0, 0⟩ = .ok evaluation ∧
      evaluation.summary = .ok summary ∧
      summary.hasTerm "file_rights_count|3" = true ∧
      summary.hasTerm "file_rights_for_world|2" = true ∧
      summary.hasTerm "file_rights_for_world|2|1" = true ∧
      summary.hasTerm "file_rights_for_world|1" = false ∧
      summary.hasTerm "file_has_agent" = false := by
  have h : overruled.view.evaluate .indexing ⟨0, 0⟩ = .ok _ := rfl
  obtain ⟨summary, hsummary, hcounts⟩ := countsFiles_of_evaluate h rfl
  refine ⟨_, summary, h, hsummary, ?_, ?_, ?_, ?_, ?_⟩
  · exact (hcounts.machines 3).mpr (by decide)
  · exact (hcounts.elements "world" 2).mpr (by decide)
  · exact (hcounts.elements "world|2" 1).mpr (by decide)
  · rw [← Bool.not_eq_true]
    exact mt (hcounts.elements "world" 1).mp (by decide)
  · rw [← Bool.not_eq_true]
    exact mt (hcounts.presence "agent").mp (by decide)

end Document

end AccessRights
