import AccessRights.Proofs.ElementTrees
import AccessRights.Proofs.Evaluated

/-!
# The layout of grants does not matter

The grants of the object may stand in one machine, or spread over several machines,
blocks and rights elements, with machines and blocks between them that grant nothing.
`Document.evaluate_eq_of_writes` says that this makes no difference: evaluation gives
one and the same result, or the same fault, for all documents that write the same grants
in the same order, beside the same blocks for discovery and for files.

## What carries the argument

`Metadata.SameUpToLayout` lists all that evaluation takes from what a document says.
Of the machines for reading the object that is their grants, whether there is a machine
at all, whether any rule stands in them, and the release date.  The last two are looked
for at any depth below a machine, and so they are told from the grants and what is
inside these (`Document.flatMap_inside_machines`).

Release dates count in machines of either scope, and the first one decides.  Where dates
stand in blocks for files as well, it matters which block comes first, which is why the
law asks that there be none.
-/

namespace AccessRights

/-! ## What evaluation takes from a document -/

/-- Two documents say the same, up to how the grants for reading the object are spread
over machines and blocks. -/
structure Metadata.SameUpToLayout (left right : Metadata) : Prop where
  isPresent : left.isPresent = right.isPresent
  discovery : left.blocksOf .discover .object = right.blocksOf .discover .object
  files : left.blocksOf .read .files = right.blocksOf .read .files
  grants : left.grantsOf .read .object = right.grantsOf .read .object
  /-- A document without blocks is found to lack them, whatever machines it lacks. -/
  blocks_isEmpty : (left.blocksOf .read .object).isEmpty = (right.blocksOf .read .object).isEmpty
  machines_isEmpty :
    (left.machinesOf .read .object).isEmpty = (right.machinesOf .read .object).isEmpty
  hasRule : (left.machinesOf .read .object).any (·.hasRule) =
    (right.machinesOf .read .object).any (·.hasRule)
  releaseDate : left.releaseDate? = right.releaseDate?

namespace Metadata.SameUpToLayout

variable {left right : Metadata}

/-- The machines for discovery are those of the blocks, which are the same. -/
theorem machinesOf_discovery (h : left.SameUpToLayout right) :
    left.machinesOf .discover .object = right.machinesOf .discover .object := by
  rw [machinesOf, machinesOf, h.discovery]

theorem grantsOf_discovery (h : left.SameUpToLayout right) :
    left.grantsOf .discover .object = right.grantsOf .discover .object := by
  rw [grantsOf, grantsOf, h.machinesOf_discovery]

theorem grantsOf_files (h : left.SameUpToLayout right) :
    left.grantsOf .read .files = right.grantsOf .read .files := by
  rw [grantsOf, grantsOf, machinesOf, machinesOf, h.files]

/-- A check looks for blocks, for machines and for what settles discovery, and finds the same. -/
theorem findings_eq (h : left.SameUpToLayout right) :
    Index.findings left = Index.findings right := by
  unfold Index.findings Index.missing Index.discoveryIsUnclear
  rw [h.isPresent, h.discovery, h.machinesOf_discovery, h.grantsOf_discovery, h.blocks_isEmpty,
    h.machines_isEmpty]

/-- Terms are made of grants, rules and blocks for files. -/
theorem terms_eq (h : left.SameUpToLayout right) : Index.terms left = Index.terms right := by
  unfold Index.terms Index.readingTerms
  rw [h.grantsOf_discovery, h.grants, h.hasRule, h.grantsOf_files, h.files]

/-- Hence the summaries for the index are the same too. -/
theorem summary_eq (h : left.SameUpToLayout right) :
    Index.Summary.ofMetadata left = Index.Summary.ofMetadata right := by
  unfold Index.Summary.ofMetadata Index.Summary.withListings
  rw [h.isPresent, h.findings_eq, h.terms_eq, h.grants, h.files]

/-- **Evaluation takes no more than this from a document.**  With the instant fixed, the
clock does not count either. -/
theorem evaluate_eq (h : left.SameUpToLayout right) {options : Options}
    {instant : Calendar.Instant} (hpinned : options.evaluatedAt = some instant)
    (now now' : Calendar.Instant) : left.evaluate options now = right.evaluate options now' := by
  rw [Metadata.evaluate_eq, Metadata.evaluate_eq]
  unfold objectEntitlements fileEntitlements
  rw [h.releaseDate, h.grants, h.files, h.summary_eq, hpinned]
  rfl

end Metadata.SameUpToLayout

/-! ## Machines told from their grants -/

/-- Items that give nothing can be left out. -/
theorem flatMap_filter_of_eq_nil {α β : Type} (p : α → Bool) (f : α → List β) {items : List α}
    (h : ∀ item ∈ items, p item = false → f item = []) :
    (items.filter p).flatMap f = items.flatMap f := by
  induction items with
  | nil => rfl
  | cons item rest ih =>
    obtain ⟨hitem, hrest⟩ := List.forall_mem_cons.mp h
    rw [List.filter_cons, List.flatMap_cons, ← ih hrest]
    cases hp : p item with
    | true => rfl
    | false =>
      rw [hitem hp]
      rfl

namespace Document

variable (document : Document)

/-- Grants are the children of the machines, here without their numbers. -/
theorem map_element_grants (kind : AccessKind) (scope : Scope) :
    (document.grants kind scope).map Node.element =
      ((document.machines kind scope).map Node.element).flatMap Element.children := by
  unfold grants
  rw [List.map_flatMap, List.flatMap_map]
  exact List.flatMap_congr fun machine _ => machine.map_element_children

/-- **What is inside machines is their grants with what is inside these.** -/
theorem flatMap_inside_machines (kind : AccessKind) (scope : Scope) :
    ((document.machines kind scope).map Node.element).flatMap Element.inside =
      ((document.grants kind scope).map Node.element).flatMap Element.withInside := by
  rw [map_element_grants, List.flatMap_assoc]
  exact List.flatMap_congr fun machine _ => machine.inside_eq_flatMap

/-- Where blocks for files hold no release date, the blocks for the object have them
all. -/
theorem releaseDates_eq_of_object
    (h : ∀ block ∈ document.blocks .read .files, ∀ inner ∈ block.descendants,
      inner.name ≠ Vocabulary.releaseDate) :
    document.releaseDates = (document.machines .read .object).flatMap fun machine =>
      machine.descendants.filter fun inner => inner.name = Vocabulary.releaseDate := by
  unfold releaseDates machines blocks
  rw [List.flatMap_assoc, List.flatMap_assoc]
  refine (flatMap_filter_of_eq_nil _ _ fun block hblock hscope => ?_).symm
  have hfiles : block.blockScope = .files := by
    unfold Node.blockScope at hscope ⊢
    split at hscope
    · exact absurd hscope (by decide)
    · next hlisted => rw [if_neg hlisted]
  have hmem : block ∈ document.blocks .read .files :=
    List.mem_filter.mpr ⟨hblock, decide_eq_true hfiles⟩
  refine List.flatMap_eq_nil_iff.mpr fun machine hmachine => ?_
  refine List.filter_eq_nil_iff.mpr fun inner hinner hdate => ?_
  -- What is inside a machine is inside its block.
  have hinside : machine ∈ block.descendants :=
    block.children_sublist.subset (List.mem_of_mem_filter hmachine)
  have hbelow : inner ∈ block.descendants := (Content.descendants_sublist hinside).subset hinner
  exact h block hmem inner hbelow (of_decide_eq_true hdate)

/-! ## What is read, told from the elements -/

/-- Blocks are read from elements alone, whatever the numbers of these are. -/
theorem metadata_blocksOf_eq (kind : AccessKind) (scope : Scope) :
    document.view.metadata.blocksOf kind scope =
      ((document.blocks kind scope).map Node.element).map fun element => element.block kind := by
  rw [metadata_blocksOf, List.map_map]
  exact List.map_congr_left fun block _ => document.root.toBlock_eq block kind

theorem metadata_machinesOf_eq (kind : AccessKind) (scope : Scope) :
    document.view.metadata.machinesOf kind scope =
      ((document.machines kind scope).map Node.element).map Element.machine := by
  rw [metadata_machinesOf, List.map_map]
  exact List.map_congr_left fun machine _ => document.root.view_machine_eq machine

theorem metadata_grantsOf_eq (kind : AccessKind) (scope : Scope) :
    document.view.metadata.grantsOf kind scope =
      ((document.grants kind scope).map Node.element).map Element.grant :=
  (document.metadata_grantsOf kind scope).trans (document.root.map_view_grant _)

end Document

/-! ## Layouts -/

/-- The document writes these grants for reading the object, in this order, in at least
one machine, beside these blocks for discovering the object and for reading files.  How
the grants are spread over machines, blocks and rights elements is left open. -/
structure Document.Writes (document : Document) (grants discovery files : List Element) :
    Prop where
  grants : (document.grants .read .object).map Node.element = grants
  has_machine : document.machines .read .object ≠ []
  discovery : (document.blocks .discover .object).map Node.element = discovery
  files : (document.blocks .read .files).map Node.element = files

namespace Document.Writes

variable {document : Document} {grants discovery files : List Element}

/-- Whether any rule stands in the machines can be told from the grants and what is inside these.
-/
theorem hasRule_eq (h : document.Writes grants discovery files) :
    (document.view.metadata.machinesOf .read .object).any (·.hasRule) =
      (grants.flatMap Element.withInside).any fun inner => inner.rule?.isSome := by
  rw [← h.grants, ← flatMap_inside_machines, List.any_flatMap, metadata_machinesOf_eq,
    List.any_map]
  rfl

/-- So can the release date, where none stands in a block for files. -/
theorem releaseDate?_eq (h : document.Writes grants discovery files)
    (hdates : ∀ block ∈ files, ∀ inner ∈ block.inside, inner.name ≠ Vocabulary.releaseDate) :
    document.view.metadata.releaseDate? =
      ((grants.flatMap Element.withInside).find? fun inner =>
        inner.name = Vocabulary.releaseDate).map Element.text := by
  have hnone : ∀ block ∈ document.blocks .read .files, ∀ inner ∈ block.descendants,
      inner.name ≠ Vocabulary.releaseDate := by
    intro block hblock inner hinner
    have hfile : block.element ∈ files := h.files ▸ List.mem_map_of_mem hblock
    have hinside : inner.element ∈ block.element.inside :=
      block.map_element_descendants ▸ List.mem_map_of_mem hinner
    exact hdates block.element hfile inner.element hinside
  have hdatesOf : document.releaseDates.map Node.element =
      (grants.flatMap Element.withInside).filter fun inner =>
        inner.name = Vocabulary.releaseDate := by
    rw [document.releaseDates_eq_of_object hnone, ← h.grants, ← flatMap_inside_machines,
      List.filter_flatMap, List.map_flatMap, List.flatMap_map]
    refine List.flatMap_congr fun machine _ => ?_
    rw [← machine.map_element_descendants, List.filter_map]
    rfl
  calc document.view.metadata.releaseDate?
      = (document.releaseDates.map Node.element).head?.map Element.text := by
        rw [metadata_releaseDate?, List.head?_map, Option.map_map]
        rfl
    _ = _ := by rw [hdatesOf, List.head?_filter]

/-- A document that writes grants has a rights element. -/
theorem isPresent_eq_true (h : document.Writes grants discovery files) :
    document.view.metadata.isPresent = true :=
  document.metadata_isPresent_eq_true_iff.mpr (rightsElements_ne_nil_of_machines h.has_machine)

/-- It has a block for reading the object. -/
theorem isEmpty_blocksOf (h : document.Writes grants discovery files) :
    (document.view.metadata.blocksOf .read .object).isEmpty = false := by
  rw [metadata_blocksOf_eq, List.isEmpty_map, List.isEmpty_map, List.isEmpty_eq_false_iff]
  exact blocks_ne_nil_of_machines h.has_machine

/-- And a machine in it. -/
theorem isEmpty_machinesOf (h : document.Writes grants discovery files) :
    (document.view.metadata.machinesOf .read .object).isEmpty = false := by
  rw [metadata_machinesOf_eq, List.isEmpty_map, List.isEmpty_map, List.isEmpty_eq_false_iff]
  exact h.has_machine

/-- Documents that write the same say the same, up to layout. -/
theorem sameUpToLayout {left right : Document} (hleft : left.Writes grants discovery files)
    (hright : right.Writes grants discovery files)
    (hdates : ∀ block ∈ files, ∀ inner ∈ block.inside, inner.name ≠ Vocabulary.releaseDate) :
    left.view.metadata.SameUpToLayout right.view.metadata where
  isPresent := hleft.isPresent_eq_true.trans hright.isPresent_eq_true.symm
  discovery := by
    rw [metadata_blocksOf_eq, metadata_blocksOf_eq, hleft.discovery, hright.discovery]
  files := by
    rw [metadata_blocksOf_eq, metadata_blocksOf_eq, hleft.files, hright.files]
  grants := by
    rw [metadata_grantsOf_eq, metadata_grantsOf_eq, hleft.grants, hright.grants]
  blocks_isEmpty := hleft.isEmpty_blocksOf.trans hright.isEmpty_blocksOf.symm
  machines_isEmpty := hleft.isEmpty_machinesOf.trans hright.isEmpty_machinesOf.symm
  hasRule := hleft.hasRule_eq.trans hright.hasRule_eq.symm
  releaseDate := (hleft.releaseDate?_eq hdates).trans (hright.releaseDate?_eq hdates).symm

end Document.Writes

/-! ## Rights elements side by side -/

namespace Document

/-- **The layout of grants does not matter.**  Two documents that write the same grants
for reading the object, in the same order, beside the same blocks for discovery and for
files, are evaluated alike: to one and the same result, or to the same fault. -/
theorem evaluate_eq_of_writes {left right : Document} {grants discovery files : List Element}
    (hleft : left.Writes grants discovery files) (hright : right.Writes grants discovery files)
    (hdates : ∀ block ∈ files, ∀ inner ∈ block.inside, inner.name ≠ Vocabulary.releaseDate)
    {options : Options} {instant : Calendar.Instant}
    (hpinned : options.evaluatedAt = some instant) (now now' : Calendar.Instant) :
    left.view.evaluate options now = right.view.evaluate options now' :=
  (hleft.sameUpToLayout hright hdates).evaluate_eq hpinned now now'

/-- All grants in one machine, with blocks for discovery and for a file after it. -/
def pooled : Document :=
  ⟨.element "rightsMetadata" []
    (.element "access" [("type", "read")]
      (.element "machine" []
        (.element "world" [("rule", "no-download")] .nil
          (.element "agent" [] (.text "app" .nil)
            (.element "embargoReleaseDate" [] (.text "2031-05-04" .nil) .nil))) .nil)
    (.element "access" [("type", "discover")]
      (.element "machine" [] (.element "world" [] .nil .nil) .nil)
    (.element "access" [("type", "read")]
      (.element "file" [] (.text "a.pdf" .nil)
        (.element "machine" [] (.element "none" [] .nil .nil) .nil)) .nil))) .nil⟩

/-- The same grants in two rights elements inside another element, with machines and a
block that grant nothing. -/
def spread : Document :=
  ⟨.element "object" []
    (.element "rightsMetadata" []
      (.element "access" [("type", "discover")]
        (.element "machine" [] (.element "world" [] .nil .nil) .nil)
      (.element "access" [("type", "read")] .nil
      (.element "access" [("type", "read")]
        (.element "machine" [] .nil
        (.element "machine" []
          (.text "open" (.element "world" [("rule", "no-download")] .nil
            (.element "agent" [] (.text "app" .nil) .nil))) .nil)) .nil)))
    (.element "rightsMetadata" []
      (.element "access" [("type", "read")]
        (.element "file" [] (.text "a.pdf" .nil)
          (.element "machine" [] (.element "none" [] .nil .nil) .nil))
      (.element "access" [("type", "read")]
        (.element "machine" []
          (.element "embargoReleaseDate" [] (.text "2031-05-04" .nil) .nil) .nil) .nil)) .nil))
    .nil⟩

theorem evaluate_eq_of_writes_spread : ∃ grants discovery files evaluation,
    pooled.Writes grants discovery files ∧ spread.Writes grants discovery files ∧
      (∀ block ∈ files, ∀ inner ∈ block.inside, inner.name ≠ Vocabulary.releaseDate) ∧
      grants.length = 3 ∧
      pooled.view.evaluate ⟨true, some ⟨0, 0⟩⟩ ⟨1, 0⟩ = .ok evaluation ∧
      spread.view.evaluate ⟨true, some ⟨0, 0⟩⟩ ⟨2, 0⟩ = .ok evaluation := by
  have hpooled : pooled.Writes _ _ _ := ⟨rfl, by decide, rfl, rfl⟩
  have hspread : spread.Writes ((pooled.grants .read .object).map Node.element)
      ((pooled.blocks .discover .object).map Node.element)
      ((pooled.blocks .read .files).map Node.element) :=
    ⟨by decide, by decide, by decide, by decide⟩
  have hdates : ∀ block ∈ (pooled.blocks .read .files).map Node.element,
      ∀ inner ∈ block.inside, inner.name ≠ Vocabulary.releaseDate := by
    decide
  have h : pooled.view.evaluate ⟨true, some ⟨0, 0⟩⟩ ⟨1, 0⟩ = .ok _ := rfl
  have hsame : pooled.view.evaluate ⟨true, some ⟨0, 0⟩⟩ ⟨1, 0⟩ =
      spread.view.evaluate ⟨true, some ⟨0, 0⟩⟩ ⟨2, 0⟩ :=
    evaluate_eq_of_writes hpooled hspread hdates rfl ⟨1, 0⟩ ⟨2, 0⟩
  exact ⟨_, _, _, _, hpooled, hspread, hdates, by decide, h, hsame.symm.trans h⟩

end Document

end AccessRights
