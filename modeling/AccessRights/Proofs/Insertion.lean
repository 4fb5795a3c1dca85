import AccessRights.Proofs.BlockTrees
import AccessRights.Proofs.FileBlockFrame

/-!
# Adding a block for files is a local change

A document gains an access block for reading files, at any place right inside a rights
element that is not inside another one.  `Document.evaluate_of_gains` says that nothing
changes but what is said of the files that the block lists, and for these only where no
later block lists them.

`Document.Gains` relates the document before to the one after by recursion over the tree,
down to the rights element and then along what is right inside it.  The block is given as
a node of the document after: its number says where it stands, and so which blocks come
after it.  All elements after it have other numbers than before, which is why the blocks
of the two documents are compared as elements.

## What carries the argument

A walk through both documents finds the same access blocks in the same order, with the
new one between them (`Content.GainsInRights.gainsBlock`).  That no rights element stands
inside the block is load-bearing: it would bring more blocks with it.  So is that its
rights element is inside no other, since the block might then stand in a machine and be
a grant too.  What evaluation makes of one more block is `Metadata.GainsFileBlock`.
-/

namespace AccessRights

/-! ## Documents with one more element -/

namespace Content

/-- `after` is `before` with one more element among those at the top: in front of all, after
some text or element, or within a run of text, which it splits.  Numbers are those of
`after`, from `k`. -/
inductive GainsAtTop (added : Node) : Nat → Content → Content → Prop
  | here (content : Content) :
    GainsAtTop added added.number content
      (element added.name added.attributes added.content content)
  | withinText (first second : String) (rest : Content) :
    GainsAtTop added added.number (text (first ++ second) rest)
      (text first (element added.name added.attributes added.content (text second rest)))
  | afterText {k : Nat} {before after : Content} (value : String) :
    GainsAtTop added k before after → GainsAtTop added k (text value before) (text value after)
  | afterElement {k : Nat} {before after : Content} (name : String)
    (attributes : List (String × String)) (inner : Content) :
    GainsAtTop added (k + inner.size + 1) before after →
      GainsAtTop added k (element name attributes inner before)
        (element name attributes inner after)

/-- `after` is `before` with one more element right inside a rights element, at any depth
but inside no other rights element. -/
inductive GainsInRights (added : Node) : Nat → Content → Content → Prop
  | rights {k : Nat} {inner inner' : Content} (attributes : List (String × String))
    (rest : Content) :
    GainsAtTop added (k + 1) inner inner' →
      GainsInRights added k (element Vocabulary.rightsMetadata attributes inner rest)
        (element Vocabulary.rightsMetadata attributes inner' rest)
  | inside {k : Nat} {inner inner' : Content} (name : String)
    (attributes : List (String × String)) (rest : Content) :
    name ≠ Vocabulary.rightsMetadata → GainsInRights added (k + 1) inner inner' →
      GainsInRights added k (element name attributes inner rest)
        (element name attributes inner' rest)
  | afterText {k : Nat} {before after : Content} (value : String) :
    GainsInRights added k before after →
      GainsInRights added k (text value before) (text value after)
  | afterElement {k : Nat} {before after : Content} (name : String)
    (attributes : List (String × String)) (inner : Content) :
    GainsInRights added (k + inner.size + 1) before after →
      GainsInRights added k (element name attributes inner before)
        (element name attributes inner after)

end Content

/-- `after` is `before` with one more element right inside a rights element that is inside
no other.  `added` is the new element as it stands in `after`. -/
def Document.Gains (added : Node) (before after : Document) : Prop :=
  Content.GainsInRights added 1 before.content after.content

/-- An access block for reading files that brings no other blocks with it and no release
date. -/
structure Node.IsFileBlock (block : Node) : Prop where
  name : block.name = Vocabulary.access
  kind : block.attribute? Vocabulary.type = some AccessKind.read.name
  listsFiles : block.listedFiles ≠ []
  inside : ∀ inner ∈ block.descendants,
    inner.name ≠ Vocabulary.rightsMetadata ∧ inner.name ≠ Vocabulary.releaseDate

/-! ## The blocks of a document with one more block -/

/-- As elements, the blocks after are those before with one more between them. -/
def GainsBlock (added : Node) (before after : List Node) : Prop :=
  ∃ front back, after = front ++ added :: back ∧
    before.map Node.element = (front ++ back).map Node.element

namespace GainsBlock

variable {added : Node} {before after : List Node}

/-- Blocks in front of the place of the new one stay in front. -/
theorem append_left (h : GainsBlock added before after) (nodes : List Node) :
    GainsBlock added (nodes ++ before) (nodes ++ after) := by
  obtain ⟨front, back, hafter, hbefore⟩ := h
  refine ⟨nodes ++ front, back, by rw [hafter, List.append_assoc], ?_⟩
  rw [List.map_append, hbefore, ← List.map_append, List.append_assoc]

/-- What follows may differ in its numbers. -/
theorem append_right (h : GainsBlock added before after) {left right : List Node}
    (hsame : left.map Node.element = right.map Node.element) :
    GainsBlock added (before ++ left) (after ++ right) := by
  obtain ⟨front, back, hafter, hbefore⟩ := h
  refine ⟨front, back ++ right, by rw [hafter, List.append_assoc]; rfl, ?_⟩
  rw [List.map_append, hbefore, hsame, ← List.map_append, List.append_assoc]

end GainsBlock

namespace Content

/-- Blocks do not depend, as elements, on where numbering starts. -/
theorem map_element_blockNodesFrom_eq (k k' : Nat) (inRights : Bool) (content : Content) :
    (content.blockNodesFrom k inRights).map Node.element =
      (content.blockNodesFrom k' inRights).map Node.element := by
  rw [map_element_blockNodesFrom, map_element_blockNodesFrom]

/-- No block is found where there is no rights element. -/
theorem blockNodesFrom_eq_nil {k : Nat} {content : Content}
    (h : ∀ node ∈ content.nodesFrom k, node.name ≠ Vocabulary.rightsMetadata) :
    content.blockNodesFrom k false = [] := by
  refine List.eq_nil_iff_forall_not_mem.mpr fun node hnode => ?_
  obtain ⟨-, hrights | ⟨rights, hmem, hname, -⟩⟩ := mem_blockNodesFrom_iff.mp hnode
  · cases hrights.1
  · exact h rights hmem hname

variable {added : Node}

/-- Right inside a rights element the new block is found, and nothing in it. -/
theorem blockNodesFrom_added (hadded : added.IsFileBlock) (rest : Content) :
    (element added.name added.attributes added.content rest).blockNodesFrom added.number true =
      added :: rest.blockNodesFrom (added.number + added.content.size + 1) true := by
  have hrights : decide (added.name = Vocabulary.rightsMetadata) = false := by
    rw [hadded.name]
    rfl
  have hinside : added.content.blockNodesFrom (added.number + 1) false = [] :=
    blockNodesFrom_eq_nil fun inner hinner => (hadded.inside inner hinner).1
  rw [blockNodesFrom, if_pos ⟨rfl, hadded.name⟩, hrights, hinside]
  rfl

/-- An access element that is new at the top of a rights element is one new block there. -/
theorem GainsAtTop.gainsBlock {k : Nat} {before after : Content}
    (h : GainsAtTop added k before after) (hadded : added.IsFileBlock) :
    GainsBlock added (before.blockNodesFrom k true) (after.blockNodesFrom k true) := by
  induction h with
  | here content =>
    exact ⟨[], _, blockNodesFrom_added hadded content, map_element_blockNodesFrom_eq ..⟩
  | withinText first second rest =>
    exact ⟨[], _, blockNodesFrom_added hadded (text second rest),
      map_element_blockNodesFrom_eq ..⟩
  | afterText value _ ih => exact ih
  | afterElement name attributes inner _ ih => exact (ih.append_left _).append_left _

/-- **The access blocks stay as they are, with the new one between them.** -/
theorem GainsInRights.gainsBlock {k : Nat} {before after : Content}
    (h : GainsInRights added k before after) (hadded : added.IsFileBlock) :
    GainsBlock added (before.blockNodesFrom k false) (after.blockNodesFrom k false) := by
  induction h with
  | rights attributes rest hgains =>
    exact (hgains.gainsBlock hadded).append_right (map_element_blockNodesFrom_eq ..)
  | inside name attributes rest hname _ ih =>
    rw [blockNodesFrom, blockNodesFrom, decide_eq_false hname]
    simp only [Bool.false_eq_true, false_and, if_false, List.nil_append]
    exact ih.append_right (map_element_blockNodesFrom_eq ..)
  | afterText value _ ih => exact ih
  | afterElement name attributes inner _ ih => exact (ih.append_left _).append_left _

/-- There is a rights element before and after. -/
theorem GainsInRights.hasRights {k : Nat} {before after : Content}
    (h : GainsInRights added k before after) :
    (before.allElements.any fun element => element.name = Vocabulary.rightsMetadata) = true ∧
      (after.allElements.any fun element => element.name = Vocabulary.rightsMetadata) = true := by
  induction h with
  | rights attributes rest _ => simp [allElements]
  | inside name attributes rest _ _ ih => simp [allElements, ih.1, ih.2]
  | afterText value _ ih => exact ih
  | afterElement name attributes inner _ ih => simp [allElements, ih.1, ih.2]

end Content

/-! ## What is read from the new block -/

theorem Node.files_block (node : Node) (kind : AccessKind) :
    (node.element.block kind).files = node.listedFiles := by
  rw [← node.toBlock_eq]
  rfl

/-- An access element with the name of a kind is read as a block, numbers or not. -/
theorem Node.block?_element_of_kind {node : Node} {kind : AccessKind}
    (h : node.attribute? Vocabulary.type = some kind.name) :
    node.element.block? = some (node.element.block kind) := by
  rw [← node.view_block?_eq, view_block?_of_kind node node h, toBlock_eq]

namespace Node.IsFileBlock

variable {block : Node}

/-- A block that lists files is about files. -/
theorem scope_eq (h : block.IsFileBlock) : (block.element.block .read).scope = .files := by
  rw [← block.toBlock_eq, toBlock_scope, blockScope, if_neg h.listsFiles]

/-- There is no release date in what it says. -/
theorem releaseDate_eq_none (h : block.IsFileBlock) :
    ∀ machine ∈ (block.element.block .read).machines, machine.releaseDate = none := by
  intro machine hmachine
  rw [← block.toBlock_eq] at hmachine
  obtain ⟨node, hnode, rfl⟩ := List.mem_map.mp hmachine
  rw [view_machine_releaseDate, Option.map_eq_none_iff, List.find?_eq_none]
  intro inner hinner hname
  have hbelow : inner ∈ block.descendants :=
    (Content.descendants_sublist (block.children_sublist.subset
      (List.mem_of_mem_filter hnode))).subset hinner
  exact (h.inside inner hbelow).2 (of_decide_eq_true hname)

end Node.IsFileBlock

namespace Document

variable {added : Node} {before after : Document}

/-- A block for reading after the new one lists the file. -/
def ListsLater (document : Document) (added : Node) (file : String) : Prop :=
  ∃ block ∈ document.blocksOfKind .read, added.number < block.number ∧ file ∈ block.listedFiles

instance (document : Document) (added : Node) (file : String) :
    Decidable (document.ListsLater added file) :=
  inferInstanceAs (Decidable (∃ block ∈ _, _))

/-- The blocks with greater numbers are those that come later in the list. -/
theorem listsLater_iff {front back : List Node} {file : String}
    (hblocks : after.accessBlocks = front ++ added :: back) :
    after.ListsLater added file ↔
      ∃ later ∈ (back.map Node.element).filterMap Element.block?, Metadata.Decides file later := by
  have horder : InOrder (front ++ added :: back) :=
    hblocks ▸ InOrder.sublist List.filter_sublist after.root.inOrder_descendants
  obtain ⟨-, hback, hfront⟩ := List.pairwise_append.mp horder
  constructor
  · rintro ⟨block, hblock, hlt, hfile⟩
    obtain ⟨hmem, hkind⟩ := List.mem_filter.mp hblock
    rw [hblocks] at hmem
    have hlater : block ∈ back := by
      rcases List.mem_append.mp hmem with hearlier | hmem
      · exact absurd hlt (Nat.lt_asymm (hfront block hearlier added List.mem_cons_self))
      · rcases List.mem_cons.mp hmem with rfl | hlater
        · exact absurd hlt (Nat.lt_irrefl _)
        · exact hlater
    refine ⟨block.element.block .read, ?_, rfl, ?_⟩
    · exact List.mem_filterMap.mpr ⟨block.element, List.mem_map_of_mem hlater,
        Node.block?_element_of_kind (of_decide_eq_true hkind)⟩
    · rw [Node.files_block]
      exact hfile
  · rintro ⟨later, hlater, hkind, hfile⟩
    obtain ⟨element, helement, hread⟩ := List.mem_filterMap.mp hlater
    obtain ⟨block, hblock, rfl⟩ := List.mem_map.mp helement
    rw [← block.view_block?_eq] at hread
    have htype : block.attribute? Vocabulary.type = some AccessKind.read.name :=
      hkind ▸ block.kind_of_view_block? block hread
    rw [block.view_block?_of_kind block htype, Option.some.injEq] at hread
    subst hread
    refine ⟨block, List.mem_filter.mpr ⟨?_, decide_eq_true htype⟩,
      (List.pairwise_cons.mp hback).1 block hblock, hfile⟩
    rw [hblocks]
    exact List.mem_append_right _ (List.mem_cons_of_mem _ hblock)

/-- What the document says gains the block too. -/
theorem Gains.gainsFileBlock (h : Gains added before after) (hadded : added.IsFileBlock) :
    ∃ front back : List Node, after.accessBlocks = front ++ added :: back ∧
      Metadata.GainsFileBlock ((front.map Node.element).filterMap Element.block?)
        ((back.map Node.element).filterMap Element.block?) (added.element.block .read)
        before.view.metadata after.view.metadata := by
  obtain ⟨hrights, hrights'⟩ := Content.GainsInRights.hasRights h
  obtain ⟨front, back, hafter, hbefore⟩ := Content.GainsInRights.gainsBlock h hadded
  refine ⟨front, back, by rw [accessBlocks_eq, hafter], ?_⟩
  rw [Content.map_element_blockNodesFrom] at hbefore
  constructor
  case isPresent => rw [metadata_eq, metadata_eq, hrights, hrights']
  case before_blocks =>
    rw [metadata_eq]
    show (before.content.blockElements false).filterMap Element.block? = _
    rw [hbefore, List.map_append, List.filterMap_append]
  case after_blocks =>
    rw [metadata_eq]
    show (after.content.blockElements false).filterMap Element.block? = _
    rw [← Content.map_element_blockNodesFrom 1, hafter, List.map_append, List.filterMap_append,
      List.map_cons, List.filterMap_cons_some (Node.block?_element_of_kind hadded.kind)]
  case kind => rfl
  case scope => exact hadded.scope_eq
  case releaseDate => exact hadded.releaseDate_eq_none

/-! ## Evaluation -/

/-- How an evaluation changes where a document gains a block for files. -/
structure ChangesListedFilesOnly (document : Document) (added : Node)
    (before after : Evaluation) : Prop where
  object : after.object = before.object
  release : after.release = before.release
  isEmbargoed : after.isEmbargoed = before.isEmbargoed
  /-- There is a summary after if there was one before, and what it says about the object
  is the same. -/
  index : (after.index.map fun summary => (summary.label, summary.findings, summary.object)) =
    before.index.map fun summary => (summary.label, summary.findings, summary.object)
  unlisted : ∀ file, file ∉ added.listedFiles → after.files.get? file = before.files.get? file
  /-- A later block that lists the file hides the new one. -/
  hidden : ∀ file, document.ListsLater added file →
    after.files.get? file = before.files.get? file
  /-- Nothing is merged with what earlier blocks say. -/
  own : ∀ file ∈ added.listedFiles, ¬ document.ListsLater added file →
    after.files.get? file = some (.ofFiles (added.blockGrants.map document.view.grant))

variable {options : Options} {instant now now' : Calendar.Instant}

/-- **A block that is new changes only what it lists.** -/
theorem Gains.changesListedFilesOnly (h : Gains added before after)
    (hadded : added.IsFileBlock) (hpinned : options.evaluatedAt = some instant)
    {evaluation evaluation' : Evaluation}
    (hbefore : before.view.evaluate options now = .ok evaluation)
    (hafter : after.view.evaluate options now' = .ok evaluation') :
    after.ChangesListedFilesOnly added evaluation evaluation' := by
  obtain ⟨front, back, hblocks, hgains⟩ := h.gainsFileBlock hadded
  have hfiles : (added.element.block .read).files = added.listedFiles := added.files_block .read
  have hrelease : evaluation'.release = evaluation.release := by
    have hread := View.release_of_evaluate hbefore
    rw [hgains.releaseDate?_eq] at hread
    exact Except.ok.inj ((View.release_of_evaluate hafter).symm.trans hread)
  constructor
  case object =>
    rw [View.object_of_evaluate hafter, View.object_of_evaluate hbefore,
      hgains.objectEntitlements_eq]
  case release => exact hrelease
  case isEmbargoed =>
    have hinstant : options.instant now' = options.instant now := by
      rw [Options.instant, Options.instant, hpinned]
      rfl
    rw [Bool.eq_iff_iff, View.isEmbargoed_iff_of_evaluate hafter,
      View.isEmbargoed_iff_of_evaluate hbefore, hrelease, hinstant]
  case index =>
    cases hindex : options.forIndex with
    | true =>
      obtain ⟨hlabel, hfindings, hobject⟩ := hgains.summary_eq
      rw [View.index_of_evaluate hafter hindex, View.index_of_evaluate hbefore hindex,
        Option.map_some, Option.map_some, hlabel, hfindings, hobject]
    | false =>
      rw [View.index_of_evaluate_of_not_forIndex hafter hindex,
        View.index_of_evaluate_of_not_forIndex hbefore hindex]
  case unlisted =>
    intro file hfile
    rw [View.files_of_evaluate hafter, View.files_of_evaluate hbefore]
    exact hgains.get?_fileEntitlements_of_not_mem (hfiles ▸ hfile)
  case hidden =>
    intro file hlater
    rw [View.files_of_evaluate hafter, View.files_of_evaluate hbefore]
    exact hgains.get?_fileEntitlements_of_later ((listsLater_iff hblocks).mp hlater)
  case own =>
    intro file hfile hlater
    have hgrants : (added.element.block .read).grants =
        added.blockGrants.map after.view.grant := by
      rw [← after.root.toBlock_eq]
      exact after.root.toBlock_grants added .read
    rw [View.files_of_evaluate hafter, ← hgrants]
    exact hgains.get?_fileEntitlements_own (hfiles ▸ hfile)
      fun hdecides => hlater ((listsLater_iff hblocks).mpr hdecides)

/-- **Adding a block for files is a local change.**  Evaluation fails as it did before and
with the same fault, or it succeeds as before and the two results differ only in the files
that the block lists and that no later block lists; these are entitled to what this block
says.  What the document is found to lack is the same. -/
theorem evaluate_of_gains (h : Gains added before after) (hadded : added.IsFileBlock)
    (hpinned : options.evaluatedAt = some instant) (now now' : Calendar.Instant) :
    after.view.findings = before.view.findings ∧
    ((∃ fault, before.view.evaluate options now = .error fault ∧
      after.view.evaluate options now' = .error fault) ∨
    ∃ evaluation evaluation', before.view.evaluate options now = .ok evaluation ∧
      after.view.evaluate options now' = .ok evaluation' ∧
      after.ChangesListedFilesOnly added evaluation evaluation') := by
  obtain ⟨front, back, -, hgains⟩ := h.gainsFileBlock hadded
  refine ⟨hgains.findings_eq.symm, ?_⟩
  rcases View.evaluate_both hgains.releaseDate?_eq options options now now' with
    hfault | ⟨evaluation, evaluation', hbefore, hafter⟩
  · exact .inl hfault
  · exact .inr ⟨evaluation, evaluation', hbefore, hafter,
      h.changesListedFilesOnly hadded hpinned hbefore hafter⟩

/-- Two blocks for files. -/
def twoBlocks : Document :=
  ⟨.element "rightsMetadata" []
    (.element "access" [("type", "read")]
      (.element "file" [] (.text "a.pdf" .nil)
      (.element "file" [] (.text "c.pdf" .nil)
      (.element "machine" [] (.element "group" [] (.text "Stanford" .nil) .nil) .nil)))
    (.element "access" [("type", "read")]
      (.element "file" [] (.text "b.pdf" .nil)
      (.element "machine" [] (.element "none" [] .nil .nil) .nil)) .nil)) .nil⟩

/-- A block that lists a file of each of the two. -/
def thirdBlock : Node :=
  ⟨7, "access", [("type", "read")],
    .element "file" [] (.text "a.pdf" .nil)
    (.element "file" [] (.text "b.pdf" .nil)
    (.element "machine" [] (.element "world" [("rule", "no-download")] .nil .nil) .nil))⟩

/-- The two blocks with the third one between them. -/
def threeBlocks : Document :=
  ⟨.element "rightsMetadata" []
    (.element "access" [("type", "read")]
      (.element "file" [] (.text "a.pdf" .nil)
      (.element "file" [] (.text "c.pdf" .nil)
      (.element "machine" [] (.element "group" [] (.text "Stanford" .nil) .nil) .nil)))
    (.element "access" [("type", "read")] thirdBlock.content
    (.element "access" [("type", "read")]
      (.element "file" [] (.text "b.pdf" .nil)
      (.element "machine" [] (.element "none" [] .nil .nil) .nil)) .nil))) .nil⟩

theorem evaluate_of_gains_threeBlocks : ∃ evaluation evaluation',
    Gains thirdBlock twoBlocks threeBlocks ∧ thirdBlock.IsFileBlock ∧
      twoBlocks.view.evaluate ⟨true, some ⟨0, 0⟩⟩ ⟨1, 0⟩ = .ok evaluation ∧
      threeBlocks.view.evaluate ⟨true, some ⟨0, 0⟩⟩ ⟨2, 0⟩ = .ok evaluation' ∧
      evaluation'.object = evaluation.object ∧
      evaluation'.files.get? "c.pdf" = evaluation.files.get? "c.pdf" ∧
      evaluation'.files.get? "b.pdf" = evaluation.files.get? "b.pdf" ∧
      evaluation'.files.get? "a.pdf" =
        some (.ofFiles [⟨"world", "", some "no-download", none⟩]) := by
  have hgains : Gains thirdBlock twoBlocks threeBlocks :=
    .rights [] .nil (.afterElement "access" _ _ (.here _))
  have hblock : thirdBlock.IsFileBlock := ⟨rfl, rfl, by decide, by decide⟩
  have hpinned : (⟨true, some ⟨0, 0⟩⟩ : Options).evaluatedAt = some ⟨0, 0⟩ := rfl
  have hbefore : twoBlocks.view.evaluate ⟨true, some ⟨0, 0⟩⟩ ⟨1, 0⟩ = .ok _ := rfl
  have hafter : threeBlocks.view.evaluate ⟨true, some ⟨0, 0⟩⟩ ⟨2, 0⟩ = .ok _ := rfl
  obtain ⟨-, ⟨fault, hfault, -⟩ | ⟨evaluation, evaluation', h, h', hchanges⟩⟩ :=
    evaluate_of_gains hgains hblock hpinned ⟨1, 0⟩ ⟨2, 0⟩
  · cases hbefore.symm.trans hfault
  · cases hbefore.symm.trans h
    cases hafter.symm.trans h'
    exact ⟨_, _, hgains, hblock, hbefore, hafter, hchanges.object,
      hchanges.unlisted "c.pdf" (by decide), hchanges.hidden "b.pdf" (by decide),
      hchanges.own "a.pdf" (by decide) (by decide)⟩

end Document

end AccessRights
