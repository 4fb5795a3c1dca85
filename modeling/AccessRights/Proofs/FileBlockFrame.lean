import AccessRights.Proofs.Evaluated
import AccessRights.Proofs.FindingFacts
import AccessRights.Proofs.TermFacts

/-!
# What one more block for files changes

`Metadata.GainsFileBlock` relates what two documents say where the second has one more
access block than the first: a block for reading files, without a release date, somewhere
among the others.  This module says what the block leaves alone.  All that is read from
the blocks for the object is the same (`blocksOf_object`), and with it the findings and
the label, which no fact about files enters.  The release date is the same, since the
block adds none.  Of the files, those that the block does not list keep what they have;
those that it lists keep it where a later block lists them too, and otherwise have what
this block says and nothing from the blocks before (`get?_fileEntitlements_own`).
-/

namespace AccessRights

namespace Metadata

/-- The block is for reading and lists the file. -/
def Decides (file : String) (block : Block) : Prop :=
  block.kind = .read ∧ file ∈ block.files

instance (file : String) (block : Block) : Decidable (Decides file block) :=
  inferInstanceAs (Decidable (_ ∧ _))

/-- A block that lists a file is about files. -/
theorem scope_of_mem_files {block : Block} {file : String} (h : file ∈ block.files) :
    block.scope = .files := by
  unfold Block.scope
  rw [if_neg]
  rw [List.isEmpty_iff]
  exact List.ne_nil_of_mem h

/-- A file has what the last block that decides about it says. -/
theorem get?_fileEntitlements (metadata : Metadata) (file : String) :
    metadata.fileEntitlements.get? file =
      ((metadata.blocks.filter fun block => Decides file block).getLast?).map
        fun block => .ofFiles block.grants := by
  unfold fileEntitlements blocksOf
  rw [NameMap.get?_ofList_flatMap, List.filter_filter]
  congr 2
  refine List.filter_congr fun block _ => ?_
  rw [Bool.eq_iff_iff]
  simp only [Bool.and_eq_true, beq_iff_eq, decide_eq_true_eq]
  constructor
  · rintro ⟨hfile, hkind, -⟩
    exact ⟨hkind, hfile⟩
  · rintro ⟨hkind, hfile⟩
    exact ⟨hfile, hkind, scope_of_mem_files hfile⟩

/-- `after` says what `before` says, with one more block for reading files, which comes
between the blocks `front` and `back` and holds no release date. -/
structure GainsFileBlock (front back : List Block) (added : Block) (before after : Metadata) :
    Prop where
  isPresent : before.isPresent = after.isPresent
  before_blocks : before.blocks = front ++ back
  after_blocks : after.blocks = front ++ added :: back
  kind : added.kind = .read
  scope : added.scope = .files
  releaseDate : ∀ machine ∈ added.machines, machine.releaseDate = none

namespace GainsFileBlock

variable {front back : List Block} {added : Block} {before after : Metadata}

/-- **The blocks for the object stay the same.** -/
theorem blocksOf_object (h : GainsFileBlock front back added before after) (kind : AccessKind) :
    before.blocksOf kind .object = after.blocksOf kind .object := by
  have hadded : (added.kind == kind && added.scope == .object) = false := by
    rw [h.scope]
    exact Bool.and_false _
  unfold blocksOf
  rw [h.before_blocks, h.after_blocks, List.filter_append, List.filter_append,
    List.filter_cons_of_neg (by simp only [hadded, Bool.false_eq_true, not_false_eq_true])]

theorem machinesOf_object (h : GainsFileBlock front back added before after)
    (kind : AccessKind) : before.machinesOf kind .object = after.machinesOf kind .object := by
  rw [machinesOf, machinesOf, h.blocksOf_object]

theorem grantsOf_object (h : GainsFileBlock front back added before after) (kind : AccessKind) :
    before.grantsOf kind .object = after.grantsOf kind .object := by
  rw [grantsOf, grantsOf, h.machinesOf_object]

theorem objectEntitlements_eq (h : GainsFileBlock front back added before after) :
    before.objectEntitlements = after.objectEntitlements := by
  rw [objectEntitlements, objectEntitlements, h.grantsOf_object]

theorem releaseDate?_eq (h : GainsFileBlock front back added before after) :
    before.releaseDate? = after.releaseDate? := by
  have hadded : added.machines.findSome? (·.releaseDate) = none :=
    List.findSome?_eq_none_iff.mpr h.releaseDate
  unfold releaseDate?
  rw [h.before_blocks, h.after_blocks, List.filter_append, List.filter_append,
    List.filter_cons_of_pos (by rw [h.kind]; exact BEq.rfl), List.flatMap_append,
    List.flatMap_append, List.flatMap_cons, List.findSome?_append, List.findSome?_append,
    List.findSome?_append, hadded, Option.none_or]

theorem findings_eq (h : GainsFileBlock front back added before after) :
    Index.findings before = Index.findings after := by
  unfold Index.findings Index.missing Index.discoveryIsUnclear
  simp only [h.isPresent, h.blocksOf_object, h.machinesOf_object, h.grantsOf_object]

/-- No fact about files enters the label. -/
theorem classify_eq (h : GainsFileBlock front back added before after) :
    Index.classify (Index.findings before) (Index.terms before) =
      Index.classify (Index.findings after) (Index.terms after) := by
  unfold Index.classify
  simp only [Index.mem_terms_iff, Index.Term.HoldsOf, h.findings_eq, h.grantsOf_object,
    h.machinesOf_object]

/-- Of a summary, the parts about the object stay the same. -/
theorem summary_eq (h : GainsFileBlock front back added before after) :
    (Index.Summary.ofMetadata before).label = (Index.Summary.ofMetadata after).label ∧
    (Index.Summary.ofMetadata before).findings = (Index.Summary.ofMetadata after).findings ∧
    (Index.Summary.ofMetadata before).object = (Index.Summary.ofMetadata after).object := by
  unfold Index.Summary.ofMetadata Index.Summary.withListings
  rw [h.isPresent]
  split
  · dsimp only
    exact ⟨h.classify_eq, h.findings_eq, by rw [h.grantsOf_object]⟩
  · exact ⟨rfl, rfl, rfl⟩

/-! ## Files -/

/-- The blocks that decide about a file the added block does not list are the same. -/
theorem get?_fileEntitlements_of_not_mem (h : GainsFileBlock front back added before after)
    {file : String} (hfile : file ∉ added.files) :
    after.fileEntitlements.get? file = before.fileEntitlements.get? file := by
  rw [get?_fileEntitlements, get?_fileEntitlements, h.before_blocks, h.after_blocks,
    List.filter_append, List.filter_append,
    List.filter_cons_of_neg (by simpa using fun hdecides : Decides file added => hfile hdecides.2)]

/-- A later block hides what the added block says. -/
theorem get?_fileEntitlements_of_later (h : GainsFileBlock front back added before after)
    {file : String} (hlater : ∃ later ∈ back, Decides file later) :
    after.fileEntitlements.get? file = before.fileEntitlements.get? file := by
  have hfound : ((back.filter fun block => Decides file block).getLast?).isSome := by
    obtain ⟨later, hmem, hdecides⟩ := hlater
    rw [List.getLast?_isSome]
    exact List.ne_nil_of_mem (List.mem_filter.mpr ⟨hmem, decide_eq_true hdecides⟩)
  obtain ⟨last, hlast⟩ := Option.isSome_iff_exists.mp hfound
  rw [get?_fileEntitlements, get?_fileEntitlements, h.before_blocks, h.after_blocks,
    ← List.singleton_append, ← List.append_assoc, List.filter_append, List.filter_append front back,
    List.getLast?_append, List.getLast?_append, hlast, Option.some_or, Option.some_or]

/-- **Without a later block the added one decides alone**, and nothing is merged into it
from the blocks before. -/
theorem get?_fileEntitlements_own (h : GainsFileBlock front back added before after)
    {file : String} (hfile : file ∈ added.files) (hlater : ¬ ∃ later ∈ back, Decides file later) :
    after.fileEntitlements.get? file = some (.ofFiles added.grants) := by
  have hback : (back.filter fun block => Decides file block) = [] := by
    refine List.filter_eq_nil_iff.mpr fun later hmem hdecides => ?_
    exact hlater ⟨later, hmem, of_decide_eq_true hdecides⟩
  have hadded : Decides file added := ⟨h.kind, hfile⟩
  rw [get?_fileEntitlements, h.after_blocks, List.filter_append,
    List.filter_cons, if_pos (decide_eq_true hadded), hback, List.getLast?_append]
  rfl

end GainsFileBlock

end Metadata

end AccessRights
