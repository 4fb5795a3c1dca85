import AccessRights.Index.Summary
import AccessRights.Proofs.TallyEntries

/-!
# Terms are the facts that hold

A term is one fact about the grants of a document, and `Term.HoldsOf` says which, term by
term and with no word on the order in which terms are derived.  `mem_terms_iff` is the
law: a document has a term exactly if the fact holds of it.  Whoever needs to know when a
term is there starts from this law, and does not open `terms` again.

The parts of `terms` come first, each with a lemma that lists what is in it.
-/

namespace AccessRights.Index

/-! ## The parts of the terms -/

/-- Terms under a condition are there if the condition holds. -/
@[simp] theorem mem_provided {condition : Bool} {terms : List Term} {term : Term} :
    term ∈ provided condition terms ↔ condition = true ∧ term ∈ terms := by
  unfold provided
  cases condition <;> simp

theorem hasGrant_eq_true_iff {name : String} {grants : List Grant} :
    hasGrant name grants = true ↔ ∃ grant ∈ grants, grant.name = name := by
  unfold hasGrant
  simp only [List.any_eq_true, beq_iff_eq]

/-- There is a first grant of a name exactly if there is one. -/
theorem isSome_firstGrant?_iff {name : String} {grants : List Grant} :
    (firstGrant? name grants).isSome ↔ hasGrant name grants = true := by
  unfold firstGrant?
  rw [List.find?_isSome, hasGrant_eq_true_iff]
  simp only [beq_iff_eq]

theorem mem_and_name_eq_of_firstGrant? {name : String} {grants : List Grant} {grant : Grant}
    (h : firstGrant? name grants = some grant) : grant ∈ grants ∧ grant.name = name := by
  have hname := List.find?_some h
  exact ⟨List.mem_of_find?_eq_some h, eq_of_beq hname⟩

/-- A group adds the terms of the stanford group if one of the groups is that, and else the name
of the first group, in lowercase. -/
theorem mem_groupTerms {term : Term} {grants : List Grant} :
    term ∈ groupTerms grants ↔
      (∃ grant, stanfordGrant? grants = some grant ∧
        (term = .stanfordGroup ∨ (grant.rule.isSome = true ∧ term = .stanfordGroupWithRule))) ∨
      (stanfordGrant? grants = none ∧
        ∃ grant, firstGrant? Vocabulary.group grants = some grant ∧
          term = .group (Text.lowercase grant.text)) := by
  unfold groupTerms
  cases stanfordGrant? grants with
  | some grant => simp
  | none => cases firstGrant? Vocabulary.group grants <;> simp

/-- An express denial stands for itself and silences what is granted to the world. -/
theorem mem_worldTerms {term : Term} {grants : List Grant} :
    term ∈ worldTerms grants ↔
      (hasGrant Vocabulary.none grants = true ∧ term = .noneRead) ∨
      (hasGrant Vocabulary.none grants = false ∧
        ∃ grant, firstGrant? Vocabulary.world grants = some grant ∧
          (term = .worldRead ∨ ∃ rule, grant.rule = some rule ∧ term = .worldRule rule)) := by
  unfold worldTerms
  cases hasGrant Vocabulary.none grants with
  | true => simp
  | false => cases firstGrant? Vocabulary.world grants <;> simp [eq_comm]

/-- Any grants make one profile, and no grants make none. -/
theorem mem_profileTerms {term : Term} {grants : List Grant} :
    term ∈ profileTerms grants ↔ grants ≠ [] ∧ term = .profile (tallyOf grants) := by
  unfold profileTerms tallyOf
  simp [Tally.isEmpty_ofNames]

/-- The entries of a tally of grants are the names of the grants with their counts. -/
theorem mem_entries_tallyOf {grants : List Grant} {name : String} {count : Nat} :
    (name, count) ∈ (tallyOf grants).entries ↔
      hasGrant name grants = true ∧ count = (grants.map (·.name)).count name := by
  unfold tallyOf
  rw [Tally.mem_entries_ofNames, hasGrant_eq_true_iff, List.mem_map]

/-- Where there are no blocks there are no grants, so that the statistics of an element
need no word on blocks. -/
theorem mem_fileTerms {term : Term} {metadata : Metadata} :
    term ∈ fileTerms (metadata.blocksOf .read .files) ↔
      (metadata.blocksOf .read .files ≠ [] ∧
        (term = .hasFileRights ∨
          term = .fileMachines (metadata.machinesOf .read .files).length)) ∨
      ∃ name, hasGrant name (metadata.grantsOf .read .files) = true ∧
        (term = .fileHas name ∨
          term = .fileCount name (((metadata.grantsOf .read .files).map (·.name)).count name)) := by
  have hblocks : ∀ name, hasGrant name (metadata.grantsOf .read .files) = true →
      metadata.blocksOf .read .files ≠ [] := by
    intro name h hnone
    rw [Metadata.grantsOf, Metadata.machinesOf, hnone] at h
    cases h
  show term ∈ provided _ (_ :: .fileMachines (metadata.machinesOf .read .files).length ::
    (tallyOf (metadata.grantsOf .read .files)).entries.flatMap _) ↔ _
  rw [mem_provided, List.mem_cons, List.mem_cons, List.mem_flatMap, Bool.not_eq_true',
    List.isEmpty_eq_false_iff]
  constructor
  · rintro ⟨hne, h | h | ⟨⟨name, count⟩, hentry, h⟩⟩
    · exact Or.inl ⟨hne, Or.inl h⟩
    · exact Or.inl ⟨hne, Or.inr h⟩
    · obtain ⟨hname, rfl⟩ := mem_entries_tallyOf.mp hentry
      exact Or.inr ⟨name, hname, by simpa using h⟩
  · rintro (⟨hne, h | h⟩ | ⟨name, hname, h⟩)
    · exact ⟨hne, Or.inl h⟩
    · exact ⟨hne, Or.inr (Or.inl h)⟩
    · refine ⟨hblocks name hname, Or.inr (Or.inr ⟨(name, _), ?_, by simpa using h⟩)⟩
      exact mem_entries_tallyOf.mpr ⟨hname, rfl⟩

/-! ## All terms -/

/-- The fact that a term stands for holds of a document. -/
def Term.HoldsOf (metadata : Metadata) : Term → Prop
  | noneDiscover => hasGrant Vocabulary.none (metadata.grantsOf .discover .object)
  | worldDiscover => ∃ grant ∈ metadata.grantsOf .discover .object,
      grant.name = Vocabulary.world ∧ grant.rule = none
  | hasGroupRights => hasGrant Vocabulary.group (metadata.grantsOf .read .object)
  | hasRule => ∃ machine ∈ metadata.machinesOf .read .object, machine.hasRule
  | stanfordGroup => (stanfordGrant? (metadata.grantsOf .read .object)).isSome
  | stanfordGroupWithRule => ∃ grant,
      stanfordGrant? (metadata.grantsOf .read .object) = some grant ∧ grant.rule.isSome
  | group name => stanfordGrant? (metadata.grantsOf .read .object) = none ∧
      ∃ grant, firstGrant? Vocabulary.group (metadata.grantsOf .read .object) = some grant ∧
        name = Text.lowercase grant.text
  | location | locationWithRule =>
      hasGrant Vocabulary.location (metadata.grantsOf .read .object)
  | agent | agentWithRule => hasGrant Vocabulary.agent (metadata.grantsOf .read .object)
  | lending => hasGrant Vocabulary.lending (metadata.grantsOf .read .object)
  | noneReadFile => hasGrant Vocabulary.none (metadata.grantsOf .read .files)
  | noneRead => hasGrant Vocabulary.none (metadata.grantsOf .read .object)
  | worldRead => hasGrant Vocabulary.none (metadata.grantsOf .read .object) = false ∧
      (firstGrant? Vocabulary.world (metadata.grantsOf .read .object)).isSome
  | worldRule rule => hasGrant Vocabulary.none (metadata.grantsOf .read .object) = false ∧
      ∃ grant, firstGrant? Vocabulary.world (metadata.grantsOf .read .object) = some grant ∧
        grant.rule = some rule
  | profile tally => metadata.grantsOf .read .object ≠ [] ∧
      tally = tallyOf (metadata.grantsOf .read .object)
  | hasFileRights => metadata.blocksOf .read .files ≠ []
  | fileMachines count => metadata.blocksOf .read .files ≠ [] ∧
      count = (metadata.machinesOf .read .files).length
  | fileHas element => hasGrant element (metadata.grantsOf .read .files)
  | fileCount element count => hasGrant element (metadata.grantsOf .read .files) ∧
      count = ((metadata.grantsOf .read .files).map (·.name)).count element

/-- **A document has a term exactly if the fact it stands for holds.** -/
theorem mem_terms_iff {metadata : Metadata} {term : Term} :
    term ∈ terms metadata ↔ term.HoldsOf metadata := by
  unfold terms discoveryTerms readingTerms
  simp only [List.mem_append, mem_provided, mem_groupTerms, mem_worldTerms, mem_profileTerms,
    mem_fileTerms, List.mem_cons, List.not_mem_nil, or_false]
  cases term with
  | fileCount element count =>
    simp only [reduceCtorEq, and_false, or_false, false_or, exists_false, Term.fileCount.injEq,
      Term.HoldsOf]
    constructor
    · rintro ⟨name, hname, rfl, hcount⟩
      exact ⟨hname, hcount⟩
    · rintro ⟨hname, hcount⟩
      exact ⟨element, hname, rfl, hcount⟩
  | _ => simp [Term.HoldsOf, Option.isSome_iff_exists]

end AccessRights.Index
