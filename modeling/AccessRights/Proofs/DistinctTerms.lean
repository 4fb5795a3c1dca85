import AccessRights.Proofs.TermsAgree
import Mathlib.Data.List.Nodup

/-!
# Terms and texts come once

An index holds the terms of a document as texts, and a text that came twice would be
counted twice.  None does, for two reasons that have nothing to do with each other.

No term comes twice (`nodup_terms`).  Terms are derived in one fixed order, and what a
document has of them is a part of one list without repeats (`exists_sublist_terms`): that of
all terms, each once and in this order, and after them the statistics of the elements in the
order of the names.

No two terms of a document are written alike (`eq_of_render_eq_of_mem_terms`).  Of
terms in general this is not true.  A group may be named like the term of the stanford group, and
profiles run names and numbers together, so that two of them can look the same; but a
document does not name such a group, and has one profile only.
-/

namespace AccessRights.Index

/-! ## The order of terms -/

theorem provided_sublist (condition : Bool) (terms : List Term) :
    (provided condition terms).Sublist terms := by
  unfold provided
  cases condition with
  | false => exact List.nil_sublist _
  | true => exact List.Sublist.refl _

/-- The stanford group shuts out the name of any other. -/
theorem exists_sublist_groupTerms (grants : List Grant) : ∃ name,
    (groupTerms grants).Sublist [.stanfordGroup, .stanfordGroupWithRule, .group name] := by
  unfold groupTerms
  cases stanfordGrant? grants with
  | some grant =>
    refine ⟨"", List.Sublist.cons_cons _ ?_⟩
    exact (provided_sublist _ _).trans (List.sublist_append_left [_] _)
  | none =>
    cases firstGrant? Vocabulary.group grants with
    | some grant => exact ⟨_, List.sublist_append_right [_, _] [_]⟩
    | none => exact ⟨"", List.nil_sublist _⟩

/-- A denial shuts out the world. -/
theorem exists_sublist_worldTerms (grants : List Grant) : ∃ rule,
    (worldTerms grants).Sublist [.noneRead, .worldRead, .worldRule rule] := by
  unfold worldTerms
  split
  · exact ⟨"", List.sublist_append_left [_] _⟩
  · cases firstGrant? Vocabulary.world grants with
    | none => exact ⟨"", List.nil_sublist _⟩
    | some grant =>
      show ∃ rule, (Term.worldRead :: grant.rule.toList.map .worldRule).Sublist _
      cases grant.rule with
      | none => exact ⟨"", (List.sublist_append_left [_] [_]).cons _⟩
      | some rule => exact ⟨rule, List.sublist_cons_self _ _⟩

/-- All terms but the statistics of elements, in the order in which they are derived. -/
def orderedTerms (name rule : String) (tally : Tally) (count : Nat) : List Term :=
  [.noneDiscover, .worldDiscover, .hasGroupRights, .hasRule, .stanfordGroup,
    .stanfordGroupWithRule, .group name, .location, .locationWithRule, .agent, .agentWithRule,
    .lending, .noneReadFile, .noneRead, .worldRead, .worldRule rule, .profile tally,
    .hasFileRights, .fileMachines count]

/-- The statistics of the elements that a tally counts. -/
def elementTerms (tally : Tally) : List Term :=
  tally.entries.flatMap fun entry => [.fileHas entry.1, .fileCount entry.1 entry.2]

/-- **What a document has of the terms is a part of all of them**, in the same order. -/
theorem exists_sublist_terms (metadata : Metadata) : ∃ name rule,
    (terms metadata).Sublist
      (orderedTerms name rule (tallyOf (metadata.grantsOf .read .object))
          (metadata.machinesOf .read .files).length ++
        elementTerms (tallyOf (metadata.grantsOf .read .files))) := by
  obtain ⟨name, hgroup⟩ := exists_sublist_groupTerms (metadata.grantsOf .read .object)
  obtain ⟨rule, hworld⟩ := exists_sublist_worldTerms (metadata.grantsOf .read .object)
  have hdiscovery : (discoveryTerms (metadata.grantsOf .discover .object)).Sublist
      [.noneDiscover, .worldDiscover] :=
    (provided_sublist _ _).append (provided_sublist _ _)
  have hreading : (readingTerms (metadata.machinesOf .read .object)
      (metadata.grantsOf .read .object)).Sublist
        [.hasGroupRights, .hasRule, .stanfordGroup, .stanfordGroupWithRule, .group name,
          .location, .locationWithRule, .agent, .agentWithRule, .lending] :=
    (((((provided_sublist _ _).append (provided_sublist _ _)).append hgroup).append
      (provided_sublist _ _)).append (provided_sublist _ _)).append (provided_sublist _ _)
  have hfiles : (fileTerms (metadata.blocksOf .read .files)).Sublist
      ([.hasFileRights, .fileMachines (metadata.machinesOf .read .files).length] ++
        elementTerms (tallyOf (metadata.grantsOf .read .files))) :=
    provided_sublist _ _
  refine ⟨name, rule, ?_⟩
  exact ((((hdiscovery.append hreading).append (provided_sublist _ _)).append hworld).append
    (provided_sublist _ _)).append hfiles

/-! ## No term comes twice -/

theorem nodup_orderedTerms (name rule : String) (tally : Tally) (count : Nat) :
    (orderedTerms name rule tally count).Nodup := by
  simp [orderedTerms]

theorem exists_of_mem_elementTerms {term : Term} {tally : Tally} (h : term ∈ elementTerms tally) :
    ∃ name, term = .fileHas name ∨ ∃ count, term = .fileCount name count := by
  obtain ⟨⟨name, count⟩, -, hterm⟩ := List.mem_flatMap.mp h
  rcases List.mem_pair.mp hterm with rfl | rfl
  · exact ⟨name, Or.inl rfl⟩
  · exact ⟨name, Or.inr ⟨count, rfl⟩⟩

/-- The names of a tally differ, and so do the statistics of their elements. -/
theorem nodup_elementTerms (tally : Tally) : (elementTerms tally).Nodup := by
  unfold elementTerms
  rw [List.nodup_flatMap]
  constructor
  · intro entry _
    simp
  · refine tally.counts.sorted.imp fun {first second} hlt => ?_
    have hne : first.1 ≠ second.1 := String.ne_of_lt hlt
    simp [Function.onFun, hne.symm]

/-- **No term of a document comes twice.** -/
theorem nodup_terms (metadata : Metadata) : (terms metadata).Nodup := by
  obtain ⟨name, rule, hsub⟩ := exists_sublist_terms metadata
  refine hsub.nodup (List.nodup_append'.mpr ⟨nodup_orderedTerms _ _ _ _, nodup_elementTerms _, ?_⟩)
  intro term hterm helement
  obtain ⟨name, rfl | ⟨count, rfl⟩⟩ := exists_of_mem_elementTerms helement
  · simp [orderedTerms] at hterm
  · simp [orderedTerms] at hterm

/-! ## No two terms are written alike -/

/-- **Terms of a document that are written alike are one term.** -/
theorem eq_of_render_eq_of_mem_terms {metadata : Metadata} {term token : Term}
    (hterm : term ∈ terms metadata) (htoken : token ∈ terms metadata)
    (h : term.render = token.render) : term = token := by
  cases hopening : token.opening? with
  | none => exact eq_of_mem_terms_of_render_eq hterm (mem_fixedTerms hopening) h
  | some opening =>
    cases token with
    | group name =>
      cases hother : term.opening? with
      | none => exact (eq_of_mem_terms_of_render_eq htoken (mem_fixedTerms hother) h.symm).symm
      | some other => exact eq_group_of_render_eq (Option.isSome_of_eq_some hother) h
    | worldRule rule => exact eq_worldRule_of_render_eq h
    | profile tally =>
      obtain ⟨other, rfl⟩ := exists_eq_profile_of_render_eq h
      obtain ⟨-, rfl⟩ := mem_terms_iff.mp hterm
      obtain ⟨-, rfl⟩ := mem_terms_iff.mp htoken
      rfl
    | fileMachines count => exact eq_fileMachines_of_render_eq h
    | fileHas element => exact eq_fileHas_of_render_eq h
    | fileCount element count => exact eq_fileCount_of_render_eq h
    | _ => cases hopening

/-- **The texts of the terms of a document are distinct.** -/
theorem nodup_termTexts {summary : Summary} {metadata : Metadata}
    (hterms : summary.terms = terms metadata) : summary.termTexts.Nodup := by
  rw [Summary.termTexts, hterms]
  refine (nodup_terms metadata).map_on fun term hterm token htoken => ?_
  exact eq_of_render_eq_of_mem_terms hterm htoken

end AccessRights.Index
