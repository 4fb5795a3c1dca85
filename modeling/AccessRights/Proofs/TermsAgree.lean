import AccessRights.Proofs.Evaluated
import AccessRights.Proofs.GrantElements
import AccessRights.Proofs.StanfordCase
import AccessRights.Proofs.TermFacts
import AccessRights.Proofs.TermTexts

/-!
# Terms agree with answers

The index and the evaluation read the grants of a document by different code: the one
into terms, which are then asked for by their texts, the other into entitlements.  Here
both are shown to say the same on who may read the object (`Index.Summary.AgreesWith`).

There are two halves.  A text finds the term it belongs to and no other, since a group
is only named where no grant is to the stanford group, and lower case does not bring the
word `stanford` into a name (`hasTerm_fixed_iff`).  And the fact that a term stands for
is what the answer asks, whatever the grants are (`objectRight_stanford` and those after
it).
-/

namespace AccessRights

namespace Index

/-! ## Terms are found by their texts -/

/-- A term is asked for by its text. -/
theorem Summary.hasTerm_eq_true_iff {summary : Summary} {text : String} :
    summary.hasTerm text = true ↔ ∃ term ∈ summary.terms, term.render = text := by
  unfold hasTerm
  simp only [List.any_eq_true, beq_iff_eq]

/-- No group that is named has `stanford` in its name. -/
theorem not_stanford_of_mem_terms {metadata : Metadata} {name : String}
    (h : .group name ∈ terms metadata) : ¬ Vocabulary.stanford.toList <:+: name.toList := by
  intro hinfix
  obtain ⟨hnone, grant, hgrant, rfl⟩ := mem_terms_iff.mp h
  obtain ⟨hmem, hname⟩ := mem_and_name_eq_of_firstGrant? hgrant
  refine List.find?_eq_none.mp hnone grant hmem ?_
  rw [hname, isStanfordGroup_of_infix_lowercase hinfix]
  rfl

/-- **No text of a document is taken for a fixed term**: a term written like one is that
term. -/
theorem eq_of_mem_terms_of_render_eq {metadata : Metadata} {term token : Term}
    (hterm : term ∈ terms metadata) (htoken : token ∈ fixedTerms)
    (h : term.render = token.render) : term = token := by
  refine eq_of_render_eq_fixed htoken ?_ h
  rintro name rfl
  exact not_stanford_of_mem_terms hterm

section Texts

variable {summary : Summary} {metadata : Metadata}

/-- **Asking for the text of a term is asking for the fact** wherever no other term of the
document is written like it. -/
theorem hasTerm_iff_holdsOf (hterms : summary.terms = terms metadata) (token : Term)
    (hunique : ∀ term ∈ terms metadata, term.render = token.render → term = token) :
    summary.hasTerm token.render = true ↔ token.HoldsOf metadata := by
  rw [Summary.hasTerm_eq_true_iff, hterms, ← mem_terms_iff]
  constructor
  · rintro ⟨term, hterm, h⟩
    rw [← hunique term hterm h]
    exact hterm
  · intro h
    exact ⟨token, h, rfl⟩

/-- **Asking for the text of a fixed term is asking for its fact.** -/
theorem hasTerm_fixed_iff (hterms : summary.terms = terms metadata) {token : Term}
    (htoken : token ∈ fixedTerms) :
    summary.hasTerm token.render = true ↔ token.HoldsOf metadata :=
  hasTerm_iff_holdsOf hterms token fun _ hterm => eq_of_mem_terms_of_render_eq hterm htoken

/-- So it is for a rule on the world, whatever the rule. -/
theorem hasTerm_worldRule_iff (hterms : summary.terms = terms metadata) {rule : String} :
    summary.hasTerm ("world|" ++ rule) = true ↔ (Term.worldRule rule).HoldsOf metadata :=
  hasTerm_iff_holdsOf hterms (.worldRule rule) fun _ _ => eq_worldRule_of_render_eq

end Texts

/-- Where nothing is read without a rights element, leaving out what such a document has
leaves out nothing, apart from its label. -/
theorem Summary.ofMetadata_eq {metadata : Metadata}
    (h : metadata.isPresent = false → metadata.blocks = []) :
    ofMetadata metadata =
      { label := (ofMetadata metadata).label
        findings := Index.findings metadata
        terms := Index.terms metadata
        object := .ofGrants [metadata.grantsOf .read .object]
        files := .ofGrants ((metadata.blocksOf .read .files).map Block.grants) } := by
  obtain ⟨isPresent, blocks⟩ := metadata
  cases isPresent with
  | true => rfl
  | false =>
    obtain rfl : blocks = [] := h rfl
    rfl

/-- Terms may be left out without rights metadata, where there are none anyway. -/
theorem Summary.terms_ofMetadata {metadata : Metadata}
    (h : metadata.isPresent = false → metadata.blocks = []) :
    (ofMetadata metadata).terms = Index.terms metadata :=
  congrArg Summary.terms (ofMetadata_eq h)

end Index

/-! ## Answers in terms of grants -/

/-- The right of a grant that is looked for is granted exactly if it is found. -/
theorem granted_getD_map_granting_iff {grant? : Option Grant} {rule : Grant → Option String} :
    ((grant?.map fun grant => Right.granting (rule grant)).getD .denied).granted = true ↔
      grant?.isSome = true := by
  cases grant? with
  | none => exact ⟨nofun, nofun⟩
  | some grant => exact ⟨fun _ => rfl, fun _ => rfl⟩

/-- It comes with a rule exactly if the grant does. -/
theorem getD_map_granting_eq_iff {grant? : Option Grant} {text : String} :
    (grant?.map fun grant => Right.granting grant.rule).getD .denied = ⟨true, some text⟩ ↔
      ∃ grant, grant? = some grant ∧ grant.rule = some text := by
  cases grant? with
  | none => simp [Right.denied]
  | some grant => simp [Right.granting]

section Object

variable {evaluation : Evaluation} {grants : List Grant}

/-- The stanford group has the right of the first grant to it. -/
theorem objectRight_stanford (h : evaluation.object = .ofObject grants) :
    evaluation.objectRight .stanford =
      ((stanfordGrant? grants).map fun grant => .granting grant.rule).getD .denied := by
  rw [Evaluation.objectRight, h]
  rfl

/-- The world has the right of the first grant to it. -/
theorem objectRight_world (h : evaluation.object = .ofObject grants) :
    evaluation.objectRight .world =
      ((firstGrant? Vocabulary.world grants).map fun grant => .granting grant.rule).getD
        .denied := by
  rw [Evaluation.objectRight, h]
  rfl

theorem granted_lending_iff (h : evaluation.object = .ofObject grants) :
    (evaluation.objectRight .lending).granted = true ↔
      Index.hasGrant Vocabulary.lending grants = true := by
  rw [← Index.isSome_firstGrant?_iff, Evaluation.objectRight, h]
  exact granted_getD_map_granting_iff

/-- Places restrict the object exactly if there is a grant to one. -/
theorem isLocationRestricted_iff (h : evaluation.object = .ofObject grants) :
    evaluation.isLocationRestricted = true ↔
      Index.hasGrant Vocabulary.location grants = true := by
  unfold Evaluation.isLocationRestricted
  rw [h]
  show (!(rightsByText Vocabulary.location grants).isEmpty) = true ↔ _
  rw [isEmpty_rightsByText, Index.hasGrant_eq_true_iff]
  simp [grantsNamed]

theorem exists_namesAgent_iff (h : evaluation.object = .ofObject grants) :
    (∃ name, evaluation.namesAgent name = true) ↔
      Index.hasGrant Vocabulary.agent grants = true := by
  have hnames : ∀ name, evaluation.namesAgent name = true ↔
      ∃ grant ∈ grants, grant.name = Vocabulary.agent ∧ grant.text = name := by
    intro name
    unfold Evaluation.namesAgent
    rw [h]
    show ((rightsByText Vocabulary.agent grants).get? name).isSome = true ↔ _
    rw [rightsByText, NameMap.isSome_get?_ofList_iff]
    simp [grantsNamed, and_assoc]
  rw [Index.hasGrant_eq_true_iff]
  constructor
  · rintro ⟨name, hname⟩
    obtain ⟨grant, hgrant, hagent, -⟩ := (hnames name).mp hname
    exact ⟨grant, hgrant, hagent⟩
  · rintro ⟨grant, hgrant, hagent⟩
    exact ⟨grant.text, (hnames grant.text).mpr ⟨grant, hgrant, hagent, rfl⟩⟩

end Object

/-! ## Agreement -/

/-- A summary for the index says on access what the answers of an evaluation say.  The
fields up to `world_rule` are about what is asked for by its text; the last two say that
no text of the document passes for one of these. -/
structure Index.Summary.AgreesWith (summary : Summary) (evaluation : Evaluation) : Prop where
  stanford : summary.hasTerm "group|stanford" = true ↔
    (evaluation.objectRight .stanford).granted = true
  stanford_with_rule : summary.hasTerm "group|stanford_with_rule" = true ↔
    ∃ rule, evaluation.objectRight .stanford = ⟨true, some rule⟩
  location : summary.hasTerm "location" = true ↔ evaluation.isLocationRestricted = true
  location_with_rule : summary.hasTerm "location_with_rule" = true ↔
    evaluation.isLocationRestricted = true
  agent : summary.hasTerm "agent" = true ↔ ∃ name, evaluation.namesAgent name = true
  agent_with_rule : summary.hasTerm "agent_with_rule" = true ↔
    ∃ name, evaluation.namesAgent name = true
  lending : summary.hasTerm "cdl_none" = true ↔
    (evaluation.objectRight .lending).granted = true
  /-- An express denial of reading leaves no word on the world. -/
  none_read : summary.hasTerm "none_read" = true →
    summary.hasTerm "world_read" = false ∧ ∀ rule, summary.hasTerm ("world|" ++ rule) = false
  world : summary.hasTerm "none_read" = false →
    (summary.hasTerm "world_read" = true ↔ (evaluation.objectRight .world).granted = true)
  world_rule : summary.hasTerm "none_read" = false → ∀ rule,
    (summary.hasTerm ("world|" ++ rule) = true ↔
      evaluation.objectRight .world = ⟨true, some rule⟩)
  unforged : ∀ term ∈ summary.terms, ∀ token ∈ answerTerms,
    term.render = token.render → term = token
  unforged_world : ∀ term ∈ summary.terms, ∀ rule,
    term.render = "world|" ++ rule → term = .worldRule rule

namespace Index

/-- **Terms agree with answers** wherever both are read from the same grants. -/
theorem Summary.agreesWith_of_terms {summary : Summary} {metadata : Metadata}
    {evaluation : Evaluation} (hterms : summary.terms = Index.terms metadata)
    (hobject : evaluation.object = metadata.objectEntitlements) :
    summary.AgreesWith evaluation := by
  -- A question for the text of a token is one for its fact.
  have hfact : ∀ token ∈ answerTerms,
      (summary.hasTerm token.render = true ↔ token.HoldsOf metadata) :=
    fun token htoken => hasTerm_fixed_iff hterms (mem_fixedTerms_of_mem_answerTerms token htoken)
  have hdenied : summary.hasTerm "none_read" = true ↔
      hasGrant Vocabulary.none (metadata.grantsOf .read .object) = true :=
    hfact .noneRead (by decide)
  have hopen : summary.hasTerm "none_read" = false →
      hasGrant Vocabulary.none (metadata.grantsOf .read .object) = false := by
    intro h
    rw [← Bool.not_eq_true, hdenied, Bool.not_eq_true] at h
    exact h
  refine {
    stanford := ?stanford
    stanford_with_rule := ?stanford_with_rule
    location := (hfact .location (by decide)).trans (isLocationRestricted_iff hobject).symm
    location_with_rule :=
      (hfact .locationWithRule (by decide)).trans (isLocationRestricted_iff hobject).symm
    agent := (hfact .agent (by decide)).trans (exists_namesAgent_iff hobject).symm
    agent_with_rule :=
      (hfact .agentWithRule (by decide)).trans (exists_namesAgent_iff hobject).symm
    lending := (hfact .lending (by decide)).trans (granted_lending_iff hobject).symm
    none_read := ?none_read
    world := ?world
    world_rule := ?world_rule
    unforged := ?unforged
    unforged_world := ?unforged_world }
  case stanford =>
    rw [objectRight_stanford hobject, granted_getD_map_granting_iff]
    exact hfact .stanfordGroup (by decide)
  case stanford_with_rule =>
    rw [objectRight_stanford hobject]
    simp only [getD_map_granting_eq_iff]
    refine (hfact .stanfordGroupWithRule (by decide)).trans ?_
    constructor
    · rintro ⟨grant, hgrant, hrule⟩
      obtain ⟨rule, hrule⟩ := Option.isSome_iff_exists.mp hrule
      exact ⟨rule, grant, hgrant, hrule⟩
    · rintro ⟨rule, grant, hgrant, hrule⟩
      exact ⟨grant, hgrant, Option.isSome_of_eq_some hrule⟩
  case none_read =>
    intro h
    have hshut : ∀ text, (summary.hasTerm text = true →
        hasGrant Vocabulary.none (metadata.grantsOf .read .object) = false) →
        summary.hasTerm text = false := by
      intro text hfree
      rw [← Bool.not_eq_true]
      intro hterm
      have hnone := hfree hterm
      rw [hdenied.mp h] at hnone
      cases hnone
    constructor
    · exact hshut "world_read" fun hworld => ((hfact .worldRead (by decide)).mp hworld).1
    · intro rule
      exact hshut ("world|" ++ rule) fun hworld => ((hasTerm_worldRule_iff hterms).mp hworld).1
  case world =>
    intro h
    rw [objectRight_world hobject, granted_getD_map_granting_iff]
    exact (hfact .worldRead (by decide)).trans (and_iff_right (hopen h))
  case world_rule =>
    intro h rule
    rw [objectRight_world hobject, getD_map_granting_eq_iff]
    exact (hasTerm_worldRule_iff hterms).trans (and_iff_right (hopen h))
  case unforged =>
    intro term hterm token htoken
    rw [hterms] at hterm
    exact eq_of_mem_terms_of_render_eq hterm (mem_fixedTerms_of_mem_answerTerms token htoken)
  case unforged_world =>
    intro term _ rule
    exact eq_worldRule_of_render_eq

end Index

namespace Document

variable {document : Document} {options : Options} {now : Calendar.Instant}
  {evaluation : Evaluation}

/-- Leaving out all terms where there is no rights element leaves out nothing: such a
document has no access blocks, and no term without any. -/
theorem terms_ofMetadata_view (document : Document) :
    (Index.Summary.ofMetadata document.view.metadata).terms =
      Index.terms document.view.metadata :=
  Index.Summary.terms_ofMetadata document.metadata_blocks_of_absent

/-- **The summary of a document agrees with the answers about it**, term by term and as
texts. -/
theorem summary_agreesWith_of_evaluate
    (h : document.view.evaluate options now = .ok evaluation)
    (hindex : options.forIndex = true) :
    ∃ summary, evaluation.summary = .ok summary ∧ summary.AgreesWith evaluation :=
  ⟨_, View.summary_of_evaluate h hindex,
    Index.Summary.agreesWith_of_terms document.terms_ofMetadata_view (View.object_of_evaluate h)⟩

/-- Grants reading to a group that has the text of a term in its name, and to the world
under a rule. -/
def misleading : Document :=
  ⟨.element "rightsMetadata" []
    (.element "access" [("type", "read")]
      (.element "machine" []
        (.element "group" [] (.text "Stanford_with_rule" .nil)
          (.element "world" [("rule", "vpn")] .nil .nil)) .nil) .nil) .nil⟩

theorem summary_agreesWith_misleading : ∃ evaluation summary,
    misleading.view.evaluate .indexing ⟨0, 0⟩ = .ok evaluation ∧
      evaluation.summary = .ok summary ∧
      summary.hasTerm "group|stanford" = true ∧
      summary.hasTerm "group|stanford_with_rule" = false ∧
      summary.hasTerm "world|vpn" = true := by
  have h : misleading.view.evaluate .indexing ⟨0, 0⟩ = .ok _ := rfl
  obtain ⟨summary, hsummary, hagrees⟩ := summary_agreesWith_of_evaluate h rfl
  have hnone : summary.hasTerm "none_read" = false := by
    cases hsummary
    decide +kernel
  refine ⟨_, summary, h, hsummary, hagrees.stanford.mpr rfl, ?_, ?_⟩
  · rw [← Bool.not_eq_true, hagrees.stanford_with_rule]
    rintro ⟨rule, hrule⟩
    cases hrule
  · exact (hagrees.world_rule hnone "vpn").mpr rfl

end Document

end AccessRights
