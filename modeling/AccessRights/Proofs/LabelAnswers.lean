import AccessRights.Proofs.DocumentAnswers
import AccessRights.Proofs.LabelDecision

/-!
# What a label promises

A label is one word on who may read an object, the answers of an evaluation are the full
account.  Two laws say how far the word can be relied on.

`Document.label_promises_of_evaluate`: a label without the suffix `qualified` hides no
rule, and the labels that speak of the world or of lending say what is answered about
these.  A label is decided by one search for rules at any depth below the machines, the
answers take theirs from single elements; what connects the two is that every element an
answer takes its rule from stands below a machine (`Document.isPlain_of_mem_grants`).

`Document.withholds_iff_of_isCitation`: what can be cited only cannot be read, with one
exception.  An express denial of reading makes the label `citation` by itself, but takes
nothing away from the grants that stand beside it, which are answered as ever.
-/

namespace AccessRights

namespace Document

/-! ## What a label is decided from -/

/-- The object can be found and read. -/
def IsOpen (document : Document) : Prop :=
  ¬ document.IsHidden ∧ ¬ document.IsClosed

/-- What holds of a document with a label, as far as access goes. -/
def Warrants (document : Document) : Index.Label → Prop
  | .dark => document.IsHidden
  | .citation => ¬ document.IsHidden ∧ document.IsClosed
  | .lending => document.IsOpen ∧ document.HasGrant .read Vocabulary.lending
  | .world => document.IsOpen ∧ document.HasGrant .read Vocabulary.world ∧
      ¬ document.IsQualified
  | .worldQualified => document.IsOpen ∧ document.HasGrant .read Vocabulary.world ∧
      document.IsQualified
  | .restricted => document.IsOpen ∧ ¬ document.HasGrant .read Vocabulary.world ∧
      document.IsRestricted ∧ ¬ document.IsQualified
  | .restrictedQualified => document.IsOpen ∧ ¬ document.HasGrant .read Vocabulary.world ∧
      document.IsRestricted ∧ document.IsQualified
  | .unknown => document.IsOpen ∧ ¬ document.HasGrant .read Vocabulary.world ∧
      ¬ document.IsRestricted ∧ ¬ document.IsQualified
  | .unknownQualified => document.IsOpen ∧ ¬ document.HasGrant .read Vocabulary.world ∧
      ¬ document.IsRestricted ∧ document.IsQualified

/-- **A document warrants its label.** -/
theorem warrants_label (document : Document) : document.Warrants document.label := by
  unfold label
  by_cases hhidden : document.IsHidden
  · rw [if_pos hhidden]
    exact hhidden
  rw [if_neg hhidden]
  by_cases hclosed : document.IsClosed
  · rw [if_pos hclosed]
    exact ⟨hhidden, hclosed⟩
  rw [if_neg hclosed]
  have hopen : document.IsOpen := ⟨hhidden, hclosed⟩
  split_ifs with hlending hworld hqualified hrestricted hqualified hqualified
  · exact ⟨hopen, hlending⟩
  · exact ⟨hopen, hworld, hqualified⟩
  · exact ⟨hopen, hworld, hqualified⟩
  · exact ⟨hopen, hworld, hrestricted, hqualified⟩
  · exact ⟨hopen, hworld, hrestricted, hqualified⟩
  · exact ⟨hopen, hworld, hrestricted, hqualified⟩
  · exact ⟨hopen, hworld, hrestricted, hqualified⟩

end Document

/-! ## Rules of grants and of rights -/

/-- Neither the element nor an element right inside it has a rule. -/
def Node.IsPlain (node : Node) : Prop :=
  node.rule? = none ∧ ∀ inner ∈ node.children, inner.rule? = none

theorem Node.IsPlain.lendingRule?_eq_none {node : Node} (h : node.IsPlain) :
    node.lendingRule? = none := by
  unfold Node.lendingRule?
  cases hgroup : (node.childrenNamed Vocabulary.group).head? with
  | none => rfl
  | some group =>
    have hmem : group ∈ node.childrenNamed Vocabulary.group := List.mem_of_mem_head? hgroup
    exact h.2 group (List.mem_of_mem_filter hmem)

section Grants

variable {grants : List Node}

/-- **Grants without a rule give rights without a rule.** -/
theorem rule_eq_none_of_isPlain (hplain : ∀ grant ∈ grants, grant.IsPlain)
    (audience : Audience) : ((rightAmong? grants audience).getD .denied).rule = none := by
  have hfound : ∀ (p : Node → Bool) (rule? : Node → Option String),
      (∀ grant, grant.IsPlain → rule? grant = none) →
        (((grants.find? p).map fun grant => Right.granting (rule? grant)).getD .denied).rule =
          none := by
    intro p rule? hrule
    cases hgrant : grants.find? p with
    | none => rfl
    | some grant => exact hrule grant (hplain grant (List.mem_of_find?_eq_some hgrant))
  have hnamed : ∀ element name,
      ((rightOfName? element name grants).getD .denied).rule = none := by
    intro element name
    unfold rightOfName?
    split
    case isFalse => rfl
    case isTrue =>
      rw [Option.getD_some]
      split
      case h_1 grant hgrant =>
        have hmem := List.mem_of_mem_getLast? hgrant
        exact (hplain grant (List.mem_of_mem_filter hmem)).1
      case h_2 => rfl
  cases audience with
  | world => exact hfound _ _ fun _ h => h.1
  | stanford => exact hfound _ _ fun _ h => h.1
  | agent name => exact hnamed Vocabulary.agent name
  | location name => exact hnamed Vocabulary.location name
  | lending => exact hfound _ _ fun _ h => h.lendingRule?_eq_none

/-- Where some grant is of the sort that is looked for the right is granted. -/
theorem granted_of_find? {p : Node → Bool} (rule? : Node → Option String)
    (h : ∃ grant ∈ grants, p grant = true) :
    (((grants.find? p).map fun grant => Right.granting (rule? grant)).getD .denied).granted =
      true := by
  obtain ⟨grant, hgrant⟩ := Option.isSome_iff_exists.mp (List.find?_isSome.mpr h)
  rw [hgrant]
  rfl

/-- And where none is it is denied. -/
theorem denied_of_find? {p : Node → Bool} (rule? : Node → Option String)
    (h : ∀ grant ∈ grants, ¬ p grant = true) :
    ((grants.find? p).map fun grant => Right.granting (rule? grant)).getD .denied =
      .denied := by
  rw [List.find?_eq_none.mpr h]
  rfl

end Grants

namespace Document

variable {document : Document} {options : Options} {now : Calendar.Instant}
  {evaluation : Evaluation}

/-- **Everything that an answer takes a rule from stands below a machine.** -/
theorem isPlain_of_mem_grants (hplain : ¬ document.IsQualified) {grant : Node}
    (h : grant ∈ document.grants .read .object) : grant.IsPlain := by
  obtain ⟨machine, hmachine, hgrant⟩ := List.mem_flatMap.mp h
  have hunruled : ∀ element ∈ machine.descendants, element.rule? = none := by
    intro element helement
    rw [← Option.not_isSome_iff_eq_none]
    intro hrule
    exact hplain ⟨machine, hmachine, element, helement, hrule⟩
  have hinside : grant ∈ machine.descendants := machine.children_sublist.subset hgrant
  refine ⟨hunruled grant hinside, ?_⟩
  intro inner hinner
  have hbelow : inner ∈ grant.descendants := grant.children_sublist.subset hinner
  exact hunruled inner ((Content.descendants_sublist hinside).subset hbelow)

/-! ## Labels and answers -/

/-- A grant to the world gives it the right to read the object. -/
theorem granted_world_of_hasGrant (h : document.view.evaluate options now = .ok evaluation)
    (hworld : document.HasGrant .read Vocabulary.world) :
    (evaluation.objectRight .world).granted = true := by
  obtain ⟨grant, hgrant, hname⟩ := hworld
  rw [objectRight_of_evaluate h]
  exact granted_of_find? _ ⟨grant, hgrant, decide_eq_true hname⟩

/-- A grant of lending gives the right to borrow it. -/
theorem granted_lending_of_hasGrant (h : document.view.evaluate options now = .ok evaluation)
    (hlending : document.HasGrant .read Vocabulary.lending) :
    (evaluation.objectRight .lending).granted = true := by
  obtain ⟨grant, hgrant, hname⟩ := hlending
  rw [objectRight_of_evaluate h]
  exact granted_of_find? _ ⟨grant, hgrant, decide_eq_true hname⟩

/-- Without a grant the world has none. -/
theorem denied_world_of_not_hasGrant (h : document.view.evaluate options now = .ok evaluation)
    (hworld : ¬ document.HasGrant .read Vocabulary.world) :
    evaluation.objectRight .world = .denied := by
  rw [objectRight_of_evaluate h]
  refine denied_of_find? _ fun grant hgrant hname => ?_
  exact hworld ⟨grant, hgrant, of_decide_eq_true hname⟩

end Document

/-- What a label promises about the answers of an evaluation. -/
structure Index.Label.Promises (label : Label) (evaluation : Evaluation) : Prop where
  /-- A label that has a qualified form, and is not it, hides no rule. -/
  unqualified : label = .world ∨ label = .restricted ∨ label = .unknown →
    ∀ audience, (evaluation.objectRight audience).rule = none
  world_unrestricted : label = .world →
    (evaluation.objectRight .world).isUnrestricted = true ∧ evaluation.isReadable = true
  world_granted : label = .world ∨ label = .worldQualified →
    (evaluation.objectRight .world).granted = true
  world_denied : label = .restricted ∨ label = .restrictedQualified ∨ label = .unknown ∨
    label = .unknownQualified → evaluation.objectRight .world = ⟨false, none⟩
  lending_granted : label = .lending → (evaluation.objectRight .lending).granted = true

namespace Document

variable {document : Document} {options : Options} {now : Calendar.Instant}
  {evaluation : Evaluation}

/-- **A label keeps its promises**, since the document warrants it. -/
theorem promises_of_warrants (h : document.view.evaluate options now = .ok evaluation)
    {label : Index.Label} (hlabel : document.Warrants label) : label.Promises evaluation := by
  have hunqualified : label = .world ∨ label = .restricted ∨ label = .unknown →
      ∀ audience, (evaluation.objectRight audience).rule = none := by
    intro hform
    have hplain : ¬ document.IsQualified := by
      rcases hform with rfl | rfl | rfl
      · exact hlabel.2.2
      · exact hlabel.2.2.2
      · exact hlabel.2.2.2
    intro audience
    rw [objectRight_of_evaluate h]
    exact rule_eq_none_of_isPlain (fun _ => isPlain_of_mem_grants hplain) audience
  have hworld : label = .world ∨ label = .worldQualified →
      (evaluation.objectRight .world).granted = true := by
    rintro (rfl | rfl)
    · exact granted_world_of_hasGrant h hlabel.2.1
    · exact granted_world_of_hasGrant h hlabel.2.1
  refine {
    unqualified := hunqualified
    world_unrestricted := ?_
    world_granted := hworld
    world_denied := ?_
    lending_granted := ?_ }
  · intro hform
    have hfree : (evaluation.objectRight .world).isUnrestricted = true := by
      unfold Right.isUnrestricted
      rw [hworld (Or.inl hform), hunqualified (Or.inl hform)]
      rfl
    refine ⟨hfree, ?_⟩
    rw [Evaluation.isReadable, hfree, Bool.true_or]
  · rintro (rfl | rfl | rfl | rfl)
    all_goals exact denied_world_of_not_hasGrant h hlabel.2.1
  · rintro rfl
    exact granted_lending_of_hasGrant h hlabel.2

/-- **The label of a summary keeps its promises.** -/
theorem label_promises_of_evaluate (h : document.view.evaluate options now = .ok evaluation)
    (hindex : options.forIndex = true) :
    ∃ summary, evaluation.summary = .ok summary ∧ summary.label.Promises evaluation := by
  refine ⟨_, View.summary_of_evaluate h hindex, ?_⟩
  rw [label_ofMetadata_view]
  exact promises_of_warrants h document.warrants_label

/-- Open to the world and to an agent.  Rules stand only where they say nothing on that:
on the machine itself and above it, and in the grant of a file. -/
def openShelf : Document :=
  ⟨.element "rightsMetadata" [("rule", "archived")]
    (.element "access" [("type", "discover")]
      (.element "machine" [] (.element "world" [] .nil .nil) .nil)
    (.element "access" [("type", "read")]
      (.element "machine" [("rule", "unread")]
        (.element "world" [] .nil (.element "agent" [] (.text "app" .nil) .nil)) .nil)
    (.element "access" [("type", "read")]
      (.element "file" [] (.text "a.pdf" .nil)
        (.element "machine" [] (.element "world" [("rule", "vpn")] .nil .nil) .nil)) .nil)))
    .nil⟩

theorem label_promises_of_evaluate_openShelf : ∃ evaluation summary,
    openShelf.view.evaluate .indexing ⟨0, 0⟩ = .ok evaluation ∧
      evaluation.summary = .ok summary ∧ summary.label = .world ∧
      (evaluation.objectRight (.agent "app")).rule = none ∧ evaluation.isReadable = true := by
  have h : openShelf.view.evaluate .indexing ⟨0, 0⟩ = .ok _ := rfl
  obtain ⟨summary, hsummary, hpromises⟩ := label_promises_of_evaluate h rfl
  have hlabel : summary.label = .world := by
    cases hsummary
    decide +kernel
  refine ⟨_, summary, h, hsummary, hlabel, ?_, ?_⟩
  · exact hpromises.unqualified (Or.inl hlabel) (.agent "app")
  · exact (hpromises.world_unrestricted hlabel).2

/-! ## What can be cited only -/

/-- Neither the world nor the stanford group is given the object or, without a rule, a
file that the document does not list. -/
structure Withholds (document : Document) (evaluation : Evaluation) : Prop where
  world : evaluation.objectRight .world = ⟨false, none⟩
  stanford : evaluation.objectRight .stanford = ⟨false, none⟩
  readable : evaluation.isReadable = false
  world_file : ∀ file, document.lastBlockFor? file = none →
    (evaluation.fileRight file .world).isUnrestricted = false
  stanford_file : ∀ file, document.lastBlockFor? file = none →
    (evaluation.fileRight file .stanford).isUnrestricted = false

/-- The object is granted to the world or to the stanford group. -/
def IsGrantedToMany (document : Document) : Prop :=
  document.HasGrant .read Vocabulary.world ∨
    ∃ grant ∈ document.grants .read .object,
      grant.name = Vocabulary.group ∧ NamesStanford grant.text

instance (document : Document) : Decidable document.IsGrantedToMany :=
  inferInstanceAs (Decidable (_ ∨ ∃ grant ∈ _, _))

/-- A file that is not listed is what the object is. -/
theorem fileRight_of_not_listed (h : document.view.evaluate options now = .ok evaluation)
    {file : String} (hfile : document.lastBlockFor? file = none) (audience : Audience) :
    evaluation.fileRight file audience = evaluation.objectRight audience := by
  have hnone : evaluation.files.get? file = none := by
    rw [View.files_of_evaluate h, get?_fileEntitlements, hfile]
    rfl
  rw [Evaluation.fileRight, hnone]
  rfl

/-- A grant to the stanford group gives it the right. -/
theorem granted_stanford_of_mem_grants (h : document.view.evaluate options now = .ok evaluation)
    {grant : Node} (hgrant : grant ∈ document.grants .read .object)
    (hgroup : grant.name = Vocabulary.group ∧ NamesStanford grant.text) :
    (evaluation.objectRight .stanford).granted = true := by
  rw [objectRight_of_evaluate h]
  exact granted_of_find? _ ⟨grant, hgrant, decide_eq_true hgroup⟩

/-- Content is withheld exactly where no grant gives it away. -/
theorem withholds_iff (h : document.view.evaluate options now = .ok evaluation) :
    document.Withholds evaluation ↔ ¬ document.IsGrantedToMany := by
  constructor
  · rintro hwithholds (hworld | ⟨grant, hgrant, hgroup⟩)
    · have hgranted := granted_world_of_hasGrant h hworld
      rw [hwithholds.world] at hgranted
      cases hgranted
    · have hgranted := granted_stanford_of_mem_grants h hgrant hgroup
      rw [hwithholds.stanford] at hgranted
      cases hgranted
  · intro hgranted
    have hworld : evaluation.objectRight .world = .denied :=
      denied_world_of_not_hasGrant h fun hworld => hgranted (Or.inl hworld)
    have hstanford : evaluation.objectRight .stanford = .denied := by
      rw [objectRight_of_evaluate h]
      refine denied_of_find? _ fun grant hgrant hgroup => ?_
      exact hgranted (Or.inr ⟨grant, hgrant, of_decide_eq_true hgroup⟩)
    refine {
      world := hworld
      stanford := hstanford
      readable := ?_
      world_file := ?_
      stanford_file := ?_ }
    · rw [Evaluation.isReadable, hworld, hstanford]
      rfl
    · intro file hfile
      rw [fileRight_of_not_listed h hfile, hworld]
      rfl
    · intro file hfile
      rw [fileRight_of_not_listed h hfile, hstanford]
      rfl

/-- What can be cited only is told by the label alone. -/
theorem isCitation_eq_decide (h : document.view.evaluate options now = .ok evaluation)
    (hindex : options.forIndex = true) :
    evaluation.isCitation = .ok (decide (document.label = .citation)) := by
  rw [Evaluation.isCitation, View.index_of_evaluate h hindex]
  show Except.ok _ = _
  rw [label_ofMetadata_view, beq_eq_decide]

/-- **What can be cited only cannot be read**, unless a grant to the world or to the
stanford group stands beside an express denial of reading. -/
theorem withholds_iff_of_isCitation (h : document.view.evaluate options now = .ok evaluation)
    (hindex : options.forIndex = true) (hcitation : evaluation.isCitation = .ok true) :
    document.Withholds evaluation ↔
      ¬ (document.HasGrant .read Vocabulary.none ∧ document.IsGrantedToMany) := by
  rw [isCitation_eq_decide h hindex, Except.ok.injEq, decide_eq_true_iff] at hcitation
  obtain ⟨-, hclosed⟩ : document.Warrants .citation := hcitation ▸ document.warrants_label
  rw [withholds_iff h]
  refine not_congr (iff_and_self.mpr fun hgranted => ?_)
  refine hclosed.resolve_left fun hmachines => ?_
  -- Without machines there are no grants at all.
  rcases hgranted with ⟨grant, hgrant, -⟩ | ⟨grant, hgrant, -⟩
  all_goals exact machines_ne_nil_of_mem_grants hgrant hmachines

/-- Denies reading, with a grant to another group beside the denial, and lists a file. -/
def deniedBesideOthers : Document :=
  ⟨.element "rightsMetadata" []
    (.element "access" [("type", "discover")]
      (.element "machine" [] (.element "world" [] .nil .nil) .nil)
    (.element "access" [("type", "read")]
      (.element "machine" []
        (.element "group" [] (.text "Palo Alto" .nil) (.element "none" [] .nil .nil)) .nil)
    (.element "access" [("type", "read")]
      (.element "file" [] (.text "a.pdf" .nil)
        (.element "machine" [] (.element "world" [] .nil .nil) .nil)) .nil))) .nil⟩

theorem withholds_iff_of_isCitation_deniedBesideOthers : ∃ evaluation,
    deniedBesideOthers.view.evaluate .indexing ⟨0, 0⟩ = .ok evaluation ∧
      evaluation.isCitation = .ok true ∧ evaluation.isReadable = false ∧
      (evaluation.fileRight "b.pdf" .world).isUnrestricted = false := by
  have h : deniedBesideOthers.view.evaluate .indexing ⟨0, 0⟩ = .ok _ := rfl
  have hcitation := isCitation_eq_decide h rfl
  have hlabel : deniedBesideOthers.label = .citation := by decide
  rw [hlabel, decide_eq_true rfl] at hcitation
  have hnobody : ¬ deniedBesideOthers.IsGrantedToMany := by decide
  have hwithholds := (withholds_iff_of_isCitation h rfl hcitation).mpr fun both => hnobody both.2
  exact ⟨_, h, hcitation, hwithholds.readable, hwithholds.world_file "b.pdf" (by decide)⟩

/-- Denies reading, and grants it to the world all the same. -/
def deniedAndGranted : Document :=
  ⟨.element "rightsMetadata" []
    (.element "access" [("type", "discover")]
      (.element "machine" [] (.element "world" [] .nil .nil) .nil)
    (.element "access" [("type", "read")]
      (.element "machine" [] (.element "none" [] .nil (.element "world" [] .nil .nil)) .nil)
      .nil)) .nil⟩

/-- **A denial does not withhold what is granted beside it**, although it makes the
object one that can be cited only. -/
theorem not_withholds_of_isCitation : ∃ evaluation,
    deniedAndGranted.view.evaluate .indexing ⟨0, 0⟩ = .ok evaluation ∧
      evaluation.isCitation = .ok true ∧
      evaluation.objectRight .world = ⟨true, none⟩ ∧ evaluation.isReadable = true ∧
      ¬ deniedAndGranted.Withholds evaluation := by
  have h : deniedAndGranted.view.evaluate .indexing ⟨0, 0⟩ = .ok _ := rfl
  refine ⟨_, h, ?_, rfl, rfl, ?_⟩
  · decide +kernel
  · intro hwithholds
    cases hwithholds.world

end Document

end AccessRights
