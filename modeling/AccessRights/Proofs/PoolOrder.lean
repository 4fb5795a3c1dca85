import AccessRights.Proofs.DocumentAnswers

/-!
# Pooling and document order

The blocks of one kind and scope are pooled: what counts are their machines and the
grants in these, block by block.  Blocks come in document order, but what is pooled from
them need not.  A rights element may stand inside a block, with blocks of its own, and
these come second although they may stand in front of what the outer block holds.

`Document.PoolsByBlock` says how far pooling follows the document.  Nothing is pooled
twice, however blocks are nested, and what is pooled is in document order exactly if every
block that stands inside another one comes after all that is pooled from that one
(`InnerComesLast`).  In particular it is wherever no block holds another.

## What carries the argument

Of two blocks the later one is inside the earlier one or after all of it
(`Node.mem_descendants_or_lt`), and only the first case is left open
(`inOrder_flatMap_iff`).  That nothing is pooled twice is the fact that an element is the
child of one element only (`Node.eq_of_mem_children`).

Where order holds, the first of a pool is the earliest, and the grants to the world and
to the stanford group that are reported, as well as the release date that counts, are the
earliest of their pools.  For the release date order among the machines is enough: a date
is looked for at any depth, and a machine inside another one adds no date that is not
inside that one too (`Node.isEarliest_of_head?_flatMap`).
-/

namespace AccessRights

/-! ## The earliest of several elements -/

/-- No other of the elements stands before this one. -/
def Node.IsEarliest (node : Node) (nodes : List Node) : Prop :=
  node ∈ nodes ∧ ∀ other ∈ nodes, node.number ≤ other.number

instance (node : Node) (nodes : List Node) : Decidable (node.IsEarliest nodes) :=
  inferInstanceAs (Decidable (_ ∧ _))

namespace InOrder

/-- What holds of any two elements of an ordered list, the earlier one taken first, holds
of those of which one stands before the other. -/
theorem rel_of_lt {R : Node → Node → Prop} {nodes : List Node} (h : InOrder nodes)
    (hrel : nodes.Pairwise R) {first second : Node} (hfirst : first ∈ nodes)
    (hsecond : second ∈ nodes) (hlt : first.number < second.number) : R first second := by
  induction nodes with
  | nil => cases hfirst
  | cons node rest ih =>
    obtain ⟨hnode, hrest⟩ := List.pairwise_cons.mp h
    obtain ⟨hrelnode, hrelrest⟩ := List.pairwise_cons.mp hrel
    rcases List.mem_cons.mp hfirst with rfl | hlater
    · rcases List.mem_cons.mp hsecond with rfl | hafter
      · exact absurd hlt (Nat.lt_irrefl _)
      · exact hrelnode second hafter
    · rcases List.mem_cons.mp hsecond with rfl | hafter
      · exact absurd hlt (Nat.lt_asymm (hnode first hlater))
      · exact ih hrest hrelrest hlater hafter

/-- The earliest element of an ordered list comes first. -/
theorem head?_eq_of_isEarliest {nodes : List Node} {node : Node} (h : InOrder nodes)
    (hnode : node.IsEarliest nodes) : nodes.head? = some node := by
  cases nodes with
  | nil => cases hnode.1
  | cons first rest =>
    rcases List.mem_cons.mp hnode.1 with rfl | hmem
    · rfl
    · have hfirst := (List.pairwise_cons.mp h).1 node hmem
      exact absurd hfirst (Nat.not_lt.mpr (hnode.2 first List.mem_cons_self))

/-- The earliest element with a property is the one that is found. -/
theorem find?_eq_of_isEarliest {nodes : List Node} {node : Node} {p : Node → Bool}
    (h : InOrder nodes) (hnode : node.IsEarliest (nodes.filter p)) :
    nodes.find? p = some node := by
  rw [← List.head?_filter]
  exact head?_eq_of_isEarliest (sublist List.filter_sublist h) hnode

end InOrder

namespace Node

/-- What is found first in machines that are in document order is the earliest of all
that is in them, at any depth. -/
theorem isEarliest_of_head?_flatMap {start node : Node} {machines : List Node}
    (h : InOrder machines) (hmem : ∀ machine ∈ machines, machine ∈ start.descendants)
    (p : Node → Bool)
    (hhead : (machines.flatMap fun machine => machine.descendants.filter p).head? = some node) :
    node.IsEarliest (machines.flatMap fun machine => machine.descendants.filter p) := by
  induction machines with
  | nil => cases hhead
  | cons machine rest ih =>
    obtain ⟨hmachine, hrest⟩ := List.pairwise_cons.mp h
    obtain ⟨hstart, hstarts⟩ := List.forall_mem_cons.mp hmem
    rw [List.flatMap_cons] at hhead ⊢
    cases hfound : machine.descendants.filter p with
    | nil =>
      rw [hfound, List.nil_append] at hhead
      exact ih hrest hstarts hhead
    | cons first others =>
      rw [hfound, List.cons_append, List.head?_cons, Option.some.injEq] at hhead
      subst hhead
      have hbelow : ∀ other ∈ machine.descendants.filter p, first.number ≤ other.number := by
        have horder : InOrder (machine.descendants.filter p) :=
          InOrder.sublist List.filter_sublist machine.inOrder_descendants
        rw [hfound] at horder ⊢
        intro other hother
        rcases List.mem_cons.mp hother with rfl | hother
        · exact Nat.le_refl _
        · exact Nat.le_of_lt ((List.pairwise_cons.mp horder).1 other hother)
      have hfirst : first ∈ machine.descendants.filter p := hfound ▸ List.mem_cons_self
      refine ⟨List.mem_append_left _ List.mem_cons_self, fun other hother => ?_⟩
      rw [← hfound] at hother
      rcases List.mem_append.mp hother with hother | hother
      · exact hbelow other hother
      · obtain ⟨later, hlater, hother⟩ := List.mem_flatMap.mp hother
        obtain ⟨hinside, hp⟩ := List.mem_filter.mp hother
        -- A later machine is inside this one, which has its dates too, or after all of it.
        rcases mem_descendants_or_lt hstart (hstarts later hlater) (hmachine later hlater)
          with hnested | hafter
        · have hdeep := (Content.descendants_sublist hnested).subset hinside
          exact hbelow other (List.mem_filter.mpr ⟨hdeep, hp⟩)
        · have hlt := hafter first (List.mem_of_mem_filter hfirst)
          exact Nat.le_of_lt (Nat.lt_trans hlt (number_lt_of_mem_descendants hinside))

end Node

/-! ## What is pooled from elements -/

/-- Elements that stand inside others come after all that is pooled from these. -/
def InnerComesLast (nodes : List Node) (pooled : Node → List Node) : Prop :=
  ∀ outer ∈ nodes, ∀ inner ∈ nodes, inner ∈ outer.descendants →
    ∀ a ∈ pooled outer, ∀ b ∈ pooled inner, a.number < b.number

instance (nodes : List Node) (pooled : Node → List Node) :
    Decidable (InnerComesLast nodes pooled) :=
  inferInstanceAs (Decidable (∀ outer ∈ _, _))

/-- **What is pooled is in document order exactly if inner elements come last.**  Each
element gives a part of what is inside it. -/
theorem inOrder_flatMap_iff {start : Node} {nodes : List Node} {pooled : Node → List Node}
    (h : InOrder nodes) (hmem : ∀ node ∈ nodes, node ∈ start.descendants)
    (horder : ∀ node ∈ nodes, InOrder (pooled node))
    (hinside : ∀ node, ∀ a ∈ pooled node, a ∈ node.descendants) :
    InOrder (nodes.flatMap pooled) ↔ InnerComesLast nodes pooled := by
  unfold InOrder
  rw [List.pairwise_flatMap]
  constructor
  · rintro ⟨-, hrel⟩ outer houter inner hinner hnested
    exact h.rel_of_lt hrel houter hinner (Node.number_lt_of_mem_descendants hnested)
  · intro hlast
    refine ⟨horder, h.imp_of_mem fun {first second} hfirst hsecond hlt a ha b hb => ?_⟩
    rcases Node.mem_descendants_or_lt (hmem first hfirst) (hmem second hsecond) hlt
      with hnested | hafter
    · exact hlast first hfirst second hsecond hnested a ha b hb
    · exact Nat.lt_trans (hafter a (hinside first a ha))
        (Node.number_lt_of_mem_descendants (hinside second b hb))

/-- **Nothing is pooled twice** from the children of different elements. -/
theorem nodup_flatMap_of_children {start : Node} {nodes : List Node} {pooled : Node → List Node}
    (h : nodes.Nodup) (hmem : ∀ node ∈ nodes, node ∈ start.descendants)
    (hsub : ∀ node, (pooled node).Sublist node.children) : (nodes.flatMap pooled).Nodup := by
  rw [List.nodup_flatMap]
  constructor
  · intro node _
    have horder : InOrder node.children :=
      InOrder.sublist node.children_sublist node.inOrder_descendants
    exact (InOrder.sublist (hsub node) horder).nodup
  · refine h.imp_of_mem fun {first second} hfirst hsecond hne => ?_
    intro child hchild hother
    exact hne (Node.eq_of_mem_children (hmem first hfirst) (hmem second hsecond)
      ((hsub first).subset hchild) ((hsub second).subset hother))

/-! ## The pools of a document -/

namespace Node

variable (block : Node)

/-- Children of a name come in order. -/
theorem inOrder_childrenNamed (name : String) : InOrder (block.childrenNamed name) :=
  InOrder.sublist (List.filter_sublist.trans block.children_sublist) block.inOrder_descendants

theorem childrenNamed_subset_descendants (name : String) :
    ∀ child ∈ block.childrenNamed name, child ∈ block.descendants :=
  fun _ hchild => block.children_sublist.subset (List.mem_of_mem_filter hchild)

/-- The grants of one block are in document order: its machines stand side by side. -/
theorem inOrder_blockGrants : InOrder block.blockGrants := by
  refine (inOrder_flatMap_iff (block.inOrder_childrenNamed _)
    (block.childrenNamed_subset_descendants _) ?_ ?_).mpr ?_
  · exact fun machine _ => InOrder.sublist machine.children_sublist machine.inOrder_descendants
  · exact fun machine grant hgrant => machine.children_sublist.subset hgrant
  · intro outer houter inner hinner hnested
    have hself := lt_of_mem_children (List.mem_of_mem_filter houter)
      (List.mem_of_mem_filter hinner) (number_lt_of_mem_descendants hnested) hnested
    exact absurd hself (Nat.lt_irrefl _)

/-- What a block grants is inside it. -/
theorem blockGrants_subset_descendants :
    ∀ grant ∈ block.blockGrants, grant ∈ block.descendants := by
  intro grant hgrant
  obtain ⟨machine, hmachine, hchild⟩ := List.mem_flatMap.mp hgrant
  exact (Content.descendants_sublist (block.childrenNamed_subset_descendants _ machine
    hmachine)).subset (machine.children_sublist.subset hchild)

end Node

namespace Document

/-- The blocks of a kind that are pooled: those of one scope, or all of them. -/
def pooledBlocks (document : Document) (kind : AccessKind) : Option Scope → List Node
  | some scope => document.blocks kind scope
  | none => document.blocksOfKind kind

/-- The machines of these blocks, block by block. -/
def pooledMachines (document : Document) (kind : AccessKind) (scope? : Option Scope) :
    List Node :=
  (document.pooledBlocks kind scope?).flatMap fun block => block.childrenNamed Vocabulary.machine

/-- The grants of these machines, machine by machine. -/
def pooledGrants (document : Document) (kind : AccessKind) (scope? : Option Scope) :
    List Node :=
  (document.pooledMachines kind scope?).flatMap Node.children

/-- How pooling the blocks of one kind, and of one scope or all, follows the document. -/
structure PoolsByBlock (document : Document) (kind : AccessKind) (scope? : Option Scope) :
    Prop where
  blocks : InOrder (document.pooledBlocks kind scope?)
  machines_nodup : (document.pooledMachines kind scope?).Nodup
  grants_nodup : (document.pooledGrants kind scope?).Nodup
  machines_iff : InOrder (document.pooledMachines kind scope?) ↔
    InnerComesLast (document.pooledBlocks kind scope?)
      fun block => block.childrenNamed Vocabulary.machine
  grants_iff : InOrder (document.pooledGrants kind scope?) ↔
    InnerComesLast (document.pooledBlocks kind scope?) Node.blockGrants

variable (document : Document) (kind : AccessKind) (scope? : Option Scope)

/-- Pooled blocks are elements of the document, in its order. -/
theorem pooledBlocks_sublist :
    (document.pooledBlocks kind scope?).Sublist document.elements := by
  cases scope? with
  | some scope =>
    exact (List.filter_sublist.trans List.filter_sublist).trans List.filter_sublist
  | none => exact List.filter_sublist.trans List.filter_sublist

theorem pooledMachines_subset_elements :
    ∀ machine ∈ document.pooledMachines kind scope?, machine ∈ document.elements := by
  intro machine hmachine
  obtain ⟨block, hblock, hchild⟩ := List.mem_flatMap.mp hmachine
  have hmem := (document.pooledBlocks_sublist kind scope?).subset hblock
  exact (Content.descendants_sublist hmem).subset
    (block.childrenNamed_subset_descendants _ machine hchild)

/-- Blocks are pooled in the order of their numbers. -/
theorem inOrder_pooledBlocks : InOrder (document.pooledBlocks kind scope?) :=
  InOrder.sublist (document.pooledBlocks_sublist kind scope?) document.root.inOrder_descendants

/-- No machine is pooled twice. -/
theorem nodup_pooledMachines : (document.pooledMachines kind scope?).Nodup :=
  nodup_flatMap_of_children (document.inOrder_pooledBlocks kind scope?).nodup
    (fun _ hblock => (document.pooledBlocks_sublist kind scope?).subset hblock)
    fun _ => List.filter_sublist

/-- No grant is either, since no two machines share one. -/
theorem nodup_pooledGrants : (document.pooledGrants kind scope?).Nodup :=
  nodup_flatMap_of_children (document.nodup_pooledMachines kind scope?)
    (document.pooledMachines_subset_elements kind scope?) fun _ => List.Sublist.refl _

/-- **Pooling goes block by block**, for every kind and scope. -/
theorem poolsByBlock : document.PoolsByBlock kind scope? where
  blocks := document.inOrder_pooledBlocks kind scope?
  machines_nodup := document.nodup_pooledMachines kind scope?
  grants_nodup := document.nodup_pooledGrants kind scope?
  machines_iff :=
    inOrder_flatMap_iff (document.inOrder_pooledBlocks kind scope?)
      (fun _ hblock => (document.pooledBlocks_sublist kind scope?).subset hblock)
      (fun block _ => block.inOrder_childrenNamed _)
      fun block => block.childrenNamed_subset_descendants _
  grants_iff := by
    unfold pooledGrants pooledMachines
    rw [List.flatMap_assoc]
    exact inOrder_flatMap_iff (document.inOrder_pooledBlocks kind scope?)
      (fun _ hblock => (document.pooledBlocks_sublist kind scope?).subset hblock)
      (fun block _ => block.inOrder_blockGrants)
      fun block => block.blockGrants_subset_descendants

/-! ## The earliest of a pool -/

/-- The grants to the world for reading the object. -/
def worldGrants : List Node :=
  (document.grants .read .object).filter fun grant => grant.name = Vocabulary.world

/-- The grants to the stanford group for reading the object. -/
def stanfordGrants : List Node :=
  (document.grants .read .object).filter fun grant =>
    grant.name = Vocabulary.group ∧ NamesStanford grant.text

variable {document} {options : Options} {now : Calendar.Instant} {evaluation : Evaluation}

/-- Where grants are pooled in order the world has the right of the earliest one to it. -/
theorem objectRight_world_of_isEarliest (horder : InOrder (document.grants .read .object))
    (h : document.view.evaluate options now = .ok evaluation) {grant : Node}
    (hgrant : grant.IsEarliest document.worldGrants) :
    evaluation.objectRight .world = .granting grant.rule? := by
  rw [objectRight_of_evaluate h, rightAmong?, horder.find?_eq_of_isEarliest hgrant]
  rfl

/-- So has the stanford group. -/
theorem objectRight_stanford_of_isEarliest (horder : InOrder (document.grants .read .object))
    (h : document.view.evaluate options now = .ok evaluation) {grant : Node}
    (hgrant : grant.IsEarliest document.stanfordGrants) :
    evaluation.objectRight .stanford = .granting grant.rule? := by
  rw [objectRight_of_evaluate h, rightAmong?, horder.find?_eq_of_isEarliest hgrant]
  rfl

/-- The release date that counts is the earliest one, if machines are in order. -/
theorem releaseDate?_of_isEarliest (horder : InOrder (document.pooledMachines .read none))
    {date : Node} (hdate : date.IsEarliest document.releaseDates) :
    document.view.metadata.releaseDate? = some date.text := by
  have hmem := document.pooledMachines_subset_elements .read none
  have hinside : ∀ node ∈ document.releaseDates, node ∈ document.elements := by
    intro node hnode
    obtain ⟨machine, hmachine, hbelow⟩ := List.mem_flatMap.mp hnode
    exact (Content.descendants_sublist (hmem machine hmachine)).subset
      (List.mem_of_mem_filter hbelow)
  rw [metadata_releaseDate?]
  cases hhead : document.releaseDates.head? with
  | none =>
    rw [List.head?_eq_none_iff] at hhead
    rw [hhead] at hdate
    cases hdate.1
  | some first =>
    have hfirst : first.IsEarliest document.releaseDates :=
      Node.isEarliest_of_head?_flatMap horder hmem _ hhead
    -- Of two that are earliest neither is before the other, so they are one element.
    have hsame : first = date :=
      Content.eq_of_number_eq (hinside first hfirst.1) (hinside date hdate.1)
        (Nat.le_antisymm (hfirst.2 date hdate.1) (hdate.2 first hfirst.1))
    rw [hsame]
    rfl

/-- **Pooling follows the document as far as blocks do.**  Blocks are in document order
and nothing is pooled twice; machines, and grants, are in document order exactly if blocks
inside others come after what these hold.  Where they are, the grants that are reported
for the world and the stanford group, and the release date that counts, are the earliest
in the document among all of their pools. -/
theorem pooling_follows_blocks (document : Document) :
    (∀ kind scope?, document.PoolsByBlock kind scope?) ∧
    (InOrder (document.pooledGrants .read (some .object)) →
      ∀ options now evaluation, document.view.evaluate options now = .ok evaluation →
        (∀ grant : Node, grant.IsEarliest document.worldGrants →
          evaluation.objectRight .world = .granting grant.rule?) ∧
        (∀ grant : Node, grant.IsEarliest document.stanfordGrants →
          evaluation.objectRight .stanford = .granting grant.rule?)) ∧
    (InOrder (document.pooledMachines .read none) →
      ∀ date : Node, date.IsEarliest document.releaseDates →
        document.view.metadata.releaseDate? = some date.text) := by
  refine ⟨fun kind scope? => document.poolsByBlock kind scope?, ?_, ?_⟩
  · intro horder options now evaluation h
    exact ⟨fun _ => objectRight_world_of_isEarliest horder h,
      fun _ => objectRight_stanford_of_isEarliest horder h⟩
  · intro horder date
    exact releaseDate?_of_isEarliest horder

/-- One block inside another one, after its machine. -/
def nestedLast : Document :=
  ⟨.element "rightsMetadata" []
    (.element "access" [("type", "read")]
      (.element "machine" []
        (.element "world" [("rule", "no-download")] .nil
        (.element "group" [] (.text "Stanford" .nil)
        (.element "embargoReleaseDate" [] (.text "2031-05-04" .nil) .nil)))
      (.element "rightsMetadata" []
        (.element "access" [("type", "read")]
          (.element "machine" []
            (.element "world" [] .nil
            (.element "embargoReleaseDate" [] (.text "2040-01-01" .nil) .nil)) .nil)
          .nil) .nil)) .nil) .nil⟩

theorem pooling_follows_blocks_nestedLast : ∃ evaluation,
    nestedLast.view.evaluate .default ⟨0, 0⟩ = .ok evaluation ∧
      nestedLast.worldGrants.length = 2 ∧ nestedLast.releaseDates.length = 2 ∧
      InOrder (nestedLast.pooledGrants .read (some .object)) ∧
      InOrder (nestedLast.pooledMachines .read none) ∧
      evaluation.objectRight .world = ⟨true, some "no-download"⟩ ∧
      evaluation.objectRight .stanford = ⟨true, none⟩ ∧
      nestedLast.view.metadata.releaseDate? = some "2031-05-04" := by
  have h : nestedLast.view.evaluate .default ⟨0, 0⟩ = .ok _ := rfl
  obtain ⟨hpools, hgrants, hdates⟩ := pooling_follows_blocks nestedLast
  have hgrantsLast : InOrder (nestedLast.pooledGrants .read (some .object)) :=
    (hpools .read (some .object)).grants_iff.mpr (by decide)
  have hmachinesLast : InOrder (nestedLast.pooledMachines .read none) :=
    (hpools .read none).machines_iff.mpr (by decide)
  obtain ⟨hworld, hstanford⟩ := hgrants hgrantsLast _ _ _ h
  exact ⟨_, h, by decide, by decide, hgrantsLast, hmachinesLast,
    hworld (nestedLast.worldGrants.get ⟨0, by decide⟩) (by decide),
    hstanford (nestedLast.stanfordGrants.get ⟨0, by decide⟩) (by decide),
    hdates hmachinesLast (nestedLast.releaseDates.get ⟨0, by decide⟩) (by decide)⟩

/-- One block inside another one, ahead of its machine. -/
def nestedFirst : Document :=
  ⟨.element "rightsMetadata" []
    (.element "access" [("type", "read")]
      (.element "rightsMetadata" []
        (.element "access" [("type", "read")]
          (.element "machine" [] (.element "world" [("rule", "inner")] .nil .nil) .nil) .nil)
      (.element "machine" [] (.element "world" [("rule", "outer")] .nil .nil) .nil)) .nil) .nil⟩

/-- **What is pooled first need not be the earliest.**  A block inside another one, ahead
of its machine, comes second all the same, and the grant to the world that is reported is
the later of two. -/
theorem not_inOrder_pooled_nestedFirst : ∃ evaluation grant,
    Document.read "<rightsMetadata><access type=\"read\"><rightsMetadata><access type=\"read\"><machine><world rule=\"inner\"/></machine></access></rightsMetadata><machine><world rule=\"outer\"/></machine></access></rightsMetadata>" = .ok nestedFirst ∧
      nestedFirst.view.evaluate .default ⟨0, 0⟩ = .ok evaluation ∧
      ¬ InOrder (nestedFirst.pooledMachines .read (some .object)) ∧
      ¬ InOrder (nestedFirst.pooledGrants .read (some .object)) ∧
      Node.IsEarliest grant nestedFirst.worldGrants ∧ grant.rule? = some "inner" ∧
      evaluation.objectRight .world = ⟨true, some "outer"⟩ := by
  have h : nestedFirst.view.evaluate .default ⟨0, 0⟩ = .ok _ := rfl
  refine ⟨_, nestedFirst.worldGrants.get ⟨1, by decide⟩, by decide +kernel, h, ?_⟩
  decide

end Document

end AccessRights
