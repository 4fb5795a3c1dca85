import AccessRights.Proofs.SourceOrder
import Mathlib.Data.List.Destutter
import Mathlib.Data.List.Induction
import Mathlib.Logic.Relation

/-!
# What a path means

A path is walked by merging lists of nodes, step by step.  What it means can be said
without lists: a chain of nodes, each of which stands to the one before as the step
between them asks.  `Reaches` is that meaning, and it knows only the children of a node;
to be inside a node at any depth is to be a child of a child and so on
(`Node.mem_descendants_iff_transGen`).

`findAll_eq_reached` says that a path leads to all nodes at the end of such a chain and to
no others, to each once and in document order.  The steps overlap where they set out from
nodes inside one another, which is where merging has something to drop.

## Walking a path in loops

A path is also walked in another way: what is inside a node is found by way of a stack
(`Node.collect`), what a step leads to from several nodes is put into one list, and this list
is sorted by numbers before nodes that repeat the one before are dropped (`Node.follow`).
Within a document that is the same, `Node.follow_eq_findAll`, since both come in strict
order and have the same members.

All of these are total functions, so that following a path comes to an end on every document.
-/

namespace AccessRights

/-- The second node is right inside the first. -/
def IsChild (parent child : Node) : Prop :=
  child ∈ parent.children

/-- How the second node stands to the first along an axis. -/
def Axis.Relates : Axis → Node → Node → Prop
  | .child => IsChild
  | .descendant => Relation.TransGen IsChild

/-- The step leads from the first node to the second. -/
def Step.Leads (step : Step) (start reached : Node) : Prop :=
  step.axis.Relates start reached ∧ step.test.accepts reached.name = true

/-- The steps lead from the first node to the second, one after the other. -/
inductive Reaches : List Step → Node → Node → Prop
  | here (node : Node) : Reaches [] node node
  | step {step : Step} {steps : List Step} {start next reached : Node} :
    step.Leads start next → Reaches steps next reached → Reaches (step :: steps) start reached

theorem Reaches.append_step {steps : List Step} {step : Step} {start last reached : Node}
    (h : Reaches steps start last) (hstep : step.Leads last reached) :
    Reaches (steps ++ [step]) start reached := by
  induction h with
  | here node => exact .step hstep (.here reached)
  | step hfirst _ ih => exact .step hfirst (ih hstep)

/-- Chains may be followed from their end as well. -/
theorem Reaches.append_step_iff {steps : List Step} {step : Step} {start reached : Node} :
    Reaches (steps ++ [step]) start reached ↔
      ∃ last, Reaches steps start last ∧ step.Leads last reached := by
  constructor
  · intro h
    induction steps generalizing start with
    | nil =>
      cases h with
      | step hstep hrest =>
        cases hrest
        exact ⟨start, .here start, hstep⟩
    | cons first steps ih =>
      cases h with
      | step hfirst hrest =>
        obtain ⟨last, hlast, hstep⟩ := ih hrest
        exact ⟨last, .step hfirst hlast, hstep⟩
  · rintro ⟨last, hlast, hstep⟩
    exact hlast.append_step hstep

namespace Node

/-- **To be inside a node is to be a child of a child and so on.** -/
theorem mem_descendants_iff_transGen {node inner : Node} :
    inner ∈ node.descendants ↔ Relation.TransGen IsChild node inner := by
  constructor
  · intro h
    -- The walk goes down through ever smaller nodes.
    induction node using walk.induct with
    | case1 node ih =>
      obtain ⟨child, hchild, hin⟩ := mem_descendants_iff.mp h
      rcases hin with rfl | hin
      · exact .single hchild
      · exact .head hchild (ih ⟨child, hchild⟩ hin)
  · intro h
    induction h using Relation.TransGen.head_induction_on with
    | single hchild => exact (children_sublist _).subset hchild
    | head hchild _ ih => exact mem_descendants_iff.mpr ⟨_, hchild, .inr ih⟩

/-- What is found along an axis is what stands so to the node. -/
theorem mem_along_iff {node reached : Node} {axis : Axis} :
    reached ∈ node.along axis ↔ axis.Relates node reached := by
  cases axis with
  | child => exact Iff.rfl
  | descendant => exact mem_descendants_iff_transGen

/-- **One step from one node** leads where it should. -/
theorem mem_select_iff {node reached : Node} {step : Step} :
    reached ∈ node.select step ↔ step.Leads node reached := by
  rw [select, List.mem_filter, mem_along_iff]
  exact Iff.rfl

variable {start : Node}

/-- What the steps lead to is the node they start from or inside it. -/
theorem mem_of_reaches {steps : List Step} {reached : Node} (h : Reaches steps start reached) :
    reached ∈ start :: start.descendants := by
  induction h with
  | here node => exact List.mem_cons_self
  | @step step steps start next reached hfirst _ ih =>
    have hnext : next ∈ start.descendants :=
      (start.select_sublist step).subset (mem_select_iff.mpr hfirst)
    refine List.mem_cons_of_mem _ ?_
    rcases List.mem_cons.mp ih with rfl | hinside
    · exact hnext
    · exact (Content.descendants_sublist hnext).subset hinside

/-- **One step from several nodes** keeps document order and leads to what it leads to from
any of them. -/
theorem inOrder_selectAll {nodes : List Node}
    (h : ∀ node ∈ nodes, node ∈ start :: start.descendants) (step : Step) :
    InOrder (selectAll nodes step) ∧
      ∀ reached, reached ∈ selectAll nodes step ↔ ∃ node ∈ nodes, step.Leads node reached := by
  rw [selectAll_eq_filter h]
  refine ⟨InOrder.sublist List.filter_sublist start.inOrder_descendants, fun reached => ?_⟩
  rw [List.mem_filter, decide_eq_true_iff]
  simp only [mem_select_iff]
  constructor
  · rintro ⟨-, hleads⟩
    exact hleads
  · rintro ⟨node, hnode, hleads⟩
    have hbelow := (select_sublist_of_mem (h node hnode) step).subset (mem_select_iff.mpr hleads)
    exact ⟨hbelow, node, hnode, hleads⟩

/-- **All steps** of a path do, by induction from the last one. -/
theorem inOrder_findAll (start : Node) (steps : List Step) :
    InOrder (start.findAll ⟨steps⟩) ∧
      ∀ reached, reached ∈ start.findAll ⟨steps⟩ ↔ Reaches steps start reached := by
  induction steps using List.reverseRecOn with
  | nil =>
    refine ⟨List.pairwise_singleton _ _, fun reached => ?_⟩
    rw [show start.findAll ⟨[]⟩ = [start] from rfl, List.mem_singleton]
    constructor
    · rintro rfl
      exact .here reached
    · intro h
      cases h
      rfl
  | append_singleton steps step ih =>
    obtain ⟨-, hmem⟩ := ih
    have hbelow : ∀ node ∈ start.findAll ⟨steps⟩, node ∈ start :: start.descendants :=
      fun node hnode => mem_of_reaches ((hmem node).mp hnode)
    obtain ⟨horder, hselect⟩ := inOrder_selectAll hbelow step
    rw [findAll_steps_append]
    refine ⟨horder, fun reached => ?_⟩
    rw [hselect, Reaches.append_step_iff]
    simp only [hmem]

end Node

/-- Steps do not lead out of a document. -/
theorem Document.mem_of_reaches {document : Document} {steps : List Step} {node reached : Node}
    (hnode : node ∈ document.root :: document.elements) (h : Reaches steps node reached) :
    reached ∈ document.root :: document.elements := by
  rcases List.mem_cons.mp (Node.mem_of_reaches h) with rfl | hbelow
  · exact hnode
  · exact List.mem_cons_of_mem _ (mem_elements_of_mem_descendants hnode hbelow)

/-! ## Following a path in loops -/

/-- Puts what the step leads to from a node behind what was found so far. -/
def Step.visit (step : Step) (found : List Node) (node : Node) : List Node :=
  match step.axis with
  | .child => found ++ node.children.filter fun child => step.test.accepts child.name
  | .descendant =>
    Node.collect (fun inner => step.test.accepts inner.name)
      (pushAll [] node.children.reverse) found

/-- Sorts nodes by their numbers and drops those that repeat the one before. -/
def inOrderOnce (nodes : List Node) : List Node :=
  (nodes.mergeSort fun a b => decide (a.number ≤ b.number)).destutter
    fun a b => a.number ≠ b.number

/-- Follows the steps one after the other, each from all nodes that those before it led to. -/
def Node.follow (node : Node) (path : Path) : List Node :=
  path.steps.foldl (fun nodes step => inOrderOnce (nodes.foldl step.visit [])) [node]

theorem Step.visit_eq (step : Step) (found : List Node) (node : Node) :
    step.visit found node = found ++ node.select step := by
  rw [visit, Node.select]
  cases step.axis with
  | child => rfl
  | descendant => exact Node.collect_children _ _ _

theorem Step.foldl_visit (step : Step) (nodes found : List Node) :
    nodes.foldl step.visit found = found ++ nodes.flatMap fun node => node.select step := by
  induction nodes generalizing found with
  | nil => exact (List.append_nil found).symm
  | cons node nodes ih =>
    rw [List.foldl_cons, ih, step.visit_eq, List.flatMap_cons, List.append_assoc]

/-- Where nodes are sorted and none has the number of the one before, they increase. -/
theorem inOrder_destutter' {first : Node} {nodes : List Node}
    (h : (first :: nodes).Pairwise fun a b => a.number ≤ b.number) :
    InOrder (nodes.destutter' (fun a b => a.number ≠ b.number) first) := by
  induction nodes generalizing first with
  | nil => exact List.pairwise_singleton _ _
  | cons second nodes ih =>
    obtain ⟨hfirst, hnodes⟩ := List.pairwise_cons.mp h
    rw [List.destutter'_cons]
    split
    · next hne =>
      refine List.pairwise_cons.mpr ⟨fun other hother => ?_, ih hnodes⟩
      have hsecond : second.number ≤ other.number := by
        rcases List.mem_cons.mp ((List.destutter'_sublist _ _ _).subset hother) with rfl | hother
        · exact Nat.le_refl _
        · exact (List.pairwise_cons.mp hnodes).1 other hother
      have hless := hfirst second List.mem_cons_self
      omega
    · exact ih (h.sublist ((List.sublist_cons_self second nodes).cons_cons first))

/-- What is dropped has the number of something that stays. -/
theorem exists_mem_destutter' {node first : Node} {nodes : List Node}
    (h : node ∈ first :: nodes) :
    ∃ other ∈ nodes.destutter' (fun a b => a.number ≠ b.number) first,
      other.number = node.number := by
  induction nodes generalizing first with
  | nil => exact ⟨first, List.mem_cons_self, by rw [List.mem_singleton.mp h]⟩
  | cons second nodes ih =>
    rw [List.destutter'_cons]
    split
    · rcases List.mem_cons.mp h with rfl | h
      · exact ⟨_, List.mem_cons_self, rfl⟩
      · obtain ⟨other, hother, hnumber⟩ := ih h
        exact ⟨other, List.mem_cons_of_mem _ hother, hnumber⟩
    · next hsame =>
      rcases List.mem_cons.mp h with rfl | h
      · exact ih List.mem_cons_self
      · rcases List.mem_cons.mp h with rfl | h
        · exact ⟨first, List.mem_destutter' _ _ _, not_not.mp hsame⟩
        · exact ih (List.mem_cons_of_mem _ h)

theorem inOrder_inOrderOnce (nodes : List Node) : InOrder (inOrderOnce nodes) := by
  have hsorted : (nodes.mergeSort fun a b => decide (a.number ≤ b.number)).Pairwise
      fun a b => a.number ≤ b.number := by
    simpa only [decide_eq_true_eq] using
      @List.pairwise_mergeSort Node (fun a b => decide (a.number ≤ b.number))
        (fun _ _ _ => by simpa using Nat.le_trans)
        (fun _ _ => by simpa using Nat.le_total _ _) nodes
  rw [inOrderOnce]
  cases hcases : nodes.mergeSort fun a b => decide (a.number ≤ b.number) with
  | nil => exact List.Pairwise.nil
  | cons first rest => exact inOrder_destutter' (hcases ▸ hsorted)

/-- Of a node and those inside it no two have one number. -/
theorem Node.eq_of_number_eq {start a b : Node} (ha : a ∈ start :: start.descendants)
    (hb : b ∈ start :: start.descendants) (h : a.number = b.number) : a = b := by
  rcases List.mem_cons.mp ha with rfl | ha
  · rcases List.mem_cons.mp hb with rfl | hb
    · rfl
    · exact absurd h (Nat.ne_of_lt (number_lt_of_mem_descendants hb))
  · rcases List.mem_cons.mp hb with rfl | hb
    · exact absurd h (Nat.ne_of_gt (number_lt_of_mem_descendants ha))
    · exact Content.eq_of_number_eq ha hb h

/-- Within one document nothing is lost. -/
theorem mem_inOrderOnce_iff {start : Node} {nodes : List Node}
    (h : ∀ node ∈ nodes, node ∈ start :: start.descendants) {node : Node} :
    node ∈ inOrderOnce nodes ↔ node ∈ nodes := by
  have hmem : ∀ node, node ∈ nodes.mergeSort (fun a b => decide (a.number ≤ b.number)) ↔
      node ∈ nodes := fun node => List.mem_mergeSort
  have hstay : ∀ node, node ∈ inOrderOnce nodes → node ∈ nodes := by
    intro node hin
    exact (hmem node).mp ((List.destutter_sublist _ _).subset hin)
  refine ⟨hstay node, fun hin => ?_⟩
  have hkept : ∃ other ∈ inOrderOnce nodes, other.number = node.number := by
    have hin' := (hmem node).mpr hin
    rw [inOrderOnce]
    cases hcases : nodes.mergeSort fun a b => decide (a.number ≤ b.number) with
    | nil =>
      rw [hcases] at hin'
      cases hin'
    | cons first rest => exact exists_mem_destutter' (hcases ▸ hin')
  obtain ⟨other, hother, hnumber⟩ := hkept
  have hsame : other = node :=
    Node.eq_of_number_eq (h other (hstay other hother)) (h node hin) hnumber
  exact hsame ▸ hother

/-- **The loops lead to what the path leads to.** -/
theorem Node.follow_eq_findAll (node : Node) (path : Path) :
    node.follow path = node.findAll path := by
  obtain ⟨steps⟩ := path
  induction steps using List.reverseRecOn with
  | nil => rfl
  | append_singleton steps step ih =>
    have hbelow : ∀ reached ∈ node.findAll ⟨steps⟩, reached ∈ node :: node.descendants :=
      fun reached hmem => mem_of_reaches (((inOrder_findAll node steps).2 reached).mp hmem)
    obtain ⟨horder, hselect⟩ := inOrder_selectAll hbelow step
    have hfollow : node.follow ⟨steps ++ [step]⟩ =
        inOrderOnce ((node.findAll ⟨steps⟩).flatMap fun reached => reached.select step) := by
      rw [← ih, follow, List.foldl_append, ← List.nil_append (List.flatMap _ _),
        ← step.foldl_visit]
      rfl
    have hinside : ∀ reached ∈ (node.findAll ⟨steps⟩).flatMap fun reached => reached.select step,
        reached ∈ node :: node.descendants := by
      intro reached hmem
      obtain ⟨last, hlast, hstep⟩ := List.mem_flatMap.mp hmem
      exact List.mem_cons_of_mem _ ((select_sublist_of_mem (hbelow last hlast) step).subset hstep)
    rw [hfollow, findAll_steps_append]
    refine InOrder.ext (inOrder_inOrderOnce _) horder fun reached => ?_
    rw [mem_inOrderOnce_iff hinside, hselect, List.mem_flatMap]
    simp only [mem_select_iff]

/-- **A path leads, from any node of a document, to the nodes at the end of a chain that its
steps describe**: to all of them, each once, in document order.  Without steps it leads to
the node itself.  The loops of `Node.follow` find the same nodes. -/
theorem findAll_eq_reached (document : Document) {node : Node}
    (hnode : node ∈ document.root :: document.elements) (path : Path) :
    node.follow path = document.view.findAll node path ∧
      (document.view.findAll node path).Pairwise (fun a b => a.number < b.number) ∧
      (document.view.findAll node path).Nodup ∧
      (∀ reached, reached ∈ document.view.findAll node path ↔
        reached ∈ document.root :: document.elements ∧ Reaches path.steps node reached) ∧
      (path.isEmpty = true → document.view.findAll node path = [node]) := by
  obtain ⟨horder, hmem⟩ := Node.inOrder_findAll node path.steps
  refine ⟨node.follow_eq_findAll path, horder, InOrder.nodup horder, fun reached => ?_,
    fun hempty => ?_⟩
  · rw [and_iff_right_of_imp (Document.mem_of_reaches hnode)]
    exact hmem reached
  · have hsteps : path.steps = [] := List.isEmpty_iff.mp hempty
    show path.steps.foldl Node.selectAll [node] = [node]
    rw [hsteps, List.foldl_nil]

/-- Elements of one name inside one another, with one below all of them. -/
def nested : Document :=
  ⟨.element "b" [] (.element "b" [] (.element "c" [] .nil .nil) (.element "c" [] .nil .nil)) .nil⟩

/-- From both elements `b` the second step leads to the inner `c`, which is found once. -/
theorem findAll_eq_reached_nested :
    nested.root ∈ nested.root :: nested.elements ∧
      nested.root.follow (.parse "//b//c") = nested.view.findAll nested.root (.parse "//b//c") ∧
      ((nested.view.findAll nested.root (.parse "//b//c")).map Node.number = [3, 4]) ∧
      (nested.view.findAll nested.root (.parse "//b//c")).Nodup ∧
      ∀ reached, reached ∈ nested.view.findAll nested.root (.parse "//b//c") ↔
        reached ∈ nested.root :: nested.elements ∧
          Reaches [⟨.descendant, .named "b"⟩, ⟨.descendant, .named "c"⟩] nested.root reached := by
  have hroot : nested.root ∈ nested.root :: nested.elements := List.mem_cons_self
  have hsteps : (Path.parse "//b//c").steps =
      [⟨.descendant, .named "b"⟩, ⟨.descendant, .named "c"⟩] := by decide +kernel
  obtain ⟨hfollow, -, hnodup, hmem, -⟩ := findAll_eq_reached nested hroot (.parse "//b//c")
  rw [hsteps] at hmem
  exact ⟨hroot, hfollow, by decide +kernel, hnodup, hmem⟩

end AccessRights
