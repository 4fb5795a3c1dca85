import AccessRights.View
import Mathlib.Data.List.Nodup

/-!
# Paths lead through a document in its order

A step of a path may set out from several nodes, some of them inside others, and what
they lead to is merged by number (`mergeByNumber`).  This module says what comes out of
that without a word on merging: the elements of the document, in its order, that some
node of the step leads to (`Node.selectAll_eq_filter`).

## What carries the argument

Everything a path leads to is a part of one list, the elements below the node that the
path starts from.  That list is in strictly increasing order of numbers
(`Node.inOrder_descendants`), so a part of it is told by its members
(`InOrder.eq_filter`), and merging two parts is a filter again
(`mergeByNumber_filter`).  Distinct numbers are what makes this work: two nodes of one
number are one node, and keeping either of them loses nothing.

The same order tells where two elements stand to each other: the later one is inside the
earlier one, or after all that is inside that one (`Node.mem_descendants_or_lt`).
-/

namespace AccessRights

/-! ## Elements come in the order of their numbers -/

/-- The nodes are in strictly increasing order of their numbers. -/
def InOrder (nodes : List Node) : Prop :=
  nodes.Pairwise fun a b => a.number < b.number

instance (nodes : List Node) : Decidable (InOrder nodes) :=
  inferInstanceAs (Decidable (List.Pairwise _ _))

namespace InOrder

/-- Nodes in order are different nodes. -/
theorem nodup {nodes : List Node} (h : InOrder nodes) : nodes.Nodup :=
  h.imp fun hlt heq => Nat.ne_of_lt hlt (congrArg Node.number heq)

/-- Leaving out nodes keeps the order. -/
theorem sublist {nodes all : List Node} (hsub : nodes.Sublist all) (h : InOrder all) :
    InOrder nodes :=
  List.Pairwise.sublist hsub h

/-- An ordered list is told by its members. -/
theorem ext {left right : List Node} (hleft : InOrder left) (hright : InOrder right)
    (h : ∀ node, node ∈ left ↔ node ∈ right) : left = right := by
  have hperm : left.Perm right :=
    (List.perm_ext_iff_of_nodup hleft.nodup hright.nodup).mpr h
  exact hperm.eq_of_pairwise (fun _ _ _ _ hlt hgt => absurd hlt (Nat.lt_asymm hgt)) hleft hright

/-- A part of an ordered list is told by its members as well. -/
theorem eq_filter {nodes all : List Node} (hsub : nodes.Sublist all) (h : InOrder all) :
    nodes = all.filter (· ∈ nodes) := by
  refine ext (sublist hsub h) (sublist List.filter_sublist h) fun node => ?_
  simpa using fun hmem => hsub.subset hmem

end InOrder

/-- **Elements come in order**, at any depth. -/
theorem Content.inOrder_nodesFrom (k : Nat) (content : Content) :
    InOrder (content.nodesFrom k) := by
  have h : (List.range' k content.size).Pairwise (· < ·) := List.pairwise_lt_range'
  rw [← Content.map_number_nodesFrom] at h
  exact List.pairwise_map.mp h

/-- The elements at the top are among those at any depth. -/
theorem Content.elementsFrom_sublist (k : Nat) (content : Content) :
    (content.elementsFrom k).Sublist (content.nodesFrom k) := by
  induction content generalizing k with
  | nil => exact List.Sublist.refl _
  | text value rest ih => exact ih k
  | element name attributes inner rest _ ihrest =>
    exact List.Sublist.cons_cons _ ((ihrest _).trans (List.sublist_append_right _ _))

/-- What is inside an element is inside everything that the element is inside of. -/
theorem Content.descendants_sublist {k : Nat} {content : Content} {node : Node}
    (h : node ∈ content.nodesFrom k) : node.descendants.Sublist (content.nodesFrom k) := by
  induction content generalizing k with
  | nil => cases h
  | text value rest ih => exact ih h
  | element name attributes inner rest ihinner ihrest =>
    refine List.Sublist.cons _ ?_
    -- The node is the element itself, inside it or further on.
    rcases List.mem_cons.mp h with rfl | h
    · exact List.sublist_append_left _ _
    · rcases List.mem_append.mp h with h | h
      · exact (ihinner h).trans (List.sublist_append_left _ _)
      · exact (ihrest h).trans (List.sublist_append_right _ _)

namespace Node

theorem inOrder_descendants (node : Node) : InOrder node.descendants :=
  Content.inOrder_nodesFrom _ _

theorem children_sublist (node : Node) : node.children.Sublist node.descendants :=
  Content.elementsFrom_sublist _ _

/-- A step leads to elements inside the node, in their order. -/
theorem select_sublist (node : Node) (step : Step) :
    (node.select step).Sublist node.descendants := by
  refine List.filter_sublist.trans ?_
  cases step.axis with
  | child => exact node.children_sublist
  | descendant => exact List.Sublist.refl _

/-- What a step leads to stays below the node that the path started from. -/
theorem select_sublist_of_mem {start node : Node} (h : node ∈ start :: start.descendants)
    (step : Step) : (node.select step).Sublist start.descendants := by
  rcases List.mem_cons.mp h with rfl | h
  · exact node.select_sublist step
  · exact (node.select_sublist step).trans (Content.descendants_sublist h)

end Node

/-! ## Elements inside one another -/

/-- The numbers of the elements in content are those from the first one on, and no others. -/
theorem Content.number_lt_of_mem_nodesFrom {k : Nat} {content : Content} {node : Node}
    (h : node ∈ content.nodesFrom k) : k ≤ node.number ∧ node.number < k + content.size := by
  have hnumber : node.number ∈ (content.nodesFrom k).map Node.number := List.mem_map_of_mem h
  rw [map_number_nodesFrom] at hnumber
  exact List.mem_range'_1.mp hnumber

/-- No two elements have one number. -/
theorem Content.eq_of_number_eq {k : Nat} {content : Content} {a b : Node}
    (ha : a ∈ content.nodesFrom k) (hb : b ∈ content.nodesFrom k) (h : a.number = b.number) :
    a = b := by
  have hnodup : ((content.nodesFrom k).map Node.number).Nodup := by
    rw [map_number_nodesFrom]
    exact List.nodup_range'
  exact List.inj_on_of_nodup_map hnodup ha hb h

namespace Node

/-- What is inside a node has a greater number. -/
theorem number_lt_of_mem_descendants {node inner : Node} (h : inner ∈ node.descendants) :
    node.number < inner.number :=
  (Content.number_lt_of_mem_nodesFrom h).1

/-- **Of two elements the later one stands inside the earlier one or after all of it.** -/
theorem mem_descendants_or_lt {start first second : Node} (hfirst : first ∈ start.descendants)
    (hsecond : second ∈ start.descendants) (hlt : first.number < second.number) :
    second ∈ first.descendants ∨ ∀ inner ∈ first.descendants, inner.number < second.number := by
  by_cases hnear : second.number < first.number + 1 + first.content.size
  · left
    -- Every number in this range belongs to an element inside the first one.
    have hnumber : second.number ∈ first.descendants.map Node.number := by
      rw [descendants, Content.map_number_nodesFrom, List.mem_range'_1]
      exact ⟨hlt, hnear⟩
    obtain ⟨inner, hinner, heq⟩ := List.mem_map.mp hnumber
    have hsame : inner = second :=
      Content.eq_of_number_eq ((Content.descendants_sublist hfirst).subset hinner) hsecond heq
    exact hsame ▸ hinner
  · right
    intro inner hinner
    have hinside := (Content.number_lt_of_mem_nodesFrom hinner).2
    omega

end Node

/-! ## Elements side by side -/

/-- An element is one of those at the top or inside one of them. -/
theorem Content.mem_nodesFrom_iff {k : Nat} {content : Content} {node : Node} :
    node ∈ content.nodesFrom k ↔
      ∃ top ∈ content.elementsFrom k, node = top ∨ node ∈ top.descendants := by
  induction content generalizing k with
  | nil => simp [nodesFrom, elementsFrom]
  | text value rest ih => exact ih
  | element name attributes inner rest _ ihrest =>
    rw [nodesFrom, elementsFrom, List.mem_cons, List.mem_append, ihrest, List.exists_mem_cons_iff,
      or_assoc]
    exact Iff.rfl

/-- All that is inside an element comes before the next one at its side. -/
theorem Content.lt_of_mem_elementsFrom {k : Nat} {content : Content} {first second : Node}
    (hfirst : first ∈ content.elementsFrom k) (hsecond : second ∈ content.elementsFrom k)
    (hlt : first.number < second.number) :
    first.number + first.content.size < second.number := by
  induction content generalizing k with
  | nil => cases hfirst
  | text value rest ih => exact ih hfirst hsecond
  | element name attributes inner rest _ ihrest =>
    have hrest : ∀ node ∈ rest.elementsFrom (k + inner.size + 1),
        k + inner.size + 1 ≤ node.number := fun node hnode =>
      (number_lt_of_mem_nodesFrom ((elementsFrom_sublist _ rest).subset hnode)).1
    rcases List.mem_cons.mp hfirst with rfl | hfirst
    · rcases List.mem_cons.mp hsecond with rfl | hsecond
      · exact absurd hlt (Nat.lt_irrefl _)
      · exact hrest second hsecond
    · rcases List.mem_cons.mp hsecond with rfl | hsecond
      · have hafter := hrest first hfirst
        exact absurd hlt (by simp only; omega)
      · exact ihrest hfirst hsecond

namespace Node

/-- What is inside a node is a child of it or inside one of its children. -/
theorem mem_descendants_iff {node inner : Node} :
    inner ∈ node.descendants ↔
      ∃ child ∈ node.children, inner = child ∨ inner ∈ child.descendants :=
  Content.mem_nodesFrom_iff

/-- What is inside a child comes before the children after it. -/
theorem lt_of_mem_children {node first second inner : Node} (hfirst : first ∈ node.children)
    (hsecond : second ∈ node.children) (hlt : first.number < second.number)
    (hinner : inner ∈ first.descendants) : inner.number < second.number := by
  have hbefore := Content.lt_of_mem_elementsFrom hfirst hsecond hlt
  have hinside := (Content.number_lt_of_mem_nodesFrom hinner).2
  omega

/-- A child of a node is not the child of an element inside that node. -/
theorem not_mem_children_of_mem_descendants {outer inner child : Node}
    (hinner : inner ∈ outer.descendants) (hchild : child ∈ outer.children) :
    child ∉ inner.children := by
  intro hother
  have hbelow : child ∈ inner.descendants := inner.children_sublist.subset hother
  -- The inner element is inside some child of the outer one, and so is what it holds.
  obtain ⟨around, haround, hin⟩ := mem_descendants_iff.mp hinner
  have hinside : child ∈ around.descendants := by
    rcases hin with rfl | hin
    · exact hbelow
    · exact (Content.descendants_sublist hin).subset hbelow
  have hself := lt_of_mem_children haround hchild (number_lt_of_mem_descendants hinside) hinside
  exact Nat.lt_irrefl _ hself

/-- An element is not a child of two, of which one comes after the other. -/
theorem not_mem_children_of_lt {start first second child : Node}
    (hfirst : first ∈ start.descendants) (hsecond : second ∈ start.descendants)
    (hlt : first.number < second.number) (hchild : child ∈ first.children) :
    child ∉ second.children := by
  rcases mem_descendants_or_lt hfirst hsecond hlt with hnested | hafter
  · exact not_mem_children_of_mem_descendants hnested hchild
  · intro hother
    have hbelow : child ∈ second.descendants := second.children_sublist.subset hother
    have hchildlt := hafter child (first.children_sublist.subset hchild)
    exact Nat.lt_asymm hchildlt (number_lt_of_mem_descendants hbelow)

/-- **An element is the child of one element only.** -/
theorem eq_of_mem_children {start first second child : Node} (hfirst : first ∈ start.descendants)
    (hsecond : second ∈ start.descendants) (hchild : child ∈ first.children)
    (hother : child ∈ second.children) : first = second := by
  rcases Nat.lt_trichotomy first.number second.number with hlt | heq | hgt
  · exact absurd hother (not_mem_children_of_lt hfirst hsecond hlt hchild)
  · exact Content.eq_of_number_eq hfirst hsecond heq
  · exact absurd hchild (not_mem_children_of_lt hsecond hfirst hgt hother)

end Node

/-! ## Merging -/

/-- There is nothing to merge with no nodes. -/
@[simp] theorem mergeByNumber_nil_right (nodes : List Node) : mergeByNumber nodes [] = nodes := by
  induction nodes with
  | nil => rfl
  | cons node nodes ih => rw [mergeByNumber, List.takeWhile_nil, List.dropWhile_nil, ih]; rfl

/-- A node that comes before all of the first list comes out in front. -/
theorem mergeByNumber_cons_right {node : Node} {nodes : List Node} (others : List Node)
    (h : ∀ first ∈ nodes, node.number < first.number) :
    mergeByNumber nodes (node :: others) = node :: mergeByNumber nodes others := by
  cases nodes with
  | nil => rfl
  | cons first nodes =>
    have hlt : node.number < first.number := h first List.mem_cons_self
    rw [mergeByNumber, mergeByNumber, List.takeWhile_cons_of_pos (by simpa using hlt),
      List.dropWhile_cons_of_pos (by simpa using Nat.le_of_lt hlt)]
    rfl

/-- A node that comes before all of the second list stays in front. -/
theorem mergeByNumber_cons_left {node : Node} {nodes others : List Node}
    (h : ∀ other ∈ others, node.number < other.number) :
    mergeByNumber (node :: nodes) others = node :: mergeByNumber nodes others := by
  cases others with
  | nil => rw [mergeByNumber_nil_right, mergeByNumber_nil_right]
  | cons other others =>
    have hlt : node.number < other.number := h other List.mem_cons_self
    rw [mergeByNumber, List.takeWhile_cons_of_neg (by simpa using Nat.le_of_lt hlt),
      List.dropWhile_cons_of_neg (by simpa using hlt)]
    rfl

/-- A node that both lists start with is kept once. -/
theorem mergeByNumber_cons_cons {node : Node} {nodes others : List Node}
    (h : ∀ other ∈ others, node.number < other.number) :
    mergeByNumber (node :: nodes) (node :: others) = node :: mergeByNumber nodes others := by
  rw [← mergeByNumber_cons_left h, mergeByNumber, mergeByNumber,
    List.takeWhile_cons_of_neg (by simp), List.dropWhile_cons_of_pos (by simp)]
  cases others with
  | nil => rfl
  | cons other others =>
    have hlt : node.number < other.number := h other List.mem_cons_self
    rw [List.takeWhile_cons_of_neg (by simpa using Nat.le_of_lt hlt)]

/-- **Merging two parts of an ordered list keeps what is in either.**  The induction is
on the whole list; its first node comes before everything that is left to merge. -/
theorem mergeByNumber_filter {all : List Node} (h : InOrder all) (p q : Node → Bool) :
    mergeByNumber (all.filter p) (all.filter q) = all.filter fun node => p node || q node := by
  induction all with
  | nil => rfl
  | cons node rest ih =>
    obtain ⟨hnode, hrest⟩ := List.pairwise_cons.mp h
    have hfirst : ∀ (r : Node → Bool), ∀ other ∈ rest.filter r, node.number < other.number :=
      fun r other hother => hnode other (List.mem_of_mem_filter hother)
    rw [List.filter_cons, List.filter_cons, List.filter_cons, ← ih hrest]
    cases hp : p node with
    | true =>
      cases hq : q node with
      | true => exact mergeByNumber_cons_cons (hfirst q)
      | false => exact mergeByNumber_cons_left (hfirst q)
    | false =>
      cases hq : q node with
      | true => exact mergeByNumber_cons_right _ (hfirst p)
      | false => rfl

/-! ## What paths lead to -/

namespace Node

@[simp] theorem findAll_step (node : Node) (step : Step) :
    node.findAll ⟨[step]⟩ = node.select step :=
  mergeByNumber_nil_right _

/-- The last step of a path is taken from what the others lead to. -/
theorem findAll_steps_append (node : Node) (steps : List Step) (step : Step) :
    node.findAll ⟨steps ++ [step]⟩ = selectAll (node.findAll ⟨steps⟩) step := by
  unfold findAll
  rw [List.foldl_append, List.foldl_cons, List.foldl_nil]

/-- **A step from several nodes leads, in document order, to what it leads to from any
of them.** -/
theorem selectAll_eq_filter {start : Node} {nodes : List Node}
    (h : ∀ node ∈ nodes, node ∈ start :: start.descendants) (step : Step) :
    selectAll nodes step =
      start.descendants.filter fun reached => ∃ node ∈ nodes, reached ∈ node.select step := by
  induction nodes with
  | nil =>
    refine (List.filter_eq_nil_iff.mpr fun node _ => ?_).symm
    simp
  | cons node nodes ih =>
    obtain ⟨hnode, hnodes⟩ := List.forall_mem_cons.mp h
    -- What the first node leads to is itself a filter of the list, and so is the rest.
    have hselect := InOrder.eq_filter (select_sublist_of_mem hnode step) start.inOrder_descendants
    calc selectAll (node :: nodes) step
        = mergeByNumber (node.select step) (selectAll nodes step) := rfl
      _ = start.descendants.filter fun reached =>
            decide (reached ∈ node.select step) ||
              decide (∃ other ∈ nodes, reached ∈ other.select step) := by
          rw [ih hnodes]
          conv_lhs => rw [hselect]
          exact mergeByNumber_filter start.inOrder_descendants _ _
      _ = _ := by
          refine List.filter_congr fun reached _ => ?_
          simp

end Node

end AccessRights
