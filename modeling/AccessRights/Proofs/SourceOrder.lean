import AccessRights.Proofs.Arena
import AccessRights.Proofs.Reading

/-!
# A document is a tree in the order of its source

Numbers are not stored in a document; they follow from where an element stands.  This
module says that they are what a reader of the source would count: `read_inSourceOrder` has
all of it in one statement.

* A walk over the lists of children, each element before those inside it, meets the
  numbers from zero to the size of the document, one after the other
  (`Node.walk_eq`, `Document.map_number_walk`).  A stack may take the place of the recursion
  (`Node.collect_eq`).
* Every element is in the list of children of one node, once, and that node has a smaller
  number.
* The elements of a node's content are its children.
* The element with number `k` comes from the start tag or empty tag that is the `k`-th in
  the source (`Document.map_tag_elements`), however unbalanced the tags are.

Of a tree the first three hold because of how numbers are defined.  In an arena nothing is said of
an element but the handles in two lists, and there the same is a property of what the tokens leave
behind (`Arena.IsTree`).  It comes over from the document, whose cells these are
(`Arena.cells_ofTokens`).

## Places

Tokens do not know where they stand.  `ReadsAt` reads a text like `Reads` does and keeps
the place of each token's first character, and places increase along a text
(`ReadsAt.pairwise_lt`).  Since elements and the tags that start them are matched in order,
to compare the numbers of two elements is to compare the places of their tags.
-/

namespace AccessRights

open AccessRights.Markup AccessRights.Text

/-! ## The walk over the children -/

theorem Content.size_lt_of_mem_elementsFrom {k : Nat} {content : Content} {node : Node}
    (h : node ∈ content.elementsFrom k) : node.content.size < content.size := by
  induction content generalizing k with
  | nil => cases h
  | text value rest ih => exact ih h
  | element name attributes inner rest _ ihrest =>
    rw [Content.size_element]
    rcases List.mem_cons.mp h with rfl | h
    · show inner.size < _
      omega
    · have hrest := ihrest h
      omega

/-- The elements at any depth are those at the top, each with what is inside it. -/
theorem Content.nodesFrom_eq_flatMap (k : Nat) (content : Content) :
    content.nodesFrom k =
      (content.elementsFrom k).flatMap fun node => node :: node.descendants := by
  induction content generalizing k with
  | nil => rfl
  | text value rest ih => exact ih k
  | element name attributes inner rest _ ihrest =>
    rw [nodesFrom, elementsFrom, List.flatMap_cons, List.cons_append, ihrest]
    rfl

namespace Node

/-- There is less inside a child than inside its node. -/
theorem size_lt_of_mem_children {node child : Node} (h : child ∈ node.children) :
    child.content.size < node.content.size :=
  Content.size_lt_of_mem_elementsFrom h

/-- The node and all that is inside it, found by way of the lists of children alone: each
element before its children, these one after the other. -/
def walk (node : Node) : List Node :=
  node :: node.children.attach.flatMap fun child => child.1.walk
termination_by node.content.size
decreasing_by exact size_lt_of_mem_children child.2

/-- **The walk meets the node and what is inside it, in document order.** -/
theorem walk_eq (node : Node) : node.walk = node :: node.descendants := by
  induction node using walk.induct with
  | case1 node ih =>
    have hinside : (node.children.attach.flatMap fun child => child.1.walk) =
        node.descendants := by
      calc (node.children.attach.flatMap fun child => child.1.walk)
          = node.children.attach.flatMap fun child => child.1 :: child.1.descendants :=
            List.flatMap_congr fun child _ => ih child
        _ = (node.children.attach.map Subtype.val).flatMap fun child =>
              child :: child.descendants := by
            rw [List.flatMap_map]
        _ = node.descendants := by
            rw [List.attach_map_subtype_val, descendants, Content.nodesFrom_eq_flatMap]
            rfl
    rw [walk, hinside]

end Node

/-! ## The walk by a stack -/

/-- Items go on top of a stack one after the other, so that the last of them comes off first. -/
def pushAll {α : Type} (stack items : List α) : List α :=
  items.foldl (fun stack item => item :: stack) stack

/-- Items that are pushed from the last one to the first come off in their order. -/
theorem pushAll_reverse {α : Type} (stack items : List α) :
    pushAll stack items.reverse = items ++ stack := by
  simp [pushAll, List.foldl_reverse]

namespace Node

/-- The number of nodes that come with any of these, themselves included. -/
def countAll : List Node → Nat
  | [] => 0
  | node :: nodes => node.content.size + 1 + countAll nodes

theorem countAll_append (nodes later : List Node) :
    countAll (nodes ++ later) = countAll nodes + countAll later := by
  induction nodes with
  | nil => simp [countAll]
  | cons node nodes ih => simp [countAll, ih, Nat.add_assoc]

/-- The children of a node come with all that is inside it. -/
theorem countAll_children (node : Node) : countAll node.children = node.content.size := by
  have hcontent : ∀ (k : Nat) (content : Content),
      countAll (content.elementsFrom k) = content.size := by
    intro k content
    induction content generalizing k with
    | nil => rfl
    | text value rest ih => exact ih k
    | element name attributes inner rest _ ihrest =>
      rw [Content.elementsFrom, countAll, ihrest, Content.size_element]
      exact Nat.add_right_comm _ _ _
  exact hcontent _ _

/-- Takes node after node off the stack.  A node is kept behind those found if it is to be kept,
and its children come in its place. -/
def collect (keep : Node → Bool) : List Node → List Node → List Node
  | [], found => found
  | node :: stack, found =>
    collect keep (pushAll stack node.children.reverse)
      (if keep node then found ++ [node] else found)
termination_by stack => countAll stack
decreasing_by
  rw [pushAll_reverse, countAll_append, countAll_children, countAll]
  omega

/-- What is inside a node is what walking its children meets. -/
theorem flatMap_walk_children (node : Node) : node.children.flatMap walk = node.descendants := by
  rw [descendants, Content.nodesFrom_eq_flatMap]
  exact List.flatMap_congr fun child _ => walk_eq child

/-- **The loop walks what is on the stack**, node after node. -/
theorem collect_eq (keep : Node → Bool) (stack found : List Node) :
    collect keep stack found = found ++ (stack.flatMap walk).filter keep := by
  induction stack, found using collect.induct keep with
  | case1 found => rw [collect, List.flatMap_nil, List.filter_nil, List.append_nil]
  | case2 node stack found ih =>
    rw [dite_eq_ite] at ih
    rw [collect, ih, pushAll_reverse, List.flatMap_append, flatMap_walk_children,
      List.flatMap_cons, walk_eq, List.cons_append, List.filter_cons]
    split
    · rw [List.append_assoc, List.singleton_append]
    · rfl

/-- Of what is inside a node the loop finds what is to be kept, behind what was found before. -/
theorem collect_children (keep : Node → Bool) (node : Node) (found : List Node) :
    collect keep (pushAll [] node.children.reverse) found =
      found ++ node.descendants.filter keep := by
  rw [collect_eq, pushAll_reverse, List.append_nil, flatMap_walk_children]

/-- Whatever is inside a node is a child of the node or of an element inside it. -/
theorem exists_mem_children_of_mem_descendants {node inner : Node}
    (h : inner ∈ node.descendants) :
    ∃ parent ∈ node :: node.descendants, inner ∈ parent.children := by
  induction node using walk.induct with
  | case1 node ih =>
    obtain ⟨child, hchild, hin⟩ := mem_descendants_iff.mp h
    rcases hin with rfl | hin
    · exact ⟨node, List.mem_cons_self, hchild⟩
    · obtain ⟨parent, hparent, hinner⟩ := ih ⟨child, hchild⟩ hin
      refine ⟨parent, List.mem_cons_of_mem _ (mem_descendants_iff.mpr ⟨child, hchild, ?_⟩), hinner⟩
      exact List.mem_cons.mp hparent

/-- No two nodes share a child. -/
theorem eq_of_mem_children_of_mem {start first second child : Node}
    (hfirst : first ∈ start :: start.descendants) (hsecond : second ∈ start :: start.descendants)
    (hchild : child ∈ first.children) (hother : child ∈ second.children) : first = second := by
  rcases List.mem_cons.mp hfirst with rfl | hfirst
  · rcases List.mem_cons.mp hsecond with rfl | hsecond
    · rfl
    · exact absurd hother (not_mem_children_of_mem_descendants hsecond hchild)
  · rcases List.mem_cons.mp hsecond with rfl | hsecond
    · exact absurd hchild (not_mem_children_of_mem_descendants hfirst hother)
    · exact eq_of_mem_children hfirst hsecond hchild hother

/-- No node is the child of another one twice. -/
theorem count_children {node child : Node} (h : child ∈ node.children) :
    node.children.count child = 1 :=
  List.count_eq_one_of_mem (InOrder.sublist node.children_sublist node.inOrder_descendants).nodup h

/-- The name and the attributes, which come from the tag. -/
def tag (node : Node) : String × List (String × String) :=
  (node.name, node.attributes)

end Node

namespace Document

/-- A document that is read is built from the tokens of the text. -/
theorem exists_tokens_of_read {text : String} {document : Document}
    (h : read text = .ok document) : ∃ ts, tokens text = .ok ts ∧ document = ofTokens ts := by
  rw [read] at h
  cases hread : tokens text with
  | error problem =>
    rw [hread] at h
    cases h
  | ok ts =>
    rw [hread] at h
    cases h
    exact ⟨ts, rfl, rfl⟩

/-- The numbers of a document are those from zero to its size. -/
theorem map_number_nodes (document : Document) :
    (document.root :: document.elements).map Node.number = List.range (document.size + 1) := by
  rw [List.map_cons, elements, Node.descendants, Content.map_number_nodesFrom,
    List.range_eq_range', List.range'_succ]
  rfl

/-- **The walk over a document meets all numbers in order.** -/
theorem map_number_walk (document : Document) :
    document.root.walk.map Node.number = List.range (document.size + 1) := by
  rw [Node.walk_eq]
  exact document.map_number_nodes

/-- What is inside a node of a document is an element of it. -/
theorem mem_elements_of_mem_descendants {document : Document} {node inner : Node}
    (hnode : node ∈ document.root :: document.elements) (hinner : inner ∈ node.descendants) :
    inner ∈ document.elements := by
  rcases List.mem_cons.mp hnode with rfl | hnode
  · exact hinner
  · exact (Content.descendants_sublist hnode).subset hinner

/-- **Every element is the child of one node, which has a smaller number.** -/
theorem exists_parent (document : Document) {element : Node}
    (h : element ∈ document.elements) :
    ∃ parent ∈ document.root :: document.elements,
      parent.number < element.number ∧ parent.children.count element = 1 ∧
        ∀ other ∈ document.root :: document.elements,
          element ∈ other.children → other = parent := by
  obtain ⟨parent, hparent, hchild⟩ := Node.exists_mem_children_of_mem_descendants h
  refine ⟨parent, hparent, ?_, Node.count_children hchild, ?_⟩
  · exact Node.number_lt_of_mem_descendants (parent.children_sublist.subset hchild)
  · intro other hother hmem
    exact Node.eq_of_mem_children_of_mem hother hparent hmem hchild

/-- **Elements come in the order of the tags that start them**, balanced or not. -/
theorem map_tag_elements (tokens : List Token) :
    (ofTokens tokens).elements.map Node.tag = tokens.filterMap Token.opening? := by
  obtain ⟨content, hspells, hcontent⟩ := exists_spells_repair tokens
  have helements : (ofTokens tokens).elements.map Node.element = content.allElements := by
    rw [elements, Node.map_element_descendants]
    show (Content.ofTokens tokens).allElements = _
    rw [hcontent, content.allElements_withoutOuterText]
  calc (ofTokens tokens).elements.map Node.tag
      = ((ofTokens tokens).elements.map Node.element).map
          fun element => (element.name, element.attributes) := by
        rw [List.map_map]
        rfl
    _ = (repair tokens).filterMap Token.opening? := by
        rw [helements, hspells.map_tag_allElements]
    _ = tokens.filterMap Token.opening? :=
        Token.filterMap_opening?_of_filter_eq (filter_repairFrom [] tokens)

end Document

/-! ## The cells of a document -/

namespace Document

variable {document : Document}

/-- A node that is found by a number has that number. -/
theorem number_of_node?_eq {k : Nat} {node : Node} (h : document.node? k = some node) :
    node.number = k := by
  have hnumber : ((document.root :: document.elements).map Node.number)[k]? =
      some node.number := by
    rw [List.getElem?_map]
    exact congrArg (Option.map Node.number) h
  rw [map_number_nodes] at hnumber
  obtain ⟨_, hrange⟩ := List.getElem?_eq_some_iff.mp hnumber
  rw [← hrange, List.getElem_range]

/-- A node is found again by its number. -/
theorem node?_number {node : Node} (h : node ∈ document.root :: document.elements) :
    document.node? node.number = some node := by
  obtain ⟨k, hk⟩ := List.getElem?_of_mem h
  have hnode : document.node? k = some node := hk
  rw [number_of_node?_eq hnode, hnode]

theorem getElem?_cells (document : Document) (k : Nat) :
    document.cells[k]? = (document.node? k).map Node.cell :=
  List.getElem?_map

/-- Every cell of a document is that of the node with its place as number. -/
theorem exists_of_getElem?_cells {k : Nat} {cell : Cell} (h : document.cells[k]? = some cell) :
    ∃ node ∈ document.root :: document.elements, node.number = k ∧ node.cell = cell := by
  rw [getElem?_cells, Option.map_eq_some_iff] at h
  obtain ⟨node, hnode, rfl⟩ := h
  exact ⟨node, List.mem_of_getElem? hnode, number_of_node?_eq hnode, rfl⟩

end Document

namespace Arena

/-- The children of the element with a handle. -/
def childrenOf (arena : Arena) (handle : Nat) : List Nat :=
  (arena.cells[handle]?.map Cell.children).getD []

/-- The element with a handle and those inside it, up to a depth, found by way of the lists of
children: each element before its children, these one after the other. -/
def walk (arena : Arena) : Nat → Nat → List Nat
  | 0, handle => [handle]
  | depth + 1, handle => handle :: (arena.childrenOf handle).flatMap (arena.walk depth)

/-- The cells of an arena make up a tree, and handles are given in its order. -/
structure IsTree (arena : Arena) : Prop where
  /-- The walk from the document meets all handles in order. -/
  walk : ∀ depth, arena.cells.length ≤ depth →
    arena.walk depth 0 = List.range arena.cells.length
  /-- Every element is the child of one element, which has a smaller handle. -/
  parent : ∀ handle, 0 < handle → handle < arena.cells.length →
    ∃ parent < handle, (arena.childrenOf parent).count handle = 1 ∧
      ∀ other, handle ∈ arena.childrenOf other → other = parent
  /-- The elements among the items of a cell are its children. -/
  items : ∀ cell ∈ arena.cells, cell.items.filterMap CellItem.handle? = cell.children

section Tree

variable {arena : Arena} {document : Document}

/-- In an arena with the cells of a document the children of a handle are those of the node. -/
theorem childrenOf_number (h : arena.cells = document.cells) {node : Node}
    (hnode : node ∈ document.root :: document.elements) :
    arena.childrenOf node.number = node.children.map Node.number := by
  rw [childrenOf, h, Document.getElem?_cells, Document.node?_number hnode]
  rfl

/-- Whatever is a child there is a child of some node. -/
theorem exists_of_mem_childrenOf (h : arena.cells = document.cells) {handle other : Nat}
    (hmem : handle ∈ arena.childrenOf other) :
    ∃ node ∈ document.root :: document.elements, node.number = other ∧
      ∃ child ∈ node.children, child.number = handle := by
  rw [childrenOf, h] at hmem
  cases hcell : document.cells[other]? with
  | none =>
    rw [hcell] at hmem
    cases hmem
  | some cell =>
    rw [hcell] at hmem
    obtain ⟨node, hnode, hnumber, rfl⟩ := Document.exists_of_getElem?_cells hcell
    exact ⟨node, hnode, hnumber, List.mem_map.mp hmem⟩

/-- Handles are walked as nodes are. -/
theorem walk_number (h : arena.cells = document.cells) {depth : Nat} {node : Node}
    (hnode : node ∈ document.root :: document.elements) (hdepth : node.content.size ≤ depth) :
    arena.walk depth node.number = node.walk.map Node.number := by
  induction depth generalizing node with
  | zero =>
    have hnone : node.descendants = [] := by
      apply List.eq_nil_of_length_eq_zero
      rw [Node.descendants, Content.length_nodesFrom]
      exact Nat.le_zero.mp hdepth
    rw [Node.walk_eq, hnone]
    rfl
  | succ depth ih =>
    have hchild : ∀ child ∈ node.children,
        arena.walk depth child.number = child.walk.map Node.number := by
      intro child hchild
      have helement := Document.mem_elements_of_mem_descendants hnode
        (node.children_sublist.subset hchild)
      have hsize := Node.size_lt_of_mem_children hchild
      exact ih (List.mem_cons_of_mem _ helement) (by omega)
    rw [walk, childrenOf_number h hnode, List.flatMap_map, List.flatMap_congr hchild,
      ← List.map_flatMap, Node.flatMap_walk_children, Node.walk_eq, List.map_cons]

/-- **An arena with the cells of a document is a tree.** -/
theorem isTree_of_cells_eq (h : arena.cells = document.cells) : arena.IsTree where
  walk := by
    intro depth hdepth
    have hlength : arena.cells.length = document.size + 1 := by
      rw [h, Document.cells, List.length_map, List.length_cons, Document.elements,
        Node.descendants, Content.length_nodesFrom]
      rfl
    have hsize : document.root.content.size ≤ depth := by
      show document.size ≤ depth
      omega
    rw [hlength, ← document.map_number_walk]
    exact walk_number h List.mem_cons_self hsize
  parent := by
    intro handle hpos hlt
    have hcell : document.cells[handle]? = some arena.cells[handle] := by
      rw [← h]
      exact List.getElem?_eq_getElem hlt
    obtain ⟨element, hmem, rfl, -⟩ := Document.exists_of_getElem?_cells hcell
    have helement : element ∈ document.elements := by
      rcases List.mem_cons.mp hmem with rfl | helement
      · exact absurd hpos (Nat.lt_irrefl 0)
      · exact helement
    obtain ⟨parent, hparent, hless, hcount, honly⟩ := document.exists_parent helement
    have hchild : element ∈ parent.children := List.count_pos_iff.mp (by omega)
    refine ⟨parent.number, hless, ?_, ?_⟩
    · have hnodup : (parent.children.map Node.number).Nodup :=
        List.pairwise_map.mpr ((InOrder.sublist parent.children_sublist
          parent.inOrder_descendants).imp Nat.ne_of_lt)
      rw [childrenOf_number h hparent]
      exact List.count_eq_one_of_mem hnodup (List.mem_map_of_mem hchild)
    · intro other hother
      obtain ⟨node, hnode, rfl, child, hin, hnumber⟩ := exists_of_mem_childrenOf h hother
      have hsame : child = element :=
        Content.eq_of_number_eq (Document.mem_elements_of_mem_descendants hnode
          (node.children_sublist.subset hin)) helement hnumber
      rw [honly node hnode (hsame ▸ hin)]
  items := by
    intro cell hcell
    rw [h] at hcell
    obtain ⟨node, -, rfl⟩ := List.mem_map.mp hcell
    exact node.filterMap_items_cell

end Tree

end Arena

/-! ## Places in the source -/

namespace Markup

/-- The text, which starts at the given place, is read as the tokens.  Each token comes with
the place of its first character. -/
inductive ReadsAt : Nat → List Char → List (Nat × Token) → Prop
  | nil {place : Nat} : ReadsAt place [] []
  | markup {place : Nat} {kind : Kind} {rest content after : List Char} {here : List Token}
    {later : List (Nat × Token)} :
    Kind.of? rest = some kind → kind.split rest = some (content, after) →
      (∀ position, kind.tokens position content = .ok here) →
      ReadsAt (place + utf8Length content + 2) after later →
      ReadsAt place ('<' :: rest) (here.map (place, ·) ++ later)
  | run {place : Nat} {c : Char} {rest : List Char} {later : List (Nat × Token)} :
    c ≠ '<' →
      ReadsAt (place + utf8Length (c :: rest.takeWhile (· != '<'))) (rest.dropWhile (· != '<'))
        later →
      ReadsAt place (c :: rest)
        ((place, .text (resolved (c :: rest.takeWhile (· != '<')))) :: later)

/-- Every token has a place. -/
theorem Reads.exists_readsAt {cs : List Char} {tokens : List Token} (h : Reads cs tokens)
    (place : Nat) : ∃ placed, ReadsAt place cs placed ∧ placed.map Prod.snd = tokens := by
  induction h generalizing place with
  | nil => exact ⟨[], .nil, rfl⟩
  | @markup kind rest content after here later hkind hsplit hhere _ ih =>
    obtain ⟨placed, hplaced, rfl⟩ := ih (place + utf8Length content + 2)
    refine ⟨_, .markup hkind hsplit hhere hplaced, ?_⟩
    rw [List.map_append, List.map_map]
    exact congrArg (· ++ _) (List.map_id here)
  | run hc _ ih =>
    obtain ⟨placed, hplaced, rfl⟩ := ih _
    exact ⟨_, .run hc hplaced, rfl⟩

/-- A piece of markup is one token at most. -/
theorem Kind.length_tokens_le {kind : Kind} {position : Nat} {content : List Char}
    {here : List Token} (h : kind.tokens position content = .ok here) : here.length ≤ 1 := by
  cases kind with
  | startTag =>
    rw [tokens] at h
    split at h <;> cases h
    exact Nat.le_refl 1
  | endTag =>
    cases h
    exact Nat.le_refl 1
  | instruction | comment =>
    rw [tokens] at h
    split at h <;> cases h
    exact Nat.zero_le 1
  | characterData =>
    rw [tokens] at h
    split at h <;> cases h
    exact Nat.le_refl 1
  | doctype =>
    rw [tokens] at h
    split at h
    · split at h <;> cases h
      exact Nat.zero_le 1
    · cases h

namespace ReadsAt

variable {place : Nat} {cs : List Char} {placed : List (Nat × Token)}

/-- Nothing stands before the start of the text. -/
theorem le_of_mem (h : ReadsAt place cs placed) : ∀ one ∈ placed, place ≤ one.1 := by
  induction h with
  | nil => exact fun _ hone => absurd hone List.not_mem_nil
  | markup _ _ _ _ ih =>
    intro one hone
    rcases List.mem_append.mp hone with hone | hone
    · obtain ⟨token, -, rfl⟩ := List.mem_map.mp hone
      exact Nat.le_refl _
    · have hlater := ih one hone
      omega
  | run _ _ ih =>
    intro one hone
    rcases List.mem_cons.mp hone with rfl | hone
    · exact Nat.le_refl _
    · have hlater := ih one hone
      omega

/-- **Places increase along the text.**  A piece of markup takes two characters at least and
a run of text one, so that what follows stands further on. -/
theorem pairwise_lt (h : ReadsAt place cs placed) :
    placed.Pairwise fun one other => one.1 < other.1 := by
  induction h with
  | nil => exact List.Pairwise.nil
  | @markup place kind rest content after here later _ _ hhere hafter ih =>
    refine List.pairwise_append.mpr ⟨?_, ih, ?_⟩
    · match here, Kind.length_tokens_le (hhere 0) with
      | [], _ => exact List.Pairwise.nil
      | [token], _ => exact List.pairwise_singleton _ _
    · intro one hone other hother
      obtain ⟨token, -, rfl⟩ := List.mem_map.mp hone
      have hlater := hafter.le_of_mem other hother
      show place < other.1
      omega
  | @run place c rest later _ hafter ih =>
    refine List.pairwise_cons.mpr ⟨?_, ih⟩
    intro other hother
    have hlater := hafter.le_of_mem other hother
    have hsize := c.utf8Size_pos
    rw [utf8Length_cons] at hlater
    show place < other.1
    omega

end ReadsAt

/-- The tags among the tokens that start an element, each with its place, the name and the
attributes. -/
def openings (placed : List (Nat × Token)) : List (Nat × String × List (String × String)) :=
  placed.filterMap fun one => one.2.opening?.map (one.1, ·)

/-- Without their places, these are the tags among the tokens. -/
theorem map_snd_openings (placed : List (Nat × Token)) :
    (openings placed).map Prod.snd = (placed.map Prod.snd).filterMap Token.opening? := by
  rw [openings, List.map_filterMap, List.filterMap_map]
  refine List.filterMap_congr fun one _ => ?_
  rw [Option.map_map]
  exact Option.map_id'

/-- Their places increase as those of all tokens do. -/
theorem pairwise_lt_openings {placed : List (Nat × Token)}
    (h : placed.Pairwise fun one other => one.1 < other.1) :
    (openings placed).Pairwise fun one other => one.1 < other.1 := by
  refine List.Pairwise.filterMap _ ?_ h
  intro one other hlt opening hopening opening' hopening'
  obtain ⟨-, -, rfl⟩ := Option.map_eq_some_iff.mp hopening
  obtain ⟨-, -, rfl⟩ := Option.map_eq_some_iff.mp hopening'
  exact hlt

end Markup

/-- Where two lists increase, one by numbers and one by places, pairs increase by both. -/
theorem lt_iff_lt_of_mem_zip {β : Type} {nodes : List Node} {places : List (Nat × β)}
    (hnodes : InOrder nodes) (hplaces : places.Pairwise fun one other => one.1 < other.1)
    {first second : Node × Nat × β} (hfirst : first ∈ nodes.zip places)
    (hsecond : second ∈ nodes.zip places) :
    first.1.number < second.1.number ↔ first.2.1 < second.2.1 := by
  induction nodes generalizing places with
  | nil => cases hfirst
  | cons node nodes ih =>
    cases places with
    | nil => cases hfirst
    | cons place places =>
      obtain ⟨hnode, hnodes⟩ := List.pairwise_cons.mp hnodes
      obtain ⟨hplace, hplaces⟩ := List.pairwise_cons.mp hplaces
      -- Of two pairs one comes first, and is smaller in both respects.
      have hbelow : ∀ pair ∈ nodes.zip places, node.number < pair.1.number ∧ place.1 < pair.2.1 :=
        fun pair hpair => ⟨hnode _ (List.of_mem_zip hpair).1, hplace _ (List.of_mem_zip hpair).2⟩
      rcases List.mem_cons.mp hfirst with rfl | hfirst
      · rcases List.mem_cons.mp hsecond with rfl | hsecond
        · exact iff_of_false (Nat.lt_irrefl _) (Nat.lt_irrefl _)
        · exact iff_of_true (hbelow _ hsecond).1 (hbelow _ hsecond).2
      · rcases List.mem_cons.mp hsecond with rfl | hsecond
        · have hafter := hbelow _ hfirst
          exact iff_of_false (Nat.lt_asymm hafter.1) (Nat.lt_asymm hafter.2)
        · exact ih hnodes hplaces hfirst hsecond

/-- **A document that is read from a text is a tree numbered in the order of the text.**  An
arena that takes in the tokens of the text has the cells of the document, and its handles make up
the same tree. -/
theorem read_inSourceOrder {text : String} {document : Document}
    (h : Document.read text = .ok document) :
    document.root.walk.map Node.number = List.range (document.size + 1) ∧
      (∀ element ∈ document.elements, ∃ parent ∈ document.root :: document.elements,
        parent.number < element.number ∧ parent.children.count element = 1 ∧
          ∀ other ∈ document.root :: document.elements,
            element ∈ other.children → other = parent) ∧
      (∀ node ∈ document.root :: document.elements,
        node.children.map Node.element = node.content.topElements) ∧
      ∃ placed, ReadsAt 0 (dropByteOrderMark text.toList) placed ∧
        tokens text = .ok (placed.map Prod.snd) ∧
        (Arena.ofTokens (placed.map Prod.snd)).cells = document.cells ∧
        (Arena.ofTokens (placed.map Prod.snd)).IsTree ∧
        document.elements.map Node.tag = (openings placed).map Prod.snd ∧
        ∀ first ∈ document.elements.zip (openings placed),
          ∀ second ∈ document.elements.zip (openings placed),
            (first.1.number < second.1.number ↔ first.2.1 < second.2.1) := by
  obtain ⟨ts, htokens, rfl⟩ := Document.exists_tokens_of_read h
  obtain ⟨placed, hplaced, rfl⟩ := (tokensFrom_eq_ok_iff.mp htokens).exists_readsAt 0
  have hcells := Arena.cells_ofTokens (placed.map Prod.snd)
  refine ⟨Document.map_number_walk _, fun element => Document.exists_parent _,
    fun node _ => node.map_element_children, placed, hplaced, htokens, hcells,
    Arena.isTree_of_cells_eq hcells, ?_, ?_⟩
  · rw [Document.map_tag_elements, map_snd_openings]
  · intro first hfirst second hsecond
    exact lt_iff_lt_of_mem_zip (Node.inOrder_descendants _)
      (pairwise_lt_openings hplaced.pairwise_lt) hfirst hsecond

/-- An end tag that closes two elements, one that closes nothing, and an element that is not
closed. -/
def crossing : String :=
  "<a>é<b></c><x:d/></a><e k='1'>"

theorem read_inSourceOrder_crossing : ∃ document placed,
    Document.read crossing = .ok document ∧
      document.root.walk.map Node.number = [0, 1, 2, 3, 4] ∧
      ReadsAt 0 crossing.toList placed ∧
      (Arena.ofTokens (placed.map Prod.snd)).cells =
        [⟨"", [], [.element 1, .element 4], [1, 4]⟩, ⟨"a", [], [.run "é", .element 2], [2]⟩,
          ⟨"b", [], [.element 3], [3]⟩, ⟨"d", [], [], []⟩, ⟨"e", [("k", "1")], [], []⟩] ∧
      (openings placed).map Prod.snd = [("a", []), ("b", []), ("d", []), ("e", [("k", "1")])] := by
  have hread : Document.read crossing = .ok ⟨.element "a" [] (.text "é" (.element "b" []
      (.element "d" [] .nil .nil) .nil)) (.element "e" [("k", "1")] .nil .nil)⟩ := by
    decide +kernel
  obtain ⟨hwalk, -, -, placed, hplaced, -, hcells, -, htags, -⟩ := read_inSourceOrder hread
  exact ⟨_, placed, hread, hwalk, hplaced, hcells, htags.symm⟩

end AccessRights
