import AccessRights.Proofs.Repair

/-!
# Documents in an arena

A document is a tree, and the number of an element follows from where it stands.  The other way
to keep a document is an arena.  It has a cell for every element, in the order in which they were
met, and a cell is known by its place among them, its handle.  What stands inside an element is
written into its cell as handles, and in two lists: among the items, together with runs of text,
and among the children.

`Arena.cells_ofTokens` says that both ways keep the same.  An arena that takes in token after
token has, in the end, the cells of the document that the tokens describe: handles are numbers,
and each cell has what is right inside the node of that number.

## What carries the argument

Cells are only written at two places, the end of the arena and the cell of the innermost element
that is open.  Over balanced tokens it is therefore enough to say what is added there, for any
arena to start with (`Spells.foldl_push_arena`).  An end tag writes nothing at all, and an arena
recovers from tags that do not match (`Arena.recovers`), so that any other tokens can be put right
first.
-/

namespace AccessRights

open AccessRights.Markup

/-! ## What a node holds, item by item -/

/-- An item of what a node holds. -/
inductive Item
  | run (value : String)
  | element (node : Node)

/-- The items at the top of some content, its elements numbered from `k`. -/
def Content.itemsFrom (k : Nat) : Content → List Item
  | nil => []
  | text value rest => .run value :: rest.itemsFrom k
  | element name attributes inner rest =>
    .element ⟨k, name, attributes, inner⟩ :: rest.itemsFrom (k + inner.size + 1)

/-- The items right inside a node. -/
def Node.items (node : Node) : List Item :=
  node.content.itemsFrom (node.number + 1)

namespace Item

/-- The element that the item is, if it is one. -/
def node? : Item → Option Node
  | run _ => none
  | element node => some node

end Item

theorem Content.filterMap_node?_itemsFrom (k : Nat) (content : Content) :
    (content.itemsFrom k).filterMap Item.node? = content.elementsFrom k := by
  induction content generalizing k with
  | nil => rfl
  | text value rest ih => exact ih k
  | element name attributes inner rest _ ihrest => exact congrArg (_ :: ·) (ihrest _)

/-- The elements among the items of a node are its children. -/
theorem Node.filterMap_node?_items (node : Node) :
    node.items.filterMap Item.node? = node.children :=
  Content.filterMap_node?_itemsFrom _ _

theorem Content.length_nodesFrom (k : Nat) (content : Content) :
    (content.nodesFrom k).length = content.size := by
  rw [← List.length_map Node.number, map_number_nodesFrom, List.length_range']

/-! ## Cells -/

/-- An item of what a cell holds.  An element is known by its handle. -/
inductive CellItem
  | run (value : String)
  | element (handle : Nat)
  deriving DecidableEq

/-- The handle of the element that the item is, if it is one. -/
def CellItem.handle? : CellItem → Option Nat
  | run _ => none
  | element handle => some handle

/-- The item with a handle instead of the element. -/
def Item.inCell : Item → CellItem
  | run value => .run value
  | element node => .element node.number

/-- An element in an arena. -/
structure Cell where
  name : String
  attributes : List (String × String)
  items : List CellItem
  children : List Nat
  deriving DecidableEq

namespace Cell

/-- The cell of an element of which nothing but the start tag has been met. -/
def fresh (name : String) (attributes : List (String × String)) : Cell :=
  ⟨name, attributes, [], []⟩

/-- The cell with one more element inside. -/
def addChild (handle : Nat) (cell : Cell) : Cell :=
  { cell with items := cell.items ++ [.element handle], children := cell.children ++ [handle] }

/-- The cell with one more run inside. -/
def addRun (value : String) (cell : Cell) : Cell :=
  { cell with items := cell.items ++ [.run value] }

/-- The cell with some content inside, behind what is there.  Elements have handles from `k`. -/
def addContent (k : Nat) (content : Content) (cell : Cell) : Cell :=
  { cell with
    items := cell.items ++ (content.itemsFrom k).map Item.inCell
    children := cell.children ++ (content.elementsFrom k).map Node.number }

theorem addContent_nil (k : Nat) : addContent k .nil = id := by
  funext cell
  simp [addContent, Content.itemsFrom, Content.elementsFrom]

/-- Content with a run in front is taken in by itself after the run. -/
theorem addContent_comp_addRun (k : Nat) (value : String) (rest : Content) :
    addContent k rest ∘ addRun value = addContent k (.text value rest) := by
  funext cell
  simp [addContent, addRun, Content.itemsFrom, Item.inCell, Content.elementsFrom]

/-- And content with an element in front after the element, whose number says where the rest
starts. -/
theorem addContent_comp_addChild (k : Nat) (name : String) (attributes : List (String × String))
    (inner rest : Content) :
    addContent (k + inner.size + 1) rest ∘ addChild k =
      addContent k (.element name attributes inner rest) := by
  funext cell
  simp [addContent, addChild, Content.itemsFrom, Item.inCell, Content.elementsFrom]

end Cell

/-- The cell of a node. -/
def Node.cell (node : Node) : Cell :=
  ⟨node.name, node.attributes, node.items.map Item.inCell,
    node.children.map Node.number⟩

/-- The items of the cell and its children name the same elements, in the same order. -/
theorem Node.filterMap_items_cell (node : Node) :
    node.cell.items.filterMap CellItem.handle? = node.cell.children := by
  have hhandle : CellItem.handle? ∘ Item.inCell = fun item => item.node?.map Node.number := by
    funext item
    cases item <;> rfl
  calc (node.items.map Item.inCell).filterMap CellItem.handle?
      = node.items.filterMap fun item => item.node?.map Node.number := by
        rw [List.filterMap_map, hhandle]
    _ = (node.items.filterMap Item.node?).map Node.number := List.map_filterMap.symm
    _ = node.children.map Node.number := by rw [node.filterMap_node?_items]

/-- The cells of a document, that of the document itself first. -/
def Document.cells (document : Document) : List Cell :=
  (document.root :: document.elements).map Node.cell

/-! ## Growing an arena -/

/-- The cells met so far, and the handles of the elements that are open, innermost first.  The
document itself has the handle zero and is always open. -/
@[ext] structure Arena where
  cells : List Cell
  opened : List Nat
  lt_length : ∀ handle ∈ 0 :: opened, handle < cells.length

/-- What is changed in front leaves alone what is behind. -/
theorem modify_append_of_lt {α : Type} (change : α → α) {front : List α} (back : List α) {i : Nat}
    (hlt : i < front.length) :
    (front ++ back).modify i change = front.modify i change ++ back := by
  induction front generalizing i with
  | nil => cases hlt
  | cons one front ih =>
    cases i with
    | zero => rfl
    | succ i => exact congrArg (one :: ·) (ih (Nat.lt_of_succ_lt_succ hlt))

/-- And the item between the two is the one at the length of the front. -/
theorem modify_append_length {α : Type} (change : α → α) (front : List α) (one : α)
    (back : List α) :
    (front ++ one :: back).modify front.length change = front ++ change one :: back := by
  rw [List.modify_eq_take_drop, List.take_left, List.drop_left]
  rfl

namespace Arena

/-- Nothing met but the document. -/
def start : Arena where
  cells := [.fresh "" []]
  opened := []
  lt_length := by simp

section Steps

variable (arena : Arena)

/-- The handle of the innermost element that is open, or that of the document. -/
def innermost : Nat :=
  arena.opened.headD 0

theorem innermost_lt : arena.innermost < arena.cells.length := by
  apply arena.lt_length
  unfold innermost
  cases arena.opened with
  | nil => exact List.mem_cons_self
  | cons handle outer => exact List.mem_cons_of_mem _ List.mem_cons_self

/-- The name of the element with a handle. -/
def nameOf (handle : Nat) : String :=
  (arena.cells[handle]?.map Cell.name).getD ""

/-- The names of the elements that are open. -/
def names : List String :=
  arena.opened.map arena.nameOf

/-- Writes into the cell of the innermost element. -/
def write (change : Cell → Cell) : Arena where
  cells := arena.cells.modify arena.innermost change
  opened := arena.opened
  lt_length := by
    rw [List.length_modify]
    exact arena.lt_length

/-- Puts a cell at the end. -/
def allocate (cell : Cell) : Arena where
  cells := arena.cells ++ [cell]
  opened := arena.opened
  lt_length := by
    intro handle hhandle
    rw [List.length_append]
    exact Nat.lt_add_right _ (arena.lt_length handle hhandle)

/-- Meets an element.  Its handle is the number of cells so far, and the cell of the innermost
element gets it as an item and as a child. -/
def add (name : String) (attributes : List (String × String)) : Arena :=
  (arena.allocate (.fresh name attributes)).write (Cell.addChild arena.cells.length)

/-- An element takes one cell. -/
theorem length_add (name : String) (attributes : List (String × String)) :
    (arena.add name attributes).cells.length = arena.cells.length + 1 := by
  rw [add, write, List.length_modify, allocate, List.length_append, List.length_singleton]

/-- Closes everything up to the innermost open element of a name. -/
def closeThrough (name : String) : Arena where
  cells := arena.cells
  opened := (arena.opened.dropWhile fun handle => arena.nameOf handle ≠ name).tail
  lt_length := by
    have hsub : (arena.opened.dropWhile fun handle => arena.nameOf handle ≠ name).tail.Sublist
        arena.opened := (List.tail_sublist _).trans (List.dropWhile_sublist _)
    exact fun handle hhandle => arena.lt_length handle ((hsub.cons_cons 0).subset hhandle)

/-- Takes in one token. -/
def push : Token → Arena
  | .start name attributes =>
    { cells := (arena.add name attributes).cells
      opened := arena.cells.length :: arena.opened
      lt_length := by
        intro handle hhandle
        rw [length_add]
        rcases List.mem_cons.mp hhandle with rfl | hhandle
        · exact Nat.succ_pos _
        · rcases List.mem_cons.mp hhandle with rfl | hhandle
          · exact Nat.lt_succ_self _
          · exact Nat.lt_succ_of_lt (arena.lt_length handle (List.mem_cons_of_mem _ hhandle)) }
  | .empty name attributes => arena.add name attributes
  | .text value => if arena.innermost = 0 then arena else arena.write (Cell.addRun value)
  | .stop name => if name ∈ arena.names then arena.closeThrough name else arena

end Steps

/-- The arena that tokens grow. -/
def ofTokens (tokens : List Token) : Arena :=
  tokens.foldl push start

/-- The cells so far, the next handle among the children of the innermost element. -/
def cellsAround (arena : Arena) : List Cell :=
  arena.cells.modify arena.innermost (.addChild arena.cells.length)

theorem length_cellsAround (arena : Arena) : arena.cellsAround.length = arena.cells.length :=
  List.length_modify _ _ _

/-- A new cell stands at the end, and among the others only the innermost one is written. -/
theorem cells_add (arena : Arena) (name : String) (attributes : List (String × String)) :
    (arena.add name attributes).cells = arena.cellsAround ++ [.fresh name attributes] :=
  modify_append_of_lt _ _ arena.innermost_lt

/-! ## Names stay -/

/-- Writing changes no name. -/
theorem nameOf_write (arena : Arena) (change : Cell → Cell)
    (hname : ∀ cell, (change cell).name = cell.name) (handle : Nat) :
    (arena.write change).nameOf handle = arena.nameOf handle := by
  unfold nameOf write
  rw [List.getElem?_modify]
  cases arena.cells[handle]? with
  | none => rfl
  | some cell =>
    show (if arena.innermost = handle then change cell else cell).name = cell.name
    split
    · exact hname cell
    · rfl

theorem nameOf_allocate (arena : Arena) (cell : Cell) {handle : Nat}
    (hlt : handle < arena.cells.length) :
    (arena.allocate cell).nameOf handle = arena.nameOf handle := by
  unfold nameOf allocate
  rw [List.getElem?_append_left hlt]

/-- Elements that were met before keep their names. -/
theorem nameOf_add (arena : Arena) (name : String) (attributes : List (String × String))
    {handle : Nat} (hlt : handle < arena.cells.length) :
    (arena.add name attributes).nameOf handle = arena.nameOf handle :=
  (nameOf_write _ (Cell.addChild _) (fun _ => rfl) handle).trans (arena.nameOf_allocate _ hlt)

/-- A handle is the number of the cells in front. -/
theorem nameOf_of_cells_eq {arena : Arena} {front back : List Cell} {cell : Cell}
    (hcells : arena.cells = front ++ cell :: back) : arena.nameOf front.length = cell.name := by
  rw [nameOf, hcells, List.getElem?_append_right (Nat.le_refl _), Nat.sub_self]
  rfl

/-- A new element is met under its name. -/
theorem nameOf_add_length (arena : Arena) (name : String) (attributes : List (String × String)) :
    (arena.add name attributes).nameOf arena.cells.length = name := by
  rw [← length_cellsAround]
  exact nameOf_of_cells_eq (arena.cells_add name attributes)

/-- The elements that are open keep their names when another one is met. -/
theorem map_nameOf_add (arena : Arena) (name : String) (attributes : List (String × String)) :
    arena.opened.map (arena.add name attributes).nameOf = arena.names :=
  List.map_congr_left fun handle hhandle =>
    arena.nameOf_add name attributes (arena.lt_length handle (List.mem_cons_of_mem _ hhandle))

theorem push_stop_eq (arena : Arena) (name : String) :
    arena.push (.stop name) = if name ∈ arena.names then arena.closeThrough name else arena := rfl

theorem opened_closeThrough (arena : Arena) (name : String) :
    (arena.closeThrough name).opened =
      (arena.opened.dropWhile fun handle => arena.nameOf handle ≠ name).tail := rfl

/-- An end tag writes nothing. -/
theorem cells_push_stop (arena : Arena) (name : String) :
    (arena.push (.stop name)).cells = arena.cells := by
  rw [push_stop_eq]
  split
  · rfl
  · rfl

/-- So it changes no name. -/
theorem nameOf_push_stop (arena : Arena) (name : String) :
    (arena.push (.stop name)).nameOf = arena.nameOf := by
  funext handle
  rw [nameOf, cells_push_stop, nameOf]

/-- Nor do any number of end tags write anything. -/
theorem cells_foldl_push_stops (arena : Arena) (stops : List String) :
    ((stops.map Token.stop).foldl push arena).cells = arena.cells := by
  induction stops generalizing arena with
  | nil => rfl
  | cons stop stops ih => exact (ih _).trans (arena.cells_push_stop stop)

/-- The end tag of the innermost element closes it alone. -/
theorem opened_push_stop_innermost {arena : Arena} {handle : Nat} {outer : List Nat}
    (hopened : arena.opened = handle :: outer) :
    (arena.push (.stop (arena.nameOf handle))).opened = outer := by
  have hopen : arena.nameOf handle ∈ arena.names := by
    rw [names, hopened]
    exact List.mem_cons_self
  rw [push_stop_eq, if_pos hopen, opened_closeThrough, hopened,
    List.dropWhile_cons_of_neg (by simp)]
  rfl

/-- What stays open has the names that it had. -/
theorem names_push_stop_innermost {arena : Arena} {handle : Nat} {outer : List Nat}
    (hopened : arena.opened = handle :: outer) :
    (arena.push (.stop (arena.nameOf handle))).names = outer.map arena.nameOf := by
  rw [names, opened_push_stop_innermost hopened, nameOf_push_stop]

theorem opened_push_text (arena : Arena) (value : String) :
    (arena.push (.text value)).opened = arena.opened := by
  rw [push]
  split <;> rfl

/-- **An arena recovers from tags that do not match by the same rules as the builder.** -/
theorem recovers : Recovers push names where
  start arena name attributes := by
    show (arena.add name attributes).nameOf arena.cells.length ::
      arena.opened.map (arena.add name attributes).nameOf = name :: arena.names
    rw [nameOf_add_length, map_nameOf_add]
  empty arena name attributes := arena.map_nameOf_add name attributes
  text arena value := by
    rw [push]
    split
    · rfl
    · exact List.map_congr_left fun handle _ =>
        arena.nameOf_write (Cell.addRun value) (fun _ => rfl) handle
  stray arena name hclosed := if_neg hclosed
  innermost := by
    intro arena name outer hnames
    obtain ⟨handle, rest, hopened, rfl, rfl⟩ := List.map_eq_cons_iff.mp hnames
    exact names_push_stop_innermost hopened
  through := by
    intro arena name first outer hnames hname houter
    obtain ⟨handle, rest, hopened, rfl, rfl⟩ := List.map_eq_cons_iff.mp hnames
    have hopen : name ∈ arena.names := by
      rw [hnames]
      exact List.mem_cons_of_mem _ houter
    have hrest : name ∈ (arena.push (.stop (arena.nameOf handle))).names := by
      rw [names_push_stop_innermost hopened]
      exact houter
    ext1
    · rw [cells_push_stop, cells_push_stop, cells_push_stop]
    · rw [push_stop_eq _ name, if_pos hrest, push_stop_eq arena name, if_pos hopen,
        opened_closeThrough, opened_closeThrough, opened_push_stop_innermost hopened, hopened,
        nameOf_push_stop, List.dropWhile_cons_of_pos (by simpa using hname)]

/-! ## What balanced tokens add -/

/-- What is kept of some content where the arena stands: outside of every element no text. -/
def kept (arena : Arena) (content : Content) : Content :=
  if arena.innermost = 0 then content.withoutOuterText else content

/-- Elements are kept in either case. -/
theorem kept_element (arena : Arena) (name : String) (attributes : List (String × String))
    (inner rest : Content) :
    arena.kept (.element name attributes inner rest) =
      .element name attributes inner (arena.kept rest) := by
  rw [kept, kept, Content.withoutOuterText]
  split <;> rfl

/-- The cells of the arena with some content taken in. -/
def cellsWith (arena : Arena) (content : Content) : List Cell :=
  arena.cells.modify arena.innermost (.addContent arena.cells.length (arena.kept content)) ++
    (content.nodesFrom arena.cells.length).map Node.cell

/-- No content adds nothing. -/
theorem cellsWith_nil (arena : Arena) : arena.cellsWith .nil = arena.cells := by
  have hkept : arena.kept .nil = .nil := ite_self _
  rw [cellsWith, hkept, Cell.addContent_nil, List.modify_id]
  exact List.append_nil _

/-- A run of text is taken in by itself or with what follows it. -/
theorem cellsWith_push_text (arena : Arena) (value : String) (rest : Content) :
    (arena.push (.text value)).cellsWith rest = arena.cellsWith (.text value rest) := by
  rw [push]
  split
  · next houter =>
    rw [cellsWith, cellsWith, kept, kept, if_pos houter, if_pos houter]
    rfl
  · next hinner =>
    have hlength : (arena.write (.addRun value)).cells.length = arena.cells.length :=
      List.length_modify _ _ _
    have hinnermost : (arena.write (.addRun value)).innermost = arena.innermost := rfl
    rw [cellsWith, cellsWith, kept, kept, hinnermost, if_neg hinner, if_neg hinner, hlength, write,
      List.modify_modify_eq, Cell.addContent_comp_addRun]
    rfl

/-- So is an element with what is inside it. -/
theorem cellsWith_of_element {arena after : Arena} {name : String}
    {attributes : List (String × String)} {inner : Content} (rest : Content)
    (hopened : after.opened = arena.opened)
    (hcells : after.cells = arena.cellsAround ++
      (Node.mk arena.cells.length name attributes inner).cell ::
        (inner.nodesFrom (arena.cells.length + 1)).map Node.cell) :
    after.cellsWith rest = arena.cellsWith (.element name attributes inner rest) := by
  have hinnermost : after.innermost = arena.innermost := by
    rw [innermost, hopened, innermost]
  have hkept : after.kept rest = arena.kept rest := by
    rw [kept, hinnermost, kept]
  have hlength : after.cells.length = arena.cells.length + inner.size + 1 := by
    rw [hcells, List.length_append, length_cellsAround, List.length_cons, List.length_map,
      Content.length_nodesFrom, Nat.add_assoc]
  have hlt : arena.innermost < arena.cellsAround.length := by
    rw [length_cellsAround]
    exact arena.innermost_lt
  rw [cellsWith, cellsWith, hkept, kept_element, hlength, hinnermost, hcells,
    modify_append_of_lt _ _ hlt, cellsAround, List.modify_modify_eq,
    Cell.addContent_comp_addChild, Content.nodesFrom, List.map_cons, List.map_append,
    List.append_assoc, List.cons_append]

/-- After a start tag the content of its element goes into the new cell. -/
theorem cellsWith_push_start (arena : Arena) (name : String) (attributes : List (String × String))
    (inner : Content) :
    (arena.push (.start name attributes)).cellsWith inner =
      arena.cellsAround ++ (Node.mk arena.cells.length name attributes inner).cell ::
        (inner.nodesFrom (arena.cells.length + 1)).map Node.cell := by
  have hinnermost : (arena.push (.start name attributes)).innermost = arena.cells.length := rfl
  have hinside : arena.cells.length ≠ 0 :=
    Nat.ne_of_gt (arena.lt_length 0 List.mem_cons_self)
  have hcells : (arena.push (.start name attributes)).cells =
      arena.cellsAround ++ [.fresh name attributes] := arena.cells_add name attributes
  have hmodify := modify_append_length (.addContent (arena.cells.length + 1) inner)
    arena.cellsAround (.fresh name attributes) []
  rw [length_cellsAround] at hmodify
  rw [cellsWith, kept, hinnermost, if_neg hinside, hcells, List.length_append, length_cellsAround,
    List.length_singleton, hmodify, List.append_assoc]
  rfl

end Arena

namespace Spells

variable {tokens : List Token} {content : Content}

/-- **Balanced tokens are taken in as what they spell**, whatever was met before them. -/
theorem foldl_push_arena (h : Spells tokens content) (arena : Arena) :
    (tokens.foldl Arena.push arena).opened = arena.opened ∧
      (tokens.foldl Arena.push arena).cells = arena.cellsWith content := by
  induction h generalizing arena with
  | nil => exact ⟨rfl, arena.cellsWith_nil.symm⟩
  | @text tokens rest value _ ih =>
    obtain ⟨hopened, hcells⟩ := ih (arena.push (.text value))
    exact ⟨hopened.trans (arena.opened_push_text value),
      hcells.trans (arena.cellsWith_push_text value rest)⟩
  | @empty tokens rest name attributes _ ih =>
    obtain ⟨hopened, hcells⟩ := ih (arena.push (.empty name attributes))
    exact ⟨hopened, hcells.trans
      (Arena.cellsWith_of_element rest rfl (arena.cells_add name attributes))⟩
  | @element inside tokens inner rest name attributes _ _ ihinside ihrest =>
    obtain ⟨hopened, hcells⟩ := ihinside (arena.push (.start name attributes))
    rw [Arena.cellsWith_push_start] at hcells
    rw [List.foldl_cons, List.foldl_append, List.foldl_cons]
    generalize inside.foldl Arena.push (arena.push (.start name attributes)) = before at *
    have hname : before.nameOf arena.cells.length = name := by
      rw [← arena.length_cellsAround]
      exact Arena.nameOf_of_cells_eq hcells
    have hclosed : (before.push (.stop name)).opened = arena.opened := by
      rw [← hname]
      exact Arena.opened_push_stop_innermost hopened
    obtain ⟨hafter, hrest⟩ := ihrest (before.push (.stop name))
    refine ⟨hafter.trans hclosed, hrest.trans (Arena.cellsWith_of_element rest hclosed ?_)⟩
    rw [before.cells_push_stop, hcells]

end Spells

namespace Arena

/-- From the start, content is taken in as a document, which has no text outside of its elements.
-/
theorem cellsWith_start (content : Content) :
    start.cellsWith content = (Document.mk content.withoutOuterText).cells := by
  show _ = Node.cell ⟨0, "", [], content.withoutOuterText⟩ ::
    (content.withoutOuterText.nodesFrom 1).map Node.cell
  rw [Content.nodesFrom_withoutOuterText]
  rfl

/-- **An arena keeps what a document keeps.**  The cells that tokens leave behind are those of the
document that they describe, each at the place that is its number. -/
theorem cells_ofTokens (tokens : List Token) :
    (ofTokens tokens).cells = (Document.ofTokens tokens).cells := by
  obtain ⟨content, hspells, hcontent⟩ := exists_spells_repair tokens
  have hrepair : ((repair tokens).foldl push start).cells = (ofTokens tokens).cells :=
    calc ((repair tokens).foldl push start).cells
        = (((ofTokens tokens).names.map Token.stop).foldl push (ofTokens tokens)).cells :=
          congrArg cells (recovers.foldl_repairFrom start tokens)
      _ = (ofTokens tokens).cells := cells_foldl_push_stops _ _
  rw [← hrepair, (hspells.foldl_push_arena start).2, cellsWith_start, Document.ofTokens, hcontent]

end Arena

end AccessRights
