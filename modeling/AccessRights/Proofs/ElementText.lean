import AccessRights.Proofs.SourcePieces

/-!
# The text of an element

The text of a node is all the text in its content, and content is a tree.  This module says
what that is in the two other terms in which it can be put.

* As a loop: the items still to come are on a stack, and of an element that is met the items
  are put there in its place (`gather`).  The loop and the tree agree
  (`Node.gathered_eq_text`).
* As a part of the source: reading goes from token to token and knows which elements are open
  (`Nesting`), so that every run of text has an owner, the innermost of these.  The text of an
  element is that of the runs whose owner is the element or is inside it, in the order of the
  source.  Runs without an owner are in no text at all.

`text_eq_runs` puts this together with the pieces of the source.

## What carries the argument

The runs of a source can be found in content just as well, where the owner of a run is the
element around it (`Content.runs`).  That both find the same is proved for balanced tokens,
along the grammar (`Spells.runsFrom_eq`).  Any other tokens are put right first, and whoever
follows the nesting is a reader that does not notice (`Nesting.recovers`).

In content the owners are numbers, and the numbers of an element and all that is inside it are
one interval.  What belongs to an element is therefore cut out of the runs by that interval
(`Content.filter_holds_runs`).
-/

namespace AccessRights

open AccessRights.Markup AccessRights.Text

/-! ## What a node holds, item by item -/

/-- The number of items at any depth. -/
def Content.itemCount : Content → Nat
  | nil => 0
  | text _ rest => rest.itemCount + 1
  | element _ _ inner rest => inner.itemCount + rest.itemCount + 1

namespace Item

/-- What the item adds to the text. -/
def text : Item → String
  | run value => value
  | element node => node.text

/-- The number of items that come with this one, itself included. -/
def count : Item → Nat
  | run _ => 1
  | element node => node.content.itemCount + 1

/-- The number of items that come with any of these. -/
def countAll : List Item → Nat
  | [] => 0
  | item :: items => item.count + countAll items

theorem countAll_append (items later : List Item) :
    countAll (items ++ later) = countAll items + countAll later := by
  induction items with
  | nil => simp [countAll]
  | cons item items ih => simp [countAll, ih, Nat.add_assoc]

end Item

namespace Content

theorem countAll_itemsFrom (k : Nat) (content : Content) :
    Item.countAll (content.itemsFrom k) = content.itemCount := by
  induction content generalizing k with
  | nil => rfl
  | text value rest ih =>
    rw [itemsFrom, Item.countAll, ih, itemCount, Nat.add_comm]
    rfl
  | element name attributes inner rest _ ihrest =>
    rw [itemsFrom, Item.countAll, ihrest, itemCount]
    exact Nat.add_right_comm _ _ _

/-- The text is that of the items, one after the other. -/
theorem allText_eq_join_items (k : Nat) (content : Content) :
    content.allText = String.join ((content.itemsFrom k).map Item.text) := by
  induction content generalizing k with
  | nil => rfl
  | text value rest ih => rw [allText, itemsFrom, List.map_cons, String.join_cons, ← ih, Item.text]
  | element name attributes inner rest _ ihrest =>
    rw [allText, itemsFrom, List.map_cons, String.join_cons, ← ihrest]
    rfl

theorem itemsFrom_withoutOuterText (k : Nat) (content : Content) :
    content.withoutOuterText.itemsFrom k = (content.elementsFrom k).map Item.element := by
  induction content generalizing k with
  | nil => rfl
  | text value rest ih => exact ih k
  | element name attributes inner rest _ ihrest => exact congrArg (_ :: ·) (ihrest _)

end Content

/-! ## The loop over a stack -/

/-- Takes item after item off the stack.  A run is added to the text, and in the place of an
element come the items that it holds. -/
def gather : List Item → String → String
  | [], text => text
  | .run value :: stack, text => gather stack (text ++ value)
  | .element node :: stack, text => gather (pushAll stack node.items.reverse) text
termination_by stack => Item.countAll stack
decreasing_by
  · simp [Item.countAll, Item.count]
  · have hitems : Item.countAll node.items = node.content.itemCount :=
      Content.countAll_itemsFrom _ _
    rw [pushAll_reverse, Item.countAll_append, hitems, Item.countAll, Item.count]
    omega

namespace Node

/-- The text of a node, found by way of a stack. -/
def gathered (node : Node) : String :=
  gather (pushAll [] node.items.reverse) ""

/-- **The text of a node is that of its items, one after the other.** -/
theorem text_eq_join_items (node : Node) : node.text = String.join (node.items.map Item.text) :=
  Content.allText_eq_join_items _ _

end Node

/-- What the loop adds to a text is the text of all that is on the stack. -/
theorem gather_eq (stack : List Item) (text : String) :
    gather stack text = text ++ String.join (stack.map Item.text) := by
  induction stack, text using gather.induct with
  | case1 text => rw [gather, List.map_nil, String.join_nil, String.append_empty]
  | case2 value stack text ih =>
    rw [gather, ih, List.map_cons, String.join_cons, String.append_assoc, Item.text]
  | case3 node stack text ih =>
    rw [gather, ih, pushAll_reverse, List.map_append, String.join_append, List.map_cons,
      String.join_cons, ← node.text_eq_join_items, Item.text]

/-- **The loop finds the text of a node.** -/
theorem Node.gathered_eq_text (node : Node) : node.gathered = node.text := by
  rw [gathered, gather_eq, pushAll_reverse, List.append_nil, String.empty_append,
    ← node.text_eq_join_items]

/-! ## Runs and their owners -/

/-- A run of text with the number of the element that it stands right inside of, or zero if it
stands outside of every element. -/
structure Run where
  owner : Nat
  value : String
  deriving DecidableEq

/-- The run is right inside the node or inside an element that the node holds. -/
def Node.Holds (node : Node) (run : Run) : Prop :=
  run.owner ∈ (node :: node.descendants).map Node.number

instance (node : Node) : DecidablePred node.Holds :=
  fun run => inferInstanceAs (Decidable (run.owner ∈ _))

/-- The numbers of a node and of all that is inside it are an interval. -/
theorem Node.holds_iff {node : Node} {run : Run} :
    node.Holds run ↔ node.number ≤ run.owner ∧ run.owner < node.number + node.content.size + 1 := by
  have hnumbers : (node :: node.descendants).map Node.number =
      List.range' node.number (node.content.size + 1) := by
    rw [List.map_cons, descendants, Content.map_number_nodesFrom, List.range'_succ]
  rw [Holds, hnumbers, List.mem_range'_1, Nat.add_assoc]

/-- What an item adds to the runs, where it stands in the node of some number. -/
def Item.runs (owner : Nat) (all : List Run) : Item → List Run
  | run value => [⟨owner, value⟩]
  | element node => all.filter fun run => node.Holds run

/-! ## Runs of content -/

namespace Content

/-- The runs of some content, which stands in the node of some number and has elements numbered
from `k`. -/
def runs (owner k : Nat) : Content → List Run
  | nil => []
  | text value rest => ⟨owner, value⟩ :: rest.runs owner k
  | element _ _ inner rest => inner.runs k (k + 1) ++ rest.runs owner (k + inner.size + 1)

/-- The text of some content is that of its runs. -/
theorem join_value_runs (owner k : Nat) (content : Content) :
    String.join ((content.runs owner k).map Run.value) = content.allText := by
  induction content generalizing owner k with
  | nil => rfl
  | text value rest ih => rw [runs, List.map_cons, String.join_cons, ih, allText]
  | element name attributes inner rest ihinner ihrest =>
    rw [runs, List.map_append, String.join_append, ihinner, ihrest, allText]

theorem owner_of_mem_runs {owner k : Nat} {content : Content} {run : Run}
    (h : run ∈ content.runs owner k) :
    run.owner = owner ∨ (k ≤ run.owner ∧ run.owner < k + content.size) := by
  induction content generalizing owner k with
  | nil => cases h
  | text value rest ih =>
    rcases List.mem_cons.mp h with rfl | h
    · exact Or.inl rfl
    · exact ih h
  | element name attributes inner rest ihinner ihrest =>
    rw [size_element]
    rcases List.mem_append.mp h with h | h
    · have hinner := ihinner h
      omega
    · have hrest := ihrest h
      omega

/-- What an element holds is numbered like the content around it. -/
theorem owner_of_holds {k : Nat} {content : Content} {node : Node} {run : Run}
    (hnode : node ∈ content.nodesFrom k) (h : node.Holds run) :
    k ≤ run.owner ∧ run.owner < k + content.size := by
  obtain ⟨holder, hholder, hnumber⟩ := List.mem_map.mp h
  rw [← hnumber]
  apply number_lt_of_mem_nodesFrom
  rcases List.mem_cons.mp hholder with rfl | hinside
  · exact hnode
  · exact (descendants_sublist hnode).subset hinside

/-- An element holds nothing of content that is numbered before or after all that surrounds the
element. -/
theorem filter_holds_runs_eq_nil {owner k j : Nat} {content around : Content} {node : Node}
    (hnode : node ∈ around.nodesFrom j) (howner : owner < j ∨ j + around.size ≤ owner)
    (hk : k + content.size ≤ j ∨ j + around.size ≤ k) :
    (content.runs owner k).filter (fun run => node.Holds run) = [] := by
  apply List.filter_eq_nil_iff.mpr
  intro run hrun hholds
  have hplace := owner_of_mem_runs hrun
  have hrange := owner_of_holds hnode (of_decide_eq_true hholds)
  omega

/-- An element holds all the runs of its own content. -/
theorem filter_holds_runs_self (node : Node) :
    (node.content.runs node.number (node.number + 1)).filter (fun run => node.Holds run) =
      node.content.runs node.number (node.number + 1) := by
  apply List.filter_eq_self.mpr
  intro run hrun
  have hplace := owner_of_mem_runs hrun
  apply decide_eq_true
  apply Node.holds_iff.mpr
  omega

/-- **What an element holds, cut out of the runs of the content around it, are the runs of its
own content.** -/
theorem filter_holds_runs {owner k : Nat} {content : Content} {node : Node}
    (hnode : node ∈ content.nodesFrom k) (howner : owner < k) :
    (content.runs owner k).filter (fun run => node.Holds run) =
      node.content.runs node.number (node.number + 1) := by
  induction content generalizing owner k with
  | nil => cases hnode
  | text value rest ih =>
    have hout : ¬ node.Holds ⟨owner, value⟩ := by
      intro hholds
      exact Nat.not_lt.mpr (owner_of_holds hnode hholds).1 howner
    rw [runs, List.filter_cons_of_neg (by simpa using hout)]
    exact ih hnode howner
  | element name attributes inner rest ihinner ihrest =>
    rw [runs, List.filter_append]
    -- The element is the first one, inside the first one or after it.
    rcases List.mem_cons.mp hnode with rfl | hnode
    · have halone : ⟨k, name, attributes, inner⟩ ∈
          (element name attributes inner nil).nodesFrom k := List.mem_cons_self
      have hafter : (rest.runs owner (k + inner.size + 1)).filter
          (fun run => Node.Holds ⟨k, name, attributes, inner⟩ run) = [] :=
        filter_holds_runs_eq_nil halone (Or.inl howner) (Or.inr (Nat.le_refl _))
      rw [hafter, List.append_nil]
      exact filter_holds_runs_self _
    · rcases List.mem_append.mp hnode with hnode | hnode
      · have hafter : (rest.runs owner (k + inner.size + 1)).filter
            (fun run => node.Holds run) = [] := by
          apply filter_holds_runs_eq_nil hnode <;> omega
        rw [hafter, List.append_nil]
        exact ihinner hnode (Nat.lt_succ_self k)
      · have hbefore : (inner.runs k (k + 1)).filter (fun run => node.Holds run) = [] := by
          apply filter_holds_runs_eq_nil hnode <;> omega
        rw [hbefore, List.nil_append]
        apply ihrest hnode
        omega

/-- Runs in the node of the given number itself apart, the runs are those of the elements. -/
theorem filter_owner_runs {owner k : Nat} (content : Content) (howner : owner < k) :
    (content.runs owner k).filter (·.owner ≠ owner) = content.withoutOuterText.runs owner k := by
  induction content generalizing k with
  | nil => rfl
  | text value rest ih =>
    rw [runs, List.filter_cons_of_neg (by simp)]
    exact ih howner
  | element name attributes inner rest _ ihrest =>
    have hall : (inner.runs k (k + 1)).filter (·.owner ≠ owner) = inner.runs k (k + 1) := by
      apply List.filter_eq_self.mpr
      intro run hrun
      have hinside := owner_of_mem_runs hrun
      apply decide_eq_true
      omega
    have hrest : (rest.runs owner (k + inner.size + 1)).filter (·.owner ≠ owner) =
        rest.withoutOuterText.runs owner (k + inner.size + 1) := by
      apply ihrest
      omega
    rw [runs, List.filter_append, hall, hrest, withoutOuterText, runs]

/-- The runs come item by item, those of an element as they are found in all that surrounds
it. -/
theorem runs_eq_flatMap_items {owner k : Nat} {content : Content} {all : List Run}
    (hall : ∀ node ∈ content.elementsFrom k,
      all.filter (fun run => node.Holds run) = node.content.runs node.number (node.number + 1)) :
    content.runs owner k = (content.itemsFrom k).flatMap (Item.runs owner all) := by
  induction content generalizing k with
  | nil => rfl
  | text value rest ih => exact congrArg (_ :: ·) (ih hall)
  | element name attributes inner rest _ ihrest =>
    have hfirst := hall _ List.mem_cons_self
    rw [runs, itemsFrom, List.flatMap_cons, Item.runs, hfirst]
    apply congrArg (_ ++ ·)
    apply ihrest
    intro node hnode
    exact hall node (List.mem_cons_of_mem _ hnode)

end Content

/-! ## Following the nesting -/

/-- The elements that are open, innermost first, each with its number and its name, and how many
elements there have been. -/
structure Nesting where
  opened : List (Nat × String)
  count : Nat
  deriving DecidableEq

namespace Nesting

/-- Nothing read. -/
def outside : Nesting :=
  ⟨[], 0⟩

/-- The names of the open elements. -/
def names (nesting : Nesting) : List String :=
  nesting.opened.map Prod.snd

/-- The number of the innermost open element, or zero. -/
def owner (nesting : Nesting) : Nat :=
  (nesting.opened.head?.map Prod.fst).getD 0

/-- Reads one token.  An end tag closes everything up to the innermost open element of its name,
and nothing if there is none. -/
def step (nesting : Nesting) : Token → Nesting
  | .start name _ => ⟨(nesting.count + 1, name) :: nesting.opened, nesting.count + 1⟩
  | .empty _ _ => { nesting with count := nesting.count + 1 }
  | .text _ => nesting
  | .stop name =>
    if name ∈ nesting.names then
      { nesting with opened := (nesting.opened.dropWhile (·.2 ≠ name)).tail }
    else
      nesting

/-- The run that a token is, if it is one. -/
def run? (nesting : Nesting) : Token → Option Run
  | .text value => some ⟨nesting.owner, value⟩
  | _ => none

/-- The runs among the tokens. -/
def runsFrom : Nesting → List Token → List Run
  | _, [] => []
  | nesting, token :: tokens =>
    (nesting.run? token).toList ++ (nesting.step token).runsFrom tokens

theorem runsFrom_append (nesting : Nesting) (tokens later : List Token) :
    nesting.runsFrom (tokens ++ later) =
      nesting.runsFrom tokens ++ (tokens.foldl step nesting).runsFrom later := by
  induction tokens generalizing nesting with
  | nil => rfl
  | cons token tokens ih =>
    rw [List.cons_append, runsFrom, runsFrom, ih, List.append_assoc]
    rfl

theorem runsFrom_map_stop (nesting : Nesting) (stops : List String) :
    nesting.runsFrom (stops.map .stop) = [] := by
  induction stops generalizing nesting with
  | nil => rfl
  | cons stop stops ih => exact ih _

/-- The end tag of the innermost element closes it alone. -/
theorem step_stop_innermost (element : Nat × String) (outer : List (Nat × String)) (count : Nat) :
    (⟨element :: outer, count⟩ : Nesting).step (.stop element.2) = ⟨outer, count⟩ := by
  simp [step, names]

/-- Reads one token and puts the run that it is, if it is one, behind those read before. -/
def stepRuns (state : Nesting × List Run) (token : Token) : Nesting × List Run :=
  (state.1.step token, state.2 ++ (state.1.run? token).toList)

theorem foldl_stepRuns (nesting : Nesting) (runs : List Run) (tokens : List Token) :
    tokens.foldl stepRuns (nesting, runs) =
      (tokens.foldl step nesting, runs ++ nesting.runsFrom tokens) := by
  induction tokens generalizing nesting runs with
  | nil => rw [runsFrom, List.append_nil]; rfl
  | cons token tokens ih =>
    rw [List.foldl_cons, stepRuns, ih, runsFrom, ← List.append_assoc]
    rfl

theorem recovers : Recovers stepRuns fun state => state.1.names where
  start _ _ _ := rfl
  empty _ _ _ := rfl
  text _ _ := rfl
  stray := by
    rintro ⟨nesting, runs⟩ name hclosed
    exact Prod.ext (if_neg hclosed) (List.append_nil runs)
  innermost := by
    rintro ⟨⟨opened, count⟩, runs⟩ name outer hnames
    obtain ⟨element, rest, rfl, rfl, rfl⟩ := List.map_eq_cons_iff.mp hnames
    exact congrArg names (step_stop_innermost element rest count)
  through := by
    rintro ⟨⟨opened, count⟩, runs⟩ name first outer hnames hname houter
    obtain ⟨element, rest, rfl, rfl, rfl⟩ := List.map_eq_cons_iff.mp hnames
    have hopen : name ∈ (⟨element :: rest, count⟩ : Nesting).names :=
      List.mem_cons_of_mem _ houter
    refine Prod.ext ?_ (congrArg (· ++ []) (List.append_nil runs))
    have hwhole : (⟨element :: rest, count⟩ : Nesting).step (.stop name) =
        ⟨(rest.dropWhile (·.2 ≠ name)).tail, count⟩ := by
      rw [step, if_pos hopen, List.dropWhile_cons_of_pos (by simpa using hname)]
    show ((⟨element :: rest, count⟩ : Nesting).step (.stop element.2)).step (.stop name) =
      (⟨element :: rest, count⟩ : Nesting).step (.stop name)
    rw [hwhole, step_stop_innermost]
    exact if_pos houter

/-- **Putting tokens right makes no difference to the runs.** -/
theorem runsFrom_repairFrom (nesting : Nesting) (tokens : List Token) :
    nesting.runsFrom (repairFrom nesting.names tokens) = nesting.runsFrom tokens := by
  have hread := recovers.foldl_repairFrom (nesting, []) tokens
  rw [foldl_stepRuns, foldl_stepRuns, foldl_stepRuns, runsFrom_map_stop, List.append_nil] at hread
  exact congrArg Prod.snd hread

end Nesting

/-- **The runs among balanced tokens are those of the content they spell**, and what was open
before them is open after them. -/
theorem Spells.runsFrom_eq {tokens : List Token} {content : Content} (h : Spells tokens content)
    (nesting : Nesting) :
    nesting.runsFrom tokens = content.runs nesting.owner (nesting.count + 1) ∧
      tokens.foldl Nesting.step nesting =
        { nesting with count := nesting.count + content.size } := by
  induction h generalizing nesting with
  | nil => exact ⟨rfl, rfl⟩
  | text value _ ih =>
    obtain ⟨hruns, hstep⟩ := ih nesting
    exact ⟨congrArg (_ :: ·) hruns, hstep⟩
  | empty name attributes _ ih =>
    obtain ⟨hruns, hstep⟩ := ih (nesting.step (.empty name attributes))
    refine ⟨hruns, hstep.trans ?_⟩
    simp only [Nesting.step, Content.size_element, Content.size_nil]
    congr 1
    omega
  | @element inside tokens inner rest name attributes _ _ ihinside ihrest =>
    obtain ⟨hinside, hafter⟩ := ihinside (nesting.step (.start name attributes))
    -- Once the element is closed, the same elements are open as before it.
    have hclosed : ((Token.start name attributes :: inside).foldl Nesting.step nesting).step
        (.stop name) = { nesting with count := nesting.count + 1 + inner.size } := by
      rw [List.foldl_cons, hafter]
      exact Nesting.step_stop_innermost _ _ _
    obtain ⟨hrest, hlast⟩ := ihrest { nesting with count := nesting.count + 1 + inner.size }
    constructor
    · have hstart : nesting.runsFrom (.start name attributes :: inside) =
          inner.runs (nesting.count + 1) (nesting.count + 1 + 1) := hinside
      rw [← List.cons_append, Nesting.runsFrom_append, hstart]
      show _ ++ Nesting.runsFrom (Nesting.step _ (.stop name)) tokens = _
      rw [hclosed, hrest, Content.runs]
      rfl
    · rw [← List.cons_append, List.foldl_append, List.foldl_cons, hclosed, hlast]
      simp only [Content.size_element]
      congr 1
      omega

/-! ## The text of a document -/

/-- The runs of a source, as they are found in the document that is read from it. -/
structure Document.HoldsRuns (document : Document) (runs : List Run) : Prop where
  /-- What an element holds of the runs is what its items add, in their order. -/
  inOrder : ∀ element ∈ document.elements, runs.filter (fun run => element.Holds run) =
    element.items.flatMap (Item.runs element.number runs)
  /-- The text of an element is that of the runs that it holds, and nothing else. -/
  text : ∀ element ∈ document.elements, element.text =
    String.join ((runs.filter fun run => element.Holds run).map Run.value)
  /-- Runs outside of every element are held by none. -/
  owned : ∀ element ∈ document.elements, ∀ run ∈ runs, element.Holds run → run.owner ≠ 0
  /-- The document itself has elements only. -/
  items : document.root.items = document.root.children.map Item.element
  /-- The text of the document is that of the runs inside of its elements. -/
  whole : document.root.text =
    String.join ((runs.filter fun run => run.owner ≠ 0).map Run.value)

namespace Document

/-- **The runs among any tokens are held by the document that the tokens describe.** -/
theorem holdsRuns_ofTokens (tokens : List Token) :
    (ofTokens tokens).HoldsRuns (Nesting.outside.runsFrom tokens) := by
  obtain ⟨content, hspells, hcontent⟩ := exists_spells_repair tokens
  have hruns : Nesting.outside.runsFrom tokens = content.runs 0 1 :=
    (Nesting.outside.runsFrom_repairFrom tokens).symm.trans (hspells.runsFrom_eq _).1
  have helements : (ofTokens tokens).elements = content.nodesFrom 1 := by
    show (Content.ofTokens tokens).nodesFrom 1 = _
    rw [hcontent, content.nodesFrom_withoutOuterText]
  have hheld : ∀ element ∈ content.nodesFrom 1,
      (content.runs 0 1).filter (fun run => element.Holds run) =
        element.content.runs element.number (element.number + 1) :=
    fun element helement => Content.filter_holds_runs helement Nat.one_pos
  rw [hruns]
  constructor
  · intro element helement
    rw [helements] at helement
    rw [hheld element helement, Content.runs_eq_flatMap_items]
    · rfl
    · intro child hchild
      apply hheld
      exact (Content.descendants_sublist helement).subset (element.children_sublist.subset hchild)
  · intro element helement
    rw [helements] at helement
    rw [hheld element helement, Content.join_value_runs]
    rfl
  · intro element helement run _ hholds
    rw [helements] at helement
    have hrange := Content.owner_of_holds helement hholds
    omega
  · show (Content.ofTokens tokens).itemsFrom 1 = ((Content.ofTokens tokens).elementsFrom 1).map _
    rw [hcontent, Content.itemsFrom_withoutOuterText, Content.elementsFrom_withoutOuterText]
  · rw [content.filter_owner_runs Nat.one_pos, Content.join_value_runs, ← hcontent]
    rfl

end Document

/-- **The text of an element is that of the runs inside it.**  What the loop over the stack finds
is the text, that of the items one after the other.  The source can be cut into pieces, and
however it is cut, its runs are held by the document. -/
theorem text_eq_runs {text : String} {document : Document} (h : Document.read text = .ok document) :
    (∀ node ∈ document.root :: document.elements,
      node.gathered = node.text ∧ node.text = String.join (node.items.map Item.text) ∧
        node.items.filterMap Item.node? = node.children) ∧
      document.root.text = String.join (document.root.children.map Node.text) ∧
      (∀ written value, Decodes written value ↔ value = resolved written) ∧
      (∃ pieces, Cuts (dropByteOrderMark text.toList) pieces) ∧
      ∀ pieces, Cuts (dropByteOrderMark text.toList) pieces →
        document.elements.map Node.number = List.range' 1 document.size ∧
          document.elements.map Node.tag =
            (pieces.flatMap Piece.tokens).filterMap Token.opening? ∧
          document.HoldsRuns (Nesting.outside.runsFrom (pieces.flatMap Piece.tokens)) := by
  obtain ⟨ts, htokens, rfl⟩ := Document.exists_tokens_of_read h
  obtain ⟨pieces, hcuts, -⟩ := tokens_eq_ok_iff_cuts.mp htokens
  have hroot : (Document.ofTokens ts).root.text =
      String.join ((Document.ofTokens ts).root.children.map Node.text) := by
    rw [Node.text_eq_join_items, (Document.holdsRuns_ofTokens ts).items, List.map_map]
    rfl
  refine ⟨?_, hroot, fun _ _ => decodes_iff, ⟨pieces, hcuts⟩, ?_⟩
  · intro node _
    exact ⟨node.gathered_eq_text, node.text_eq_join_items, node.filterMap_node?_items⟩
  · intro other hother
    -- However the source is cut, the tokens of the pieces are those of the source.
    have hsame := tokens_eq_ok_iff_cuts.mpr ⟨other, hother, rfl⟩
    obtain rfl : other.flatMap Piece.tokens = ts :=
      Except.ok.inj (hsame.symm.trans htokens)
    exact ⟨Content.map_number_nodesFrom _ _, Document.map_tag_elements _,
      Document.holdsRuns_ofTokens _⟩

/-- Text outside of the elements, an end tag that closes two of them and one that closes none,
references with and without a meaning, and a section. -/
def tangled : String :=
  "x<a>&lt;<b>1&no;</a>y<c>&amp;</b><![CDATA[&]]></c>"

theorem text_eq_runs_tangled : ∃ document pieces,
    Document.read tangled = .ok document ∧ Cuts tangled.toList pieces ∧
      Nesting.outside.runsFrom (pieces.flatMap Piece.tokens) =
        [⟨0, "x"⟩, ⟨1, "<"⟩, ⟨2, "1&no;"⟩, ⟨0, "y"⟩, ⟨3, "&"⟩, ⟨3, "&"⟩] ∧
      document.HoldsRuns [⟨0, "x"⟩, ⟨1, "<"⟩, ⟨2, "1&no;"⟩, ⟨0, "y"⟩, ⟨3, "&"⟩, ⟨3, "&"⟩] ∧
      document.elements.map Node.text = ["<1&no;", "1&no;", "&&"] ∧
      document.root.text = "<1&no;&&" := by
  have hread : Document.read tangled = .ok ⟨.element "a" []
      (.text "<" (.element "b" [] (.text "1&no;" .nil) .nil))
      (.element "c" [] (.text "&" (.text "&" .nil)) .nil)⟩ := by
    decide +kernel
  have htokens : tokens tangled = .ok [.text "x", .start "a" [], .text "<", .start "b" [],
      .text "1&no;", .stop "a", .text "y", .start "c" [], .text "&", .stop "b", .text "&",
      .stop "c"] := by
    decide +kernel
  obtain ⟨-, hroot, -, -, hcut⟩ := text_eq_runs hread
  obtain ⟨pieces, hpieces, hflat⟩ := tokens_eq_ok_iff_cuts.mp htokens
  obtain ⟨-, -, hholds⟩ := hcut pieces hpieces
  have hruns : Nesting.outside.runsFrom (pieces.flatMap Piece.tokens) =
      [⟨0, "x"⟩, ⟨1, "<"⟩, ⟨2, "1&no;"⟩, ⟨0, "y"⟩, ⟨3, "&"⟩, ⟨3, "&"⟩] := by
    rw [hflat]
    rfl
  rw [hruns] at hholds
  exact ⟨_, pieces, hread, hpieces, hruns, hholds, by decide, hroot⟩

end AccessRights
