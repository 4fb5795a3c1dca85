import AccessRights.Proofs.Evaluated
import AccessRights.Proofs.PathMeaning
import AccessRights.Proofs.Spelling
import Mathlib.Data.List.Forall2

/-!
# Views that evaluation cannot tell apart

Evaluation is defined for a `View` of any type of nodes.  What it may depend on is then a
matter of relations: two views are alike (`View.Alike`) if every path leads from their tops
to nodes that correspond one by one, and again so from nodes that correspond, and if
corresponding nodes have the same name, text and attributes.  `View.evaluate_eq_of_alike`
says that alike views give one and the same evaluation and the same findings.

## What is not asked

Nothing is said of paths without steps, which would make the tops correspond, nor of the
name, the text and the attributes of the tops.  This is what lets an element take the place
of a document: the element has a name and attributes and the document has none, yet what is
inside them can be the same.

## Two pairs of alike views

* A document seen from one of its elements, and a document of its own that holds what is
  inside of that element (`Node.alike_document`).  The nodes of the two differ by a constant
  in their numbers (`Node.later`), and paths follow any such shift (`Node.findAll_later`).
* A document seen by its nodes, and seen by the numbers of these nodes alone
  (`Document.alike_numbered`), so that the types of nodes differ as well.
-/

namespace AccessRights

/-- What corresponds one by one has the same values. -/
theorem map_eq_map_of_forall₂ {α β γ : Type} {same : α → β → Prop} {f : α → γ} {g : β → γ}
    {xs : List α} {ys : List β} (h : List.Forall₂ same xs ys)
    (hvalue : ∀ x y, same x y → f x = g y) : xs.map f = ys.map g := by
  rw [← List.forall₂_eq_eq_eq, List.forall₂_map_left_iff, List.forall₂_map_right_iff]
  exact h.imp hvalue

/-- Two views whose nodes correspond so that no question tells them apart. -/
structure View.Alike {ν μ : Type} (left : View ν) (right : View μ) (same : ν → μ → Prop) :
    Prop where
  /-- Every path with a step leads from the tops to nodes that correspond. -/
  findAll_root : ∀ path : Path, path.isEmpty = false →
    List.Forall₂ same (left.findAll left.root path) (right.findAll right.root path)
  /-- Every path with a step leads from nodes that correspond to nodes that do. -/
  findAll : ∀ {node : ν} {other : μ}, same node other → ∀ path : Path, path.isEmpty = false →
    List.Forall₂ same (left.findAll node path) (right.findAll other path)
  name : ∀ {node : ν} {other : μ}, same node other → left.name node = right.name other
  text : ∀ {node : ν} {other : μ}, same node other → left.text node = right.text other
  attribute? : ∀ {node : ν} {other : μ}, same node other → ∀ name : String,
    left.attribute? node name = right.attribute? other name

/-! ## What is read from alike views -/

namespace View.Alike

variable {ν μ : Type} {left : View ν} {right : View μ} {same : ν → μ → Prop} {node : ν} {other : μ}

/-- What is read from the first node on a path. -/
theorem map_findFirst?_eq {γ : Type} {f : ν → γ} {g : μ → γ} {path : Path}
    (h : left.Alike right same) (hsame : same node other) (hpath : path.isEmpty = false)
    (hvalue : ∀ x y, same x y → f x = g y) :
    (left.findFirst? node path).map f = (right.findFirst? other path).map g := by
  unfold findFirst?
  rw [← List.head?_map, ← List.head?_map,
    map_eq_map_of_forall₂ (h.findAll hsame path hpath) hvalue]

/-- Rules are attributes, and so they are alike. -/
theorem rule?_eq (h : left.Alike right same) (hsame : same node other) :
    left.rule? node = right.rule? other :=
  h.attribute? hsame Vocabulary.rule

/-- A grant is read from its name, its text and its rules. -/
theorem grant_eq (h : left.Alike right same) (hsame : same node other) :
    left.grant node = right.grant other := by
  have hgroup : (left.findFirst? node (childPath Vocabulary.group)).bind left.rule? =
      (right.findFirst? other (childPath Vocabulary.group)).bind right.rule? := by
    have hpath : (childPath Vocabulary.group).isEmpty = false := rfl
    have hrules := h.map_findFirst?_eq hsame hpath fun x y hxy => h.rule?_eq hxy
    calc (left.findFirst? node (childPath Vocabulary.group)).bind left.rule?
        = ((left.findFirst? node (childPath Vocabulary.group)).map left.rule?).bind id := by
          rw [Option.bind_map]
          rfl
      _ = (right.findFirst? other (childPath Vocabulary.group)).bind right.rule? := by
          rw [hrules, Option.bind_map]
          rfl
  unfold grant
  rw [h.name hsame, h.text hsame, h.rule?_eq hsame, hgroup]

/-- A machine is read from what its paths lead to, one by one. -/
theorem machine_eq (h : left.Alike right same) (hsame : same node other) :
    left.machine node = right.machine other := by
  have hgrants : (left.grants node).map left.grant = (right.grants other).map right.grant :=
    map_eq_map_of_forall₂ (h.findAll hsame childrenPath rfl) fun x y hxy => h.grant_eq hxy
  have hrules : (left.findAll node descendantsPath).map left.rule? =
      (right.findAll other descendantsPath).map right.rule? :=
    map_eq_map_of_forall₂ (h.findAll hsame descendantsPath rfl) fun x y hxy => h.rule?_eq hxy
  have hrule : ((left.findAll node descendantsPath).any fun inner => (left.rule? inner).isSome) =
      (right.findAll other descendantsPath).any fun inner => (right.rule? inner).isSome := by
    have hany : ((left.findAll node descendantsPath).map left.rule?).any Option.isSome =
        ((right.findAll other descendantsPath).map right.rule?).any Option.isSome := by
      rw [hrules]
    rwa [List.any_map, List.any_map] at hany
  have hdate : (left.findFirst? node releaseDatePath).map left.text =
      (right.findFirst? other releaseDatePath).map right.text :=
    h.map_findFirst?_eq hsame rfl fun x y hxy => h.text hxy
  unfold machine
  rw [hgrants, hrule, hdate]

/-- So is a block, of whatever kind, or none. -/
theorem block?_eq (h : left.Alike right same) (hsame : same node other) :
    left.block? node = right.block? other := by
  have hkind : left.kind? node = right.kind? other := by
    unfold kind?
    rw [h.attribute? hsame]
  have hfiles : left.files node = right.files other :=
    map_eq_map_of_forall₂ (h.findAll hsame (childPath Vocabulary.file) rfl)
      fun x y hxy => h.text hxy
  have hmachines : (left.machines node).map left.machine =
      (right.machines other).map right.machine :=
    map_eq_map_of_forall₂ (h.findAll hsame (childPath Vocabulary.machine) rfl)
      fun x y hxy => h.machine_eq hxy
  unfold block?
  rw [hkind, hfiles, hmachines]

/-- **Alike views say the same about rights.** -/
theorem metadata_eq (h : left.Alike right same) : left.metadata = right.metadata := by
  have hpresent : left.hasMetadata = right.hasMetadata := by
    have hlength := (h.findAll_root metadataPath rfl).length_eq
    unfold hasMetadata findFirst?
    rw [Bool.eq_iff_iff, List.isSome_head?, List.isSome_head?, Ne, Ne, ← List.length_eq_zero_iff,
      ← List.length_eq_zero_iff, hlength]
  have hblocks : left.blocks.map left.block? = right.blocks.map right.block? :=
    map_eq_map_of_forall₂ (h.findAll_root blockPath rfl) fun x y hxy => h.block?_eq hxy
  have hread : left.blocks.filterMap left.block? = right.blocks.filterMap right.block? := by
    have hsome := congrArg (List.filterMap id) hblocks
    simpa only [List.filterMap_map, Function.id_comp] using hsome
  unfold metadata
  rw [hpresent, hread]

end View.Alike

/-! ## Nodes with other numbers -/

/-- The node with a number that is greater by `k`. -/
def Node.later (k : Nat) (node : Node) : Node :=
  { node with number := node.number + k }

namespace Content

/-- Counting from further on moves the numbers of the elements at the top and nothing else. -/
theorem elementsFrom_add (k start : Nat) (content : Content) :
    content.elementsFrom (start + k) = (content.elementsFrom start).map (Node.later k) := by
  induction content generalizing start with
  | nil => rfl
  | text value rest ih => exact ih start
  | element name attributes inner rest _ ihrest =>
    rw [elementsFrom, elementsFrom, List.map_cons, ← ihrest]
    congr 2
    omega

/-- So it does for those at any depth. -/
theorem nodesFrom_add (k start : Nat) (content : Content) :
    content.nodesFrom (start + k) = (content.nodesFrom start).map (Node.later k) := by
  induction content generalizing start with
  | nil => rfl
  | text value rest ih => exact ih start
  | element name attributes inner rest ihinner ihrest =>
    rw [nodesFrom, nodesFrom, List.map_cons, List.map_append, ← ihinner, ← ihrest]
    congr 3 <;> omega

end Content

/-- Merging compares numbers only, and these all move by the same. -/
theorem mergeByNumber_map_later (k : Nat) (nodes others : List Node) :
    mergeByNumber (nodes.map (Node.later k)) (others.map (Node.later k)) =
      (mergeByNumber nodes others).map (Node.later k) := by
  induction nodes generalizing others with
  | nil => rfl
  | cons node nodes ih =>
    have hbefore : (fun other : Node => decide (other.number < (node.later k).number)) ∘
        Node.later k = fun other => decide (other.number < node.number) := by
      funext other
      simp [Node.later]
    have hafter : (fun other : Node => decide (other.number ≤ (node.later k).number)) ∘
        Node.later k = fun other => decide (other.number ≤ node.number) := by
      funext other
      simp [Node.later]
    rw [List.map_cons, mergeByNumber, mergeByNumber, List.takeWhile_map, List.dropWhile_map,
      hbefore, hafter, ih, List.map_append, List.map_cons]

namespace Node

variable (k : Nat)

theorem along_later (node : Node) (axis : Axis) :
    (node.later k).along axis = (node.along axis).map (later k) := by
  have hnumber : (node.later k).number + 1 = (node.number + 1) + k := Nat.add_right_comm _ _ _
  cases axis with
  | child =>
    show node.content.elementsFrom ((node.later k).number + 1) = _
    rw [hnumber]
    exact Content.elementsFrom_add k _ _
  | descendant =>
    show node.content.nodesFrom ((node.later k).number + 1) = _
    rw [hnumber]
    exact Content.nodesFrom_add k _ _

/-- A step leads from the moved node to what it led to before, moved. -/
theorem select_later (node : Node) (step : Step) :
    (node.later k).select step = (node.select step).map (later k) := by
  unfold select
  rw [along_later, List.filter_map]
  rfl

theorem selectAll_later (nodes : List Node) (step : Step) :
    selectAll (nodes.map (later k)) step = (selectAll nodes step).map (later k) := by
  induction nodes with
  | nil => rfl
  | cons node nodes ih =>
    show mergeByNumber _ (selectAll (nodes.map (later k)) step) = _
    rw [ih, select_later]
    exact mergeByNumber_map_later k _ _

/-- **So do all steps of a path.** -/
theorem foldl_selectAll_later (steps : List Step) (nodes : List Node) :
    steps.foldl selectAll (nodes.map (later k)) = (steps.foldl selectAll nodes).map (later k) := by
  induction steps generalizing nodes with
  | nil => rfl
  | cons step steps ih => rw [List.foldl_cons, List.foldl_cons, selectAll_later, ih]

/-- **Paths follow a shift of all numbers.** -/
theorem findAll_later (node : Node) (path : Path) :
    (node.later k).findAll path = (node.findAll path).map (later k) :=
  foldl_selectAll_later k path.steps [node]

/-- Where a path with a step leads to depends only on what is inside of the node. -/
theorem findAll_congr {node other : Node} (h : ∀ axis, node.along axis = other.along axis)
    {path : Path} (hpath : path.isEmpty = false) : node.findAll path = other.findAll path := by
  obtain ⟨step, steps, hsteps⟩ := List.exists_cons_of_ne_nil (List.isEmpty_eq_false_iff.mp hpath)
  have hselect : selectAll [node] step = selectAll [other] step := by
    show mergeByNumber (node.select step) [] = mergeByNumber (other.select step) []
    unfold select
    rw [h]
  unfold findAll
  rw [hsteps, List.foldl_cons, List.foldl_cons, hselect]

end Node

/-! ## An element in the place of a document -/

section Part

variable {node : Node} {part : Document}

/-- What is inside of the element is inside of the document, with a constant added to the
numbers. -/
theorem Node.along_eq_of_part
    (hpart : part.content.withoutOuterText = node.content.withoutOuterText)
    (axis : Axis) : node.along axis = (part.root.later node.number).along axis := by
  rw [along_later]
  cases axis with
  | child =>
    show node.content.elementsFrom (node.number + 1) = (part.content.elementsFrom 1).map _
    rw [← Content.elementsFrom_add, ← node.content.elementsFrom_withoutOuterText, ← hpart,
      Content.elementsFrom_withoutOuterText, Nat.add_comm]
  | descendant =>
    show node.content.nodesFrom (node.number + 1) = (part.content.nodesFrom 1).map _
    rw [← Content.nodesFrom_add, ← node.content.nodesFrom_withoutOuterText, ← hpart,
      Content.nodesFrom_withoutOuterText, Nat.add_comm]

/-- **A document seen from an element is alike to a document that holds what is inside of the
element.**  Text right inside of the element may be missing there. -/
theorem Node.alike_document
    (hpart : part.content.withoutOuterText = node.content.withoutOuterText) :
    node.view.Alike part.view fun inner outer => inner = outer.later node.number where
  findAll_root := by
    intro path hpath
    have hfound : node.findAll path = (part.root.findAll path).map (later node.number) := by
      rw [findAll_congr (along_eq_of_part hpart) hpath, findAll_later]
    show List.Forall₂ _ (node.findAll path) (part.root.findAll path)
    rw [hfound, List.forall₂_map_left_iff, List.forall₂_same]
    exact fun _ _ => rfl
  findAll := by
    rintro _ outer rfl path -
    show List.Forall₂ _ ((outer.later node.number).findAll path) (outer.findAll path)
    rw [findAll_later, List.forall₂_map_left_iff, List.forall₂_same]
    exact fun _ _ => rfl
  name := by
    rintro _ outer rfl
    rfl
  text := by
    rintro _ outer rfl
    rfl
  attribute? := by
    rintro _ outer rfl name
    rfl

end Part

/-! ## A document seen by numbers -/

namespace Document

variable (document : Document)

/-- A document of which only the numbers of the nodes are shown. -/
def numbered : View Nat where
  root := 0
  findAll number path :=
    ((document.node? number).toList.flatMap fun node => node.findAll path).map Node.number
  name number := (document.node? number).elim "" Node.name
  text number := (document.node? number).elim "" Node.text
  attribute? number name := (document.node? number).bind fun node => node.attribute? name

/-- **A document seen by numbers is alike to the document.** -/
theorem alike_numbered :
    document.view.Alike document.numbered fun node number =>
      node ∈ document.root :: document.elements ∧ node.number = number := by
  have hfound : ∀ node ∈ document.root :: document.elements, ∀ path : Path,
      List.Forall₂ (fun node number =>
        node ∈ document.root :: document.elements ∧ node.number = number)
        (node.findAll path) (document.numbered.findAll node.number path) := by
    intro node hnode path
    have hinside : ∀ reached ∈ node.findAll path,
        reached ∈ document.root :: document.elements := fun reached hreached =>
      Document.mem_of_reaches hnode
        (((Node.inOrder_findAll node path.steps).2 reached).mp hreached)
    have hsame : document.numbered.findAll node.number path =
        (node.findAll path).map Node.number := by
      simp [numbered, node?_number hnode]
    rw [hsame, List.forall₂_map_right_iff, List.forall₂_same]
    exact fun reached hreached => ⟨hinside reached hreached, rfl⟩
  constructor
  case findAll_root =>
    exact fun path _ => hfound document.root List.mem_cons_self path
  case findAll =>
    rintro node _ ⟨hnode, rfl⟩ path -
    exact hfound node hnode path
  case name =>
    rintro node _ ⟨hnode, rfl⟩
    simp [numbered, node?_number hnode, view, Node.view]
  case text =>
    rintro node _ ⟨hnode, rfl⟩
    simp [numbered, node?_number hnode, view, Node.view]
  case attribute? =>
    rintro node _ ⟨hnode, rfl⟩ name
    simp [numbered, node?_number hnode, view, Node.view]

end Document

/-! ## Evaluation -/

/-- **Evaluation sees a document only through its view.**  Alike views give the same
evaluation, or the same fault, and the same findings.  In particular, seen from one of its
elements a document is evaluated as a document of its own is that holds what is inside of
the element. -/
theorem View.evaluate_eq_of_alike {options : Options} {instant : Calendar.Instant}
    (hpinned : options.evaluatedAt = some instant) (now now' : Calendar.Instant) :
    (∀ (ν μ : Type) (left : View ν) (right : View μ) (same : ν → μ → Prop),
        left.Alike right same →
          left.evaluate options now = right.evaluate options now' ∧
            left.findings = right.findings) ∧
      ∀ (document part : Document), ∀ node ∈ document.elements,
        part.content.withoutOuterText = node.content.withoutOuterText →
          View.evaluate { document.view with root := node } options now =
              part.view.evaluate options now' ∧
            View.findings { document.view with root := node } = part.view.findings := by
  have halike : ∀ (ν μ : Type) (left : View ν) (right : View μ) (same : ν → μ → Prop),
      left.Alike right same →
        left.evaluate options now = right.evaluate options now' ∧
          left.findings = right.findings := by
    intro ν μ left right same h
    unfold View.evaluate View.findings
    rw [h.metadata_eq]
    exact ⟨Metadata.evaluate_of_pinned hpinned _ now now', rfl⟩
  refine ⟨halike, fun document part node _ hpart => ?_⟩
  exact halike _ _ node.view part.view _ (Node.alike_document hpart)

/-- Rights of a collection, and of an annex to it under a rule. -/
def Document.collection : Document :=
  ⟨.element "collection" []
    (.element "rightsMetadata" []
      (.element "access" [("type", "read")]
        (.element "machine" [] (.element "world" [] .nil .nil) .nil) .nil)
      (.element "annex" []
        (.text "see also"
          (.element "rightsMetadata" []
            (.element "access" [("type", "read")]
              (.element "machine" [] (.element "world" [("rule", "no-download")] .nil .nil) .nil)
              .nil) .nil)) .nil)) .nil⟩

/-- What is inside of the annex. -/
def Document.annex : Document :=
  ⟨.element "rightsMetadata" []
    (.element "access" [("type", "read")]
      (.element "machine" [] (.element "world" [("rule", "no-download")] .nil .nil) .nil) .nil)
    .nil⟩

/-- The annex has a number of its own in the collection, and the nodes inside of it have
other numbers than in a document of their own.  Only seen from there is the world bound to
the rule. -/
theorem View.evaluate_eq_of_alike_annex : ∃ node ∈ Document.collection.elements,
    node.number = 6 ∧
      Document.annex.content.withoutOuterText = node.content.withoutOuterText ∧
      Document.collection.view.evaluate ⟨true, some ⟨0, 0⟩⟩ ⟨1, 0⟩ =
        Document.collection.numbered.evaluate ⟨true, some ⟨0, 0⟩⟩ ⟨2, 0⟩ ∧
      View.evaluate { Document.collection.view with root := node } ⟨true, some ⟨0, 0⟩⟩ ⟨1, 0⟩ =
        Document.annex.view.evaluate ⟨true, some ⟨0, 0⟩⟩ ⟨2, 0⟩ ∧
      (∃ evaluation,
        Document.collection.view.evaluate ⟨true, some ⟨0, 0⟩⟩ ⟨1, 0⟩ = .ok evaluation ∧
          evaluation.objectRight .world = ⟨true, none⟩) ∧
      ∃ evaluation, Document.annex.view.evaluate ⟨true, some ⟨0, 0⟩⟩ ⟨2, 0⟩ = .ok evaluation ∧
        evaluation.objectRight .world = ⟨true, some "no-download"⟩ := by
  have hpinned : (⟨true, some ⟨0, 0⟩⟩ : Options).evaluatedAt = some ⟨0, 0⟩ := rfl
  obtain ⟨halike, hpart⟩ := View.evaluate_eq_of_alike hpinned ⟨1, 0⟩ ⟨2, 0⟩
  obtain ⟨node, hnode⟩ : ∃ node, Document.collection.elements[5]? = some node := ⟨_, rfl⟩
  have hmem : node ∈ Document.collection.elements := List.mem_of_getElem? hnode
  have hnumber : node.number = 6 := by
    cases hnode
    rfl
  have hcontent : Document.annex.content.withoutOuterText = node.content.withoutOuterText := by
    cases hnode
    rfl
  refine ⟨node, hmem, hnumber, hcontent, ?_, ?_, ⟨_, rfl, rfl⟩, ⟨_, rfl, rfl⟩⟩
  · exact (halike _ _ _ _ _ Document.collection.alike_numbered).1
  · exact (hpart Document.collection Document.annex node hmem hcontent).1

end AccessRights
