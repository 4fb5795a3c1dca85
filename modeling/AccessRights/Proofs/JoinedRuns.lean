import AccessRights.Proofs.Spelling

/-!
# Content with its runs of text joined

How text is cut into runs depends on how it was written, and it is not part of what a
document shows.  `Content.joined` joins neighbouring runs and drops empty ones, and of two
contents which are the same then the documents show the same (`Document.shown_joined`): the
same elements with their numbers, names, attributes, children and texts.

Joining goes through the content with the run that is not complete yet
(`Content.joinFrom`), and where that run ends it is put in front of what follows
(`Content.behind`).
-/

namespace AccessRights

/-! ## Content with its runs joined -/

namespace Content

/-- The content behind a run of text, which is no run if it is empty. -/
def behind (run : String) (content : Content) : Content :=
  if run = "" then content else text run content

/-- The content with neighbouring runs joined and empty ones dropped, where `run` stands in
front of it. -/
def joinFrom : String → Content → Content
  | run, nil => nil.behind run
  | run, text value rest => rest.joinFrom (run ++ value)
  | run, element name attributes inner rest =>
    (element name attributes (inner.joinFrom "") (rest.joinFrom "")).behind run

/-- The content with neighbouring runs joined and empty ones dropped. -/
def joined (content : Content) : Content :=
  content.joinFrom ""

theorem behind_empty (content : Content) : content.behind "" = content :=
  if_pos rfl

/-- A run in front of content adds no element. -/
theorem size_behind (run : String) (content : Content) :
    (content.behind run).size = content.size := by
  unfold behind
  split <;> rfl

/-- It adds its text in front. -/
theorem allText_behind (run : String) (content : Content) :
    (content.behind run).allText = run ++ content.allText := by
  unfold behind
  split
  · next hrun => rw [hrun, String.empty_append]
  · rfl

/-- It moves no element, at any depth. -/
theorem nodesFrom_behind (k : Nat) (run : String) (content : Content) :
    (content.behind run).nodesFrom k = content.nodesFrom k := by
  unfold behind
  split <;> rfl

/-- Nor at the top. -/
theorem elementsFrom_behind (k : Nat) (run : String) (content : Content) :
    (content.behind run).elementsFrom k = content.elementsFrom k := by
  unfold behind
  split <;> rfl

theorem withoutOuterText_behind (run : String) (content : Content) :
    (content.behind run).withoutOuterText = content.withoutOuterText := by
  unfold behind
  split <;> rfl

/-- Joining runs leaves the number of elements as it is. -/
theorem size_joinFrom (run : String) (content : Content) :
    (content.joinFrom run).size = content.size := by
  induction content generalizing run with
  | nil => exact size_behind run nil
  | text value rest ih => exact ih (run ++ value)
  | element name attributes inner rest ihinner ihrest =>
    rw [joinFrom, size_behind, size_element, size_element, ihinner, ihrest]

/-- Joining runs loses no text. -/
theorem allText_joinFrom (run : String) (content : Content) :
    (content.joinFrom run).allText = run ++ content.allText := by
  induction content generalizing run with
  | nil => exact allText_behind run nil
  | text value rest ih => rw [joinFrom, ih, allText, String.append_assoc]
  | element name attributes inner rest ihinner ihrest =>
    rw [joinFrom, allText_behind, allText, allText, ihinner, ihrest, String.empty_append,
      String.empty_append]

/-- Outside of every element there is nothing to join once the text is dropped. -/
theorem withoutOuterText_joinFrom (run : String) (content : Content) :
    (content.joinFrom run).withoutOuterText = content.withoutOuterText.joined := by
  induction content generalizing run with
  | nil => exact withoutOuterText_behind run nil
  | text value rest ih => exact ih (run ++ value)
  | element name attributes inner rest _ ihrest =>
    rw [joinFrom, withoutOuterText_behind, withoutOuterText, withoutOuterText, joined, joinFrom,
      behind_empty, ihrest, joined]

end Content

/-! ## What a document shows -/

namespace Node

/-- What can be asked of a node: its number, name and attributes, the numbers of its
children, and its text. -/
def shown (node : Node) : Nat × String × List (String × String) × List Nat × String :=
  (node.number, node.name, node.attributes, node.children.map Node.number, node.text)

/-- The node with the runs of its content joined. -/
def joined (node : Node) : Node :=
  { node with content := node.content.joined }

end Node

namespace Content

/-- The elements at the top stay, in place and number, each with its own runs joined. -/
theorem elementsFrom_joinFrom (k : Nat) (run : String) (content : Content) :
    (content.joinFrom run).elementsFrom k = (content.elementsFrom k).map Node.joined := by
  induction content generalizing k run with
  | nil => exact elementsFrom_behind k run nil
  | text value rest ih => exact ih k (run ++ value)
  | element name attributes inner rest _ ihrest =>
    rw [joinFrom, elementsFrom_behind, elementsFrom, elementsFrom, List.map_cons, ihrest,
      size_joinFrom]
    rfl

/-- So do those at any depth. -/
theorem nodesFrom_joinFrom (k : Nat) (run : String) (content : Content) :
    (content.joinFrom run).nodesFrom k = (content.nodesFrom k).map Node.joined := by
  induction content generalizing k run with
  | nil => exact nodesFrom_behind k run nil
  | text value rest ih => exact ih k (run ++ value)
  | element name attributes inner rest ihinner ihrest =>
    rw [joinFrom, nodesFrom_behind, nodesFrom, nodesFrom, List.map_cons, List.map_append, ihinner,
      ihrest, size_joinFrom]
    rfl

end Content

/-- **How text is cut into runs does not show.** -/
theorem Node.shown_joined (node : Node) : node.joined.shown = node.shown := by
  have hchildren : node.joined.children.map Node.number = node.children.map Node.number := by
    show ((node.content.joinFrom "").elementsFrom _).map Node.number = _
    rw [Content.elementsFrom_joinFrom, List.map_map]
    rfl
  have htext : node.joined.text = node.text := by
    show (node.content.joinFrom "").allText = _
    rw [Content.allText_joinFrom, String.empty_append]
    rfl
  rw [shown, hchildren, htext]
  rfl

namespace Document

/-- All that a document shows: what can be asked of the document as a whole and of each of its
elements. -/
def shown (document : Document) :
    List (Nat × String × List (String × String) × List Nat × String) :=
  (document.root :: document.elements).map Node.shown

/-- **Joining runs changes nothing that is shown of a document.** -/
theorem shown_joined (content : Content) :
    (⟨content.joined⟩ : Document).shown = (⟨content⟩ : Document).shown := by
  have hroot : (⟨content.joined⟩ : Document).root = (⟨content⟩ : Document).root.joined := rfl
  have helements : (⟨content.joined⟩ : Document).elements =
      (⟨content⟩ : Document).elements.map Node.joined :=
    Content.nodesFrom_joinFrom 1 "" content
  rw [shown, hroot, helements, List.map_cons, List.map_map, Node.shown_joined]
  refine congrArg (_ :: ·) (List.map_congr_left fun node _ => node.shown_joined)

end Document

end AccessRights
