import AccessRights.Proofs.BlockTrees
import AccessRights.Proofs.Evaluated

/-!
# One element decides about the embargo

A document may hold any number of release dates: for finding and for reading, about the
object and about files, outside of every machine, one inside another.  At most one of them
counts.  `Document.DecidesRelease` says which: the first one, at any depth, in the first
machine for reading that has any, where it makes no difference whether a block is about the
object or about files.  `Document.embargo_decided` says that evaluation looks at this one
element and takes nothing but its text from it.

Being malformed is no reason to pass a date over.  Where the text of the one that counts is
not a date there is no result at all, however well the others read.

## Other dates

That no other date has any effect is a statement on two documents.  If the dates that count
have the same text, all that is said of the embargo is the same (`View.embargo`).  And which
element counts depends on the tags alone: it stays the same one under any change of the text
in a document (`Document.map_withoutText_releaseDates`).
-/

namespace AccessRights

open AccessRights.Calendar

/-! ## The date that counts -/

/-- The release dates inside a node, at any depth. -/
def Node.releaseDates (node : Node) : List Node :=
  node.descendants.filter fun inner => inner.name = Vocabulary.releaseDate

namespace Document

variable {document : Document} {date : Node}

/-- The machines of all blocks for reading, whatever these are about: the blocks in document
order, and then the machines of each. -/
def readingMachines (document : Document) : List Node :=
  (document.blocksOfKind .read).flatMap fun block => block.childrenNamed Vocabulary.machine

/-- The element is the first release date in the first machine for reading that has one. -/
def DecidesRelease (document : Document) (date : Node) : Prop :=
  ∃ before machine after, document.readingMachines = before ++ machine :: after ∧
    machine.releaseDates.head? = some date ∧ ∀ earlier ∈ before, earlier.releaseDates = []

/-- The date that decides is the first of all that are pooled. -/
theorem decidesRelease_iff :
    document.DecidesRelease date ↔ document.releaseDates.head? = some date := by
  have hpooled : document.releaseDates = document.readingMachines.flatMap Node.releaseDates := rfl
  rw [hpooled, List.head?_flatMap, List.findSome?_eq_some_iff]
  simp only [List.head?_eq_none_iff]
  exact Iff.rfl

/-- The text of the date that counts is what is read. -/
theorem DecidesRelease.releaseDate? (h : document.DecidesRelease date) :
    document.view.metadata.releaseDate? = some date.text := by
  rw [metadata_releaseDate?, decidesRelease_iff.mp h]
  rfl

/-- Where none decides none is read. -/
theorem releaseDate?_eq_none (h : ¬ ∃ date, document.DecidesRelease date) :
    document.view.metadata.releaseDate? = none := by
  have hnone : document.releaseDates.head? = none := by
    rw [Option.eq_none_iff_forall_ne_some]
    exact fun date hdate => h ⟨date, decidesRelease_iff.mpr hdate⟩
  rw [metadata_releaseDate?, hnone]
  rfl

end Document

/-! ## Tags without text -/

/-- The elements with all their tags, and no text. -/
def Content.withoutText : Content → Content
  | .nil => .nil
  | .text _ rest => rest.withoutText
  | .element name attributes inner rest =>
    .element name attributes inner.withoutText rest.withoutText

/-- The node with its tags alone. -/
def Node.withoutText (node : Node) : Node :=
  { node with content := node.content.withoutText }

namespace Content

@[simp] theorem size_withoutText (content : Content) : content.withoutText.size = content.size := by
  induction content with
  | nil => rfl
  | text value rest ih => exact ih
  | element name attributes inner rest ihinner ihrest =>
    rw [withoutText, size_element, size_element, ihinner, ihrest]

/-- Without their text the elements at the top stay where they are. -/
theorem elementsFrom_withoutText (k : Nat) (content : Content) :
    content.withoutText.elementsFrom k = (content.elementsFrom k).map Node.withoutText := by
  induction content generalizing k with
  | nil => rfl
  | text value rest ih => exact ih k
  | element name attributes inner rest _ ihrest =>
    rw [withoutText, elementsFrom, elementsFrom, List.map_cons, ihrest, size_withoutText]
    rfl

/-- So do those at any depth. -/
theorem nodesFrom_withoutText (k : Nat) (content : Content) :
    content.withoutText.nodesFrom k = (content.nodesFrom k).map Node.withoutText := by
  induction content generalizing k with
  | nil => rfl
  | text value rest ih => exact ih k
  | element name attributes inner rest ihinner ihrest =>
    rw [withoutText, nodesFrom, nodesFrom, List.map_cons, List.map_append, ihinner, ihrest,
      size_withoutText]
    rfl

/-- Where blocks stand has nothing to do with text. -/
theorem blockNodesFrom_withoutText (k : Nat) (inRights : Bool) (content : Content) :
    content.withoutText.blockNodesFrom k inRights =
      (content.blockNodesFrom k inRights).map Node.withoutText := by
  induction content generalizing k inRights with
  | nil => rfl
  | text value rest ih => exact ih k inRights
  | element name attributes inner rest ihinner ihrest =>
    rw [withoutText, blockNodesFrom, blockNodesFrom, List.map_append, List.map_append, ihinner,
      ihrest, size_withoutText]
    split <;> rfl

end Content

namespace Node

theorem childrenNamed_withoutText (node : Node) (name : String) :
    node.withoutText.childrenNamed name = (node.childrenNamed name).map withoutText := by
  have hchildren : node.withoutText.children = node.children.map withoutText :=
    node.content.elementsFrom_withoutText _
  unfold childrenNamed
  rw [hchildren, List.filter_map]
  rfl

/-- Nor has where release dates stand. -/
theorem releaseDates_withoutText (node : Node) :
    node.withoutText.releaseDates = node.releaseDates.map withoutText := by
  have hinside : node.withoutText.descendants = node.descendants.map withoutText :=
    node.content.nodesFrom_withoutText _
  unfold releaseDates
  rw [hinside, List.filter_map]
  rfl

end Node

namespace Document

/-- The kind of a block is an attribute, and so the blocks of a kind are the same too. -/
theorem map_withoutText_blocksOfKind (document : Document) (kind : AccessKind) :
    (⟨document.content.withoutText⟩ : Document).blocksOfKind kind =
      (document.blocksOfKind kind).map Node.withoutText := by
  unfold blocksOfKind
  rw [accessBlocks_eq, accessBlocks_eq, Content.blockNodesFrom_withoutText, List.filter_map]
  rfl

/-- **Which dates there are to choose from, and in which order, is a matter of tags.** -/
theorem map_withoutText_releaseDates (document : Document) :
    (⟨document.content.withoutText⟩ : Document).releaseDates =
      document.releaseDates.map Node.withoutText := by
  have hmachines : (⟨document.content.withoutText⟩ : Document).readingMachines =
      document.readingMachines.map Node.withoutText := by
    unfold readingMachines
    rw [map_withoutText_blocksOfKind, List.flatMap_map, List.map_flatMap]
    exact congrArg (List.flatMap · _)
      (funext fun block => block.childrenNamed_withoutText Vocabulary.machine)
  show (⟨document.content.withoutText⟩ : Document).readingMachines.flatMap Node.releaseDates =
    (document.readingMachines.flatMap Node.releaseDates).map Node.withoutText
  rw [hmachines, List.flatMap_map, List.map_flatMap]
  exact congrArg (List.flatMap · _) (funext Node.releaseDates_withoutText)

/-- A change of text moves no element into the place of the date that counts. -/
theorem DecidesRelease.of_withoutText_eq {document other : Document} {date : Node}
    (h : document.DecidesRelease date)
    (htags : other.content.withoutText = document.content.withoutText) :
    ∃ date', other.DecidesRelease date' ∧ date'.withoutText = date.withoutText := by
  have hheads : other.releaseDates.head?.map Node.withoutText = some date.withoutText := by
    rw [← List.head?_map, ← map_withoutText_releaseDates, htags, map_withoutText_releaseDates,
      List.head?_map, decidesRelease_iff.mp h]
    rfl
  obtain ⟨date', hdate', hsame⟩ := Option.map_eq_some_iff.mp hheads
  exact ⟨date', decidesRelease_iff.mpr hdate', hsame⟩

end Document

/-! ## What evaluation says of the embargo -/

/-- All that evaluation says of the embargo: the fault, or else the release date and whether
it is still to come. -/
def View.embargo {ν : Type} (view : View ν) (options : Options) (now : Instant) :
    Except Fault (Option Instant × Bool) :=
  (view.evaluate options now).map fun evaluation => (evaluation.release, evaluation.isEmbargoed)

/-- The embargo follows from the release date and the instant of evaluation. -/
theorem View.embargo_eq {ν : Type} (view : View ν) (options : Options) (now : Instant) :
    view.embargo options now = (readRelease view.metadata.releaseDate?).map fun release =>
      (release, release.any fun date => decide (options.instant now < date)) := by
  rw [embargo, evaluate, Metadata.evaluate_eq]
  cases readRelease view.metadata.releaseDate? with
  | error fault => rfl
  | ok release => rfl

namespace Document

variable {document : Document} {date : Node} {options : Options} {now : Instant}

/-- Without a date that counts nothing is held back. -/
theorem exists_evaluate_of_not_decided (options : Options) (now : Instant)
    (h : ¬ ∃ date, document.DecidesRelease date) :
    ∃ evaluation, document.view.evaluate options now = .ok evaluation ∧
      evaluation.release = none ∧ evaluation.isEmbargoed = false := by
  have hrelease : readRelease document.view.metadata.releaseDate? = .ok none := by
    rw [releaseDate?_eq_none h]
    rfl
  exact ⟨_, View.evaluate_eq_ok_iff.mpr ⟨none, hrelease, rfl⟩, rfl, rfl⟩

/-- A date that counts and does not read as one is reported. -/
theorem DecidesRelease.evaluate_of_error (h : document.DecidesRelease date)
    {problem : DateProblem} (hparse : ReleaseDate.parse date.text = .error problem) :
    document.view.evaluate options now = .error (.releaseDate date.text problem) := by
  rw [View.evaluate_eq_error_iff, h.releaseDate?]
  exact readRelease_of_error hparse

/-- A date that counts and reads as one is the release date. -/
theorem DecidesRelease.exists_evaluate_of_ok (h : document.DecidesRelease date)
    {instant : Instant} (hparse : ReleaseDate.parse date.text = .ok instant) :
    ∃ evaluation, document.view.evaluate options now = .ok evaluation ∧
      evaluation.release = some instant ∧
      (evaluation.isEmbargoed = true ↔ options.instant now < instant) := by
  have hrelease : readRelease document.view.metadata.releaseDate? = .ok (some instant) := by
    rw [h.releaseDate?]
    exact readRelease_of_ok hparse
  obtain ⟨evaluation, hevaluate, hdate⟩ : ∃ evaluation,
      document.view.evaluate options now = .ok evaluation ∧ evaluation.release = some instant :=
    ⟨_, View.evaluate_eq_ok_iff.mpr ⟨some instant, hrelease, rfl⟩, rfl⟩
  refine ⟨evaluation, hevaluate, hdate, ?_⟩
  rw [View.isEmbargoed_iff_of_evaluate hevaluate, hdate]
  constructor
  · rintro ⟨date, hsame, hlt⟩
    cases hsame
    exact hlt
  · exact fun hlt => ⟨instant, rfl, hlt⟩

/-- **One element decides about the embargo.**  Without one that counts there is no release
date and nothing is held back.  With one, evaluation fails exactly where its text is not a
date, with the problem found in that text and the text as it is written; otherwise it is the
release date, and the object is under embargo while that is still to come.  Another document
in which a date of the same text counts says the same of the embargo, and in a document that
differs in text alone it is the same element that counts. -/
theorem embargo_decided (document : Document) (options : Options) (now : Instant) :
    ((¬ ∃ date, document.DecidesRelease date) →
      ∃ evaluation, document.view.evaluate options now = .ok evaluation ∧
        evaluation.release = none ∧ evaluation.isEmbargoed = false) ∧
    ∀ date, document.DecidesRelease date →
      (∀ problem, ReleaseDate.parse date.text = .error problem →
        document.view.evaluate options now = .error (.releaseDate date.text problem)) ∧
      (∀ instant, ReleaseDate.parse date.text = .ok instant →
        ∃ evaluation, document.view.evaluate options now = .ok evaluation ∧
          evaluation.release = some instant ∧
          (evaluation.isEmbargoed = true ↔ options.instant now < instant)) ∧
      ∀ other : Document,
        (∀ date' options' now', other.DecidesRelease date' → date'.text = date.text →
          options'.instant now' = options.instant now →
            other.view.embargo options' now' = document.view.embargo options now) ∧
        (other.content.withoutText = document.content.withoutText →
          ∃ date', other.DecidesRelease date' ∧ date'.number = date.number) := by
  refine ⟨exists_evaluate_of_not_decided options now, fun date hdate => ⟨?_, ?_, ?_⟩⟩
  · exact fun problem hproblem => hdate.evaluate_of_error hproblem
  · exact fun instant hinstant => hdate.exists_evaluate_of_ok hinstant
  · intro other
    refine ⟨fun date' options' now' hdate' htext hinstant => ?_, fun htags => ?_⟩
    · rw [View.embargo_eq, View.embargo_eq, hdate'.releaseDate?, hdate.releaseDate?, htext,
        hinstant]
    · obtain ⟨date', hdate', hsame⟩ := hdate.of_withoutText_eq htags
      have hnumber : date'.withoutText.number = date.withoutText.number :=
        congrArg Node.number hsame
      exact ⟨date', hdate', hnumber⟩

/-- Four release dates: one for finding, one that is cut in two inside of a note, and two
that come after it, in the same machine and in one about the object. -/
def delayed (finding inside after : String) : Document :=
  ⟨.element "rightsMetadata" []
    (.element "access" [("type", "discover")]
      (.element "machine" []
        (.element "embargoReleaseDate" [] (.text finding .nil) .nil) .nil)
      (.element "access" [("type", "read")]
        (.element "file" [] (.text "a.pdf" .nil)
          (.element "machine" [] (.element "world" [] .nil .nil)
            (.element "machine" []
              (.element "note" []
                (.element "embargoReleaseDate" []
                  (.text "2031-" (.element "b" [] (.text "05-04" .nil) .nil)) .nil)
                (.element "embargoReleaseDate" [] (.text inside .nil) .nil)) .nil)))
        (.element "access" [("type", "read")]
          (.element "machine" []
            (.element "embargoReleaseDate" [] (.text after .nil) .nil) .nil) .nil))) .nil⟩

/-- At the very instant of the release nothing is held back any more.  Neither the other dates
nor their being malformed makes a difference. -/
theorem embargo_decided_delayed : ∃ date,
    (delayed "soon" "" "never").DecidesRelease date ∧ date.number = 11 ∧
      ReleaseDate.parse date.text = .ok ⟨1935619200, 0⟩ ∧
      (∃ evaluation,
        (delayed "soon" "" "never").view.evaluate ⟨true, some ⟨1935619200, 0⟩⟩ ⟨0, 0⟩ =
          .ok evaluation ∧
        evaluation.release = some ⟨1935619200, 0⟩ ∧ ¬ evaluation.isEmbargoed = true) ∧
      ∃ date', (delayed "2040-01-01" "1999-01-01" "2041-01-01").DecidesRelease date' ∧
        date'.number = 11 ∧
        (delayed "2040-01-01" "1999-01-01" "2041-01-01").view.embargo .default ⟨7, 0⟩ =
          (delayed "soon" "" "never").view.embargo ⟨true, some ⟨7, 0⟩⟩ ⟨0, 0⟩ := by
  obtain ⟨date, hfirst, hnumber, hparse⟩ : ∃ date,
      (delayed "soon" "" "never").releaseDates.head? = some date ∧ date.number = 11 ∧
        ReleaseDate.parse date.text = .ok ⟨1935619200, 0⟩ :=
    ⟨_, rfl, rfl, rfl⟩
  have hdate : (delayed "soon" "" "never").DecidesRelease date := decidesRelease_iff.mpr hfirst
  obtain ⟨-, hdecided⟩ :=
    embargo_decided (delayed "soon" "" "never") ⟨true, some ⟨1935619200, 0⟩⟩ ⟨0, 0⟩
  obtain ⟨evaluation, hevaluate, hrelease, hembargoed⟩ := (hdecided date hdate).2.1 _ hparse
  obtain ⟨-, hearly⟩ := embargo_decided (delayed "soon" "" "never") ⟨true, some ⟨7, 0⟩⟩ ⟨0, 0⟩
  obtain ⟨hsame, htags⟩ :=
    (hearly date hdate).2.2 (delayed "2040-01-01" "1999-01-01" "2041-01-01")
  obtain ⟨date', hdate', hnumber'⟩ := htags rfl
  have htext : date'.text = date.text := by
    cases hfirst
    cases decidesRelease_iff.mp hdate'
    rfl
  refine ⟨date, hdate, hnumber, hparse, ⟨evaluation, hevaluate, hrelease, ?_⟩, date', hdate',
    hnumber'.trans hnumber, hsame date' .default ⟨7, 0⟩ hdate' htext rfl⟩
  rw [hembargoed]
  decide

end Document

end AccessRights
