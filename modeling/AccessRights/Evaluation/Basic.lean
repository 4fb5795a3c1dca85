import AccessRights.Calendar.ReleaseDate
import AccessRights.Entitlements.Reading
import AccessRights.Index.Summary
import AccessRights.Metadata.OfView
import AccessRights.Text.Quoted

/-!
# Evaluation

What a document entitles to, worked out once so that it can be asked.  Evaluation fails
in two cases only: the text is not readable as markup, or the release date that counts
is not a date.  A release date is never guessed, since neither answer to the question
whether content is held back would be safe.

Only whether content is held back depends on the instant of evaluation, and only the
summary on whether one is asked for.
-/

namespace AccessRights

open AccessRights.Calendar

/-- How to evaluate. -/
structure Options where
  /-- Work out a summary for the index. -/
  forIndex : Bool
  /-- The instant to compare the release date with; without it the clock is asked. -/
  evaluatedAt : Option Instant
  deriving DecidableEq

/-- No summary, and the time of the clock. -/
def Options.default : Options :=
  ⟨false, none⟩

/-- A summary, and the time of the clock. -/
def Options.indexing : Options :=
  ⟨true, none⟩

/-- Why a document could not be evaluated. -/
inductive Fault
  | malformed (problem : Markup.Malformed)
  /-- The text of the release date that counts, as it is written, and what is wrong
  with it. -/
  | releaseDate (text : String) (problem : DateProblem)
  deriving DecidableEq

/-- The report of a document that could not be evaluated. -/
def Fault.message : Fault → String
  | malformed problem => problem.message
  | releaseDate text problem =>
    s!"Malformed embargo release date {Text.quoted text}: {problem.description}"

/-- What a document entitles to. -/
structure Evaluation where
  object : Entitlements
  /-- The files with entitlements of their own. -/
  files : NameMap Entitlements
  release : Option Instant
  /-- The release date lies after the instant of evaluation. -/
  isEmbargoed : Bool
  index : Option Index.Summary
  deriving DecidableEq

/-- The instant that a release date names, if there is one. -/
def readRelease : Option String → Except Fault (Option Instant)
  | none => .ok none
  | some text =>
    match ReleaseDate.parse text with
    | .ok instant => .ok (some instant)
    | .error problem => .error (.releaseDate text problem)

/-- Evaluates what a document says.  `now` is what the clock shows.  A record is kept for each
scope where a summary is asked for, unless there is no rights element. -/
def Metadata.evaluate (metadata : Metadata) (options : Options) (now : Instant) :
    Except Fault Evaluation := do
  let kept : Option Index.Listing :=
    if options.forIndex && metadata.isPresent then some .empty else none
  let (object, objectRecord) :=
    (readEntitlements .object (metadata.grantsOf .read .object)).run kept
  let (files, filesRecord) := (readFiles (metadata.blocksOf .read .files)).run kept
  let release ← readRelease metadata.releaseDate?
  pure {
    object
    files
    release
    isEmbargoed := release.any fun date => decide (options.evaluatedAt.getD now < date)
    index :=
      if options.forIndex then
        some (.ofRecords metadata (objectRecord.getD .empty) (filesRecord.getD .empty))
      else
        none }

/-- Evaluates a document that has been read, or a part of one. -/
def View.evaluate {ν : Type} (view : View ν) (options : Options) (now : Instant) :
    Except Fault Evaluation :=
  view.metadata.evaluate options now

/-- Reads and evaluates a document. -/
def evaluate (text : String) (options : Options) (now : Instant) : Except Fault Evaluation :=
  match Document.read text with
  | .error problem => .error (.malformed problem)
  | .ok document => document.view.evaluate options now

/-- Checks a document for what is missing. -/
def View.findings {ν : Type} (view : View ν) : List Index.Finding :=
  Index.findings view.metadata

end AccessRights
