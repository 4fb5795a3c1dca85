import AccessRights.Index.Label
import AccessRights.Index.Listing

/-!
# Index summaries

All that a search index holds of a document: its label, findings and terms, and who is
named for the object and for files.  A document without a rights element is dark and
has nothing but that finding.
-/

namespace AccessRights.Index

/-- What an index holds of a document. -/
structure Summary where
  label : Label
  findings : List Finding
  terms : List Term
  object : Listing
  files : Listing
  deriving DecidableEq

namespace Summary

/-- The terms in writing. -/
def termTexts (summary : Summary) : List String :=
  summary.terms.map Term.render

/-- Some term is written like this. -/
def hasTerm (summary : Summary) (text : String) : Bool :=
  summary.terms.any fun term => term.render == text

/-- Some finding has this code. -/
def hasFinding (summary : Summary) (code : String) : Bool :=
  summary.findings.any fun finding => finding.code == code

/-- The summary of a document without a rights element. -/
def ofNothing : Summary :=
  ⟨.dark, [.noMetadata], [], .empty, .empty⟩

/-- The summary of a document with the listings of its two scopes. -/
def withListings (metadata : Metadata) (object files : Listing) : Summary :=
  if metadata.isPresent then
    { label := classify (Index.findings metadata) (Index.terms metadata)
      findings := Index.findings metadata
      terms := Index.terms metadata
      object := object
      files := files }
  else
    ofNothing

/-- The summary of a document, with what was recorded of its grants. -/
def ofRecords (metadata : Metadata) (object files : Listing) : Summary :=
  withListings metadata object.withoutRepeats files.withoutRepeats

/-- The summary of a document, by what its grants are. -/
def ofMetadata (metadata : Metadata) : Summary :=
  withListings metadata (.ofGrants [metadata.grantsOf .read .object])
    (.ofGrants ((metadata.blocksOf .read .files).map Block.grants))

end Summary

end AccessRights.Index
