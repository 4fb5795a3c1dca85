import AccessRights.Evaluation.Answers
import AccessRights.Json.Decoding
import AccessRights.Proofs.DocumentOrder
import AccessRights.Proofs.GrantElements
import AccessRights.Proofs.MapEntries
import AccessRights.Proofs.Recording
import AccessRights.Proofs.Evaluated
import AccessRights.Proofs.DocumentAnswers
import AccessRights.Proofs.StanfordCase
import AccessRights.Proofs.TallyEntries
import AccessRights.Proofs.WellFormed
import AccessRights.Proofs.TermFacts
import AccessRights.Proofs.TermTexts
import AccessRights.Proofs.TermsAgree
import AccessRights.Proofs.FindingFacts
import AccessRights.Proofs.LabelDecision
import AccessRights.Proofs.Discovery
import AccessRights.Proofs.ElementTrees
import AccessRights.Proofs.LabelAnswers
import AccessRights.Proofs.Layout
import AccessRights.Proofs.OptionChoice
import AccessRights.Proofs.PoolOrder
import AccessRights.Proofs.BlockTrees
import AccessRights.Proofs.FileBlockFrame
import AccessRights.Proofs.Insertion
import AccessRights.Proofs.Reading
import AccessRights.Proofs.Spelling
import AccessRights.Proofs.Wrapping
import AccessRights.Proofs.Repair
import AccessRights.Proofs.SourceOrder
import AccessRights.Proofs.PathMeaning
import AccessRights.Proofs.Escaping
import AccessRights.Proofs.WrittenMarkup
import AccessRights.Proofs.WrittenTags
import AccessRights.Proofs.Writing
import AccessRights.Proofs.DistinctTerms
import AccessRights.Proofs.FileStatistics
import AccessRights.Proofs.Listings
import AccessRights.Proofs.Fallback
import AccessRights.Proofs.AlikeViews
import AccessRights.Proofs.Embargo
import AccessRights.Proofs.CalendarDays
import AccessRights.Proofs.ImpossibleDates
import AccessRights.Proofs.ReleaseInstants
import AccessRights.Proofs.PathTexts
import AccessRights.Proofs.Fingerprint
import AccessRights.Proofs.FindingsAgree
import AccessRights.Proofs.ElementText
import AccessRights.Proofs.CaseFolding
import AccessRights.Proofs.CompleteTags
import AccessRights.Proofs.CountedKinds
import AccessRights.Proofs.MalformedTags
