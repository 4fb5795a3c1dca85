import AccessRights.Evaluation.Answers
import AccessRights.Proofs.Evaluated

/-!
# What options decide

Options say two things: whether to work out a summary for the index, and with which
instant to compare the release date.  `View.evaluate_differ_by_options` compares two
evaluations of one document under any two options and says how far apart they can be.
They fail together and with one fault.  Where they succeed, the entitlements and the
release date are the same, so that no answer to a question of access depends on how it
was asked for; only the summary may be missing, and only the embargo may have ended.

## What carries the argument

The two evaluations do not take the same steps.  With a summary to work out, reading the
grants keeps a record on the way, which goes through every grant of either scope, and
without one it does not.  That this makes no difference to the entitlements is settled by
an induction over the grants and one over the blocks (`run_readEntitlements`,
`run_readFiles`), which gives every field of a result without the record
(`View.evaluate_eq_ok_iff`).

The fault is one of the release date alone, whatever is recorded before it is read
(`View.evaluate_eq_error_iff`).  What is left is that a release date which is still to come
at some instant was still to come before (`Calendar.Instant.lt_of_not_lt_of_lt`).
-/

namespace AccessRights

/-- What is after the later of two instants is after the earlier one. -/
theorem Calendar.Instant.lt_of_not_lt_of_lt {early late date : Instant} (h : ¬ late < early)
    (hdate : late < date) : early < date := by
  rw [lt_iff] at h hdate ⊢
  omega

/-- The questions about the index are answered exactly if the options ask for a summary,
all three of them or none. -/
structure Evaluation.AnswersIndexBy (evaluation : Evaluation) (options : Options) : Prop where
  summary : (∃ summary, evaluation.summary = .ok summary) ↔ options.forIndex = true
  isDark : (∃ answer, evaluation.isDark = .ok answer) ↔ options.forIndex = true
  isCitation : (∃ answer, evaluation.isCitation = .ok answer) ↔ options.forIndex = true

/-- Two evaluations differ by no more than their options account for.  `early` is
evaluated at an instant that is not after that of `late`. -/
structure Evaluation.DifferByOptions (early late : Options) (before after : Evaluation) :
    Prop where
  object : before.object = after.object
  files : before.files = after.files
  release : before.release = after.release
  /-- Where both work out a summary, it is one and the same. -/
  summary : early.forIndex = true → late.forIndex = true → before.summary = after.summary
  answersIndex_before : before.AnswersIndexBy early
  answersIndex_after : after.AnswersIndexBy late
  /-- Time can end an embargo and never starts one. -/
  isEmbargoed : after.isEmbargoed = true → before.isEmbargoed = true

namespace View

variable {ν : Type} {view : View ν} {options : Options} {now : Calendar.Instant}
  {evaluation : Evaluation}

/-- The three questions look at one summary and are refused together. -/
theorem answersIndexBy_of_evaluate (h : view.evaluate options now = .ok evaluation) :
    evaluation.AnswersIndexBy options := by
  cases hindex : options.forIndex with
  | true =>
    have hsome := index_of_evaluate h hindex
    obtain ⟨_, _, _, _, _⟩ := evaluation
    obtain rfl := hsome
    exact {
      summary := iff_of_true ⟨_, rfl⟩ hindex
      isDark := iff_of_true ⟨_, rfl⟩ hindex
      isCitation := iff_of_true ⟨_, rfl⟩ hindex }
  | false =>
    have hnone := index_of_evaluate_of_not_forIndex h hindex
    have hrefused : ¬ options.forIndex = true := by
      rw [hindex]
      exact Bool.false_ne_true
    obtain ⟨_, _, _, _, _⟩ := evaluation
    obtain rfl := hnone
    exact {
      summary := iff_of_false (fun ⟨_, hanswer⟩ => nomatch hanswer) hrefused
      isDark := iff_of_false (fun ⟨_, hanswer⟩ => nomatch hanswer) hrefused
      isCitation := iff_of_false (fun ⟨_, hanswer⟩ => nomatch hanswer) hrefused }

/-- The release date does not depend on the options. -/
theorem release_eq_of_evaluate {left right : Options} {now now' : Calendar.Instant}
    {before after : Evaluation} (hbefore : view.evaluate left now = .ok before)
    (hafter : view.evaluate right now' = .ok after) : before.release = after.release :=
  Except.ok.inj ((release_of_evaluate hbefore).symm.trans (release_of_evaluate hafter))

/-- Two results for one document differ by no more than their options account for. -/
theorem differByOptions_of_evaluate {early late : Options} {now now' : Calendar.Instant}
    {before after : Evaluation} (htime : ¬ late.instant now' < early.instant now)
    (hbefore : view.evaluate early now = .ok before)
    (hafter : view.evaluate late now' = .ok after) :
    Evaluation.DifferByOptions early late before after where
  object := by rw [object_of_evaluate hbefore, object_of_evaluate hafter]
  files := by rw [files_of_evaluate hbefore, files_of_evaluate hafter]
  release := release_eq_of_evaluate hbefore hafter
  summary := by
    intro hearly hlate
    rw [summary_of_evaluate hbefore hearly, summary_of_evaluate hafter hlate]
  answersIndex_before := answersIndexBy_of_evaluate hbefore
  answersIndex_after := answersIndexBy_of_evaluate hafter
  isEmbargoed := by
    intro hembargoed
    obtain ⟨date, hdate, hlt⟩ := (isEmbargoed_iff_of_evaluate hafter).mp hembargoed
    rw [isEmbargoed_iff_of_evaluate hbefore, release_eq_of_evaluate hbefore hafter]
    exact ⟨date, hdate, Calendar.Instant.lt_of_not_lt_of_lt htime hlt⟩

/-- **Options decide about the embargo and the index only.**  Two evaluations of one
document fail with the same fault, or both succeed and differ by no more than whether
there is a summary and whether the embargo has ended by the later of the two instants. -/
theorem evaluate_differ_by_options (view : View ν) {early late : Options}
    {now now' : Calendar.Instant} (htime : ¬ late.instant now' < early.instant now) :
    (∃ fault, view.evaluate early now = .error fault ∧
      view.evaluate late now' = .error fault) ∨
    ∃ before after, view.evaluate early now = .ok before ∧
      view.evaluate late now' = .ok after ∧
      Evaluation.DifferByOptions early late before after := by
  rcases evaluate_both rfl early late now now' with hfault | ⟨before, after, hbefore, hafter⟩
  · exact .inl hfault
  · exact .inr ⟨before, after, hbefore, hafter, differByOptions_of_evaluate htime hbefore hafter⟩

end View

/-- Held back until a day in 2031, and open from then on to the world and to an agent, which
is named twice. -/
def Document.heldBack : Document :=
  ⟨.element "rightsMetadata" []
    (.element "access" [("type", "read")]
      (.element "machine" []
        (.element "world" [] .nil
          (.element "agent" [("rule", "preview")] (.text "app" .nil)
            (.element "agent" [] (.text "app" .nil)
              (.element "embargoReleaseDate" [] (.text "2031-05-04" .nil) .nil)))) .nil) .nil) .nil⟩

theorem View.evaluate_differ_by_options_heldBack : ∃ before after,
    Document.heldBack.view.evaluate ⟨true, some ⟨1900000000, 0⟩⟩ ⟨0, 0⟩ = .ok before ∧
      Document.heldBack.view.evaluate .default ⟨1950000000, 0⟩ = .ok after ∧
      before.isEmbargoed = true ∧ after.isEmbargoed = false ∧
      before.object = after.object ∧
      before.index.map (·.object.agentRules) = some [⟨"app", some "preview"⟩, ⟨"app", none⟩] ∧
      (∃ answer, before.isDark = .ok answer) ∧ ¬ ∃ answer, after.isDark = .ok answer := by
  have hbefore : Document.heldBack.view.evaluate ⟨true, some ⟨1900000000, 0⟩⟩ ⟨0, 0⟩ = .ok _ := rfl
  have hafter : Document.heldBack.view.evaluate .default ⟨1950000000, 0⟩ = .ok _ := rfl
  have htime : ¬ Options.default.instant ⟨1950000000, 0⟩ <
      (⟨true, some ⟨1900000000, 0⟩⟩ : Options).instant ⟨0, 0⟩ := by
    decide
  rcases evaluate_differ_by_options Document.heldBack.view htime with
    ⟨fault, hfault, -⟩ | ⟨before, after, h, h', hdiffer⟩
  · cases hbefore.symm.trans hfault
  · cases hbefore.symm.trans h
    cases hafter.symm.trans h'
    refine ⟨_, _, hbefore, hafter, rfl, rfl, hdiffer.object, by decide +kernel,
      hdiffer.answersIndex_before.isDark.mpr rfl, fun hanswer => ?_⟩
    cases hdiffer.answersIndex_after.isDark.mp hanswer

end AccessRights
