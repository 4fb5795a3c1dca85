import AccessRights.Evaluation.Answers
import AccessRights.Proofs.MapEntries
import AccessRights.Proofs.Recording

/-!
# What an evaluation holds

`View.evaluate_eq_ok_iff` says once what evaluation does where it succeeds: it reads the
release date that counts, and every other field is a function of what the document says.
That grants are read with a record kept on the way is dealt with before
(`Metadata.evaluate_eq`).  All laws about evaluations start from here, and none of them opens
`View.evaluate` again.

The two scopes read their grants by one rule and differ only in what they say where
nothing is granted.  `Entitlements.answer?_ofObject` states that difference for all
questions at once: the object answers what a file with the same grants would answer, and
denies what such a file would leave open.
-/

namespace AccessRights

/-- The instant of evaluation.  `now` is what the clock shows. -/
def Options.instant (options : Options) (now : Calendar.Instant) : Calendar.Instant :=
  options.evaluatedAt.getD now

section Outcome

variable {ν : Type} {view : View ν} {options : Options} {now : Calendar.Instant}
  {evaluation : Evaluation}

/-- **Where evaluation succeeds**, and what it gives. -/
theorem View.evaluate_eq_ok_iff :
    view.evaluate options now = .ok evaluation ↔
      ∃ release, readRelease view.metadata.releaseDate? = .ok release ∧
        evaluation = {
          object := view.metadata.objectEntitlements
          files := view.metadata.fileEntitlements
          release := release
          isEmbargoed := release.any fun date => decide (options.evaluatedAt.getD now < date)
          index := if options.forIndex then some (.ofMetadata view.metadata) else none } := by
  rw [View.evaluate, Metadata.evaluate_eq]
  cases readRelease view.metadata.releaseDate? with
  | error fault =>
    constructor
    · intro h
      cases h
    · rintro ⟨release, h, -⟩
      cases h
  | ok release =>
    constructor
    · intro h
      cases h
      exact ⟨release, rfl, rfl⟩
    · rintro ⟨_, h, rfl⟩
      cases h
      rfl

/-- **Where evaluation fails**: exactly where the release date that counts cannot be read,
and with that fault. -/
theorem View.evaluate_eq_error_iff {fault : Fault} :
    view.evaluate options now = .error fault ↔
      readRelease view.metadata.releaseDate? = .error fault := by
  rw [View.evaluate, Metadata.evaluate_eq]
  cases readRelease view.metadata.releaseDate? with
  | error other =>
    show (Except.error other : Except Fault Evaluation) = .error fault ↔ _
    rw [Except.error.injEq, Except.error.injEq]
  | ok release =>
    constructor
    · intro h
      cases h
    · intro h
      cases h

/-- A text that is a date is read as that date. -/
theorem readRelease_of_ok {text : String} {date : Calendar.Instant}
    (h : Calendar.ReleaseDate.parse text = .ok date) :
    readRelease (some text) = .ok (some date) := by
  rw [readRelease, h]

/-- A fault names the whole text, and what is wrong with it. -/
theorem readRelease_of_error {text : String} {problem : Calendar.DateProblem}
    (h : Calendar.ReleaseDate.parse text = .error problem) :
    readRelease (some text) = .error (.releaseDate text problem) := by
  rw [readRelease, h]

/-- The only fault is a release date that is none. -/
theorem exists_eq_releaseDate_of_readRelease {date? : Option String} {fault : Fault}
    (h : readRelease date? = .error fault) :
    ∃ value problem, fault = .releaseDate value problem := by
  unfold readRelease at h
  split at h
  · cases h
  · next value =>
    split at h
    · cases h
    · next problem _ =>
      cases h
      exact ⟨value, problem, rfl⟩

/-- **Evaluation gives a result or names a release date.** -/
theorem View.evaluate_eq_ok_or_error (view : View ν) (options : Options)
    (now : Calendar.Instant) :
    (∃ evaluation, view.evaluate options now = .ok evaluation) ∨
      ∃ value problem, view.evaluate options now = .error (.releaseDate value problem) := by
  cases hevaluate : view.evaluate options now with
  | ok evaluation => exact .inl ⟨evaluation, rfl⟩
  | error fault =>
    obtain ⟨value, problem, rfl⟩ :=
      exists_eq_releaseDate_of_readRelease (View.evaluate_eq_error_iff.mp hevaluate)
    exact .inr ⟨value, problem, rfl⟩

/-- Two evaluations that read the same release date fail with the same fault, or both
succeed. -/
theorem View.evaluate_both {μ : Type} {view : View ν} {other : View μ}
    (h : view.metadata.releaseDate? = other.metadata.releaseDate?) (options options' : Options)
    (now now' : Calendar.Instant) :
    (∃ fault, view.evaluate options now = .error fault ∧
      other.evaluate options' now' = .error fault) ∨
    ∃ evaluation evaluation', view.evaluate options now = .ok evaluation ∧
      other.evaluate options' now' = .ok evaluation' := by
  cases hrelease : readRelease view.metadata.releaseDate? with
  | error fault =>
    left
    exact ⟨fault, View.evaluate_eq_error_iff.mpr hrelease,
      View.evaluate_eq_error_iff.mpr (h ▸ hrelease)⟩
  | ok release =>
    right
    exact ⟨_, _, View.evaluate_eq_ok_iff.mpr ⟨_, hrelease, rfl⟩,
      View.evaluate_eq_ok_iff.mpr ⟨_, h ▸ hrelease, rfl⟩⟩

/-- The clock does not matter where the instant of evaluation is given. -/
theorem Metadata.evaluate_of_pinned {instant : Calendar.Instant}
    (hpinned : options.evaluatedAt = some instant) (metadata : Metadata)
    (now now' : Calendar.Instant) :
    metadata.evaluate options now = metadata.evaluate options now' := by
  rw [evaluate_eq, evaluate_eq, hpinned]
  rfl

/-- The object is entitled to what its metadata say. -/
theorem View.object_of_evaluate (h : view.evaluate options now = .ok evaluation) :
    evaluation.object = view.metadata.objectEntitlements := by
  obtain ⟨release, -, rfl⟩ := View.evaluate_eq_ok_iff.mp h
  rfl

/-- So are the files. -/
theorem View.files_of_evaluate (h : view.evaluate options now = .ok evaluation) :
    evaluation.files = view.metadata.fileEntitlements := by
  obtain ⟨release, -, rfl⟩ := View.evaluate_eq_ok_iff.mp h
  rfl

/-- And the release date is theirs. -/
theorem View.release_of_evaluate (h : view.evaluate options now = .ok evaluation) :
    readRelease view.metadata.releaseDate? = .ok evaluation.release := by
  obtain ⟨release, hrelease, rfl⟩ := View.evaluate_eq_ok_iff.mp h
  exact hrelease

/-- The object is under embargo exactly if there is a release date and it is still to
come at the instant of evaluation. -/
theorem View.isEmbargoed_iff_of_evaluate (h : view.evaluate options now = .ok evaluation) :
    evaluation.isEmbargoed = true ↔
      ∃ date, evaluation.release = some date ∧ options.instant now < date := by
  obtain ⟨release, -, rfl⟩ := View.evaluate_eq_ok_iff.mp h
  show release.any (fun date => decide (options.instant now < date)) = true ↔ _
  rw [Option.any_eq_true]
  simp only [decide_eq_true_eq]

/-- A summary is made from the metadata where one is asked for. -/
theorem View.index_of_evaluate (h : view.evaluate options now = .ok evaluation)
    (hindex : options.forIndex = true) :
    evaluation.index = some (.ofMetadata view.metadata) := by
  obtain ⟨release, -, rfl⟩ := View.evaluate_eq_ok_iff.mp h
  simp only [hindex, if_true]

/-- Where none is asked for there is none. -/
theorem View.index_of_evaluate_of_not_forIndex (h : view.evaluate options now = .ok evaluation)
    (hindex : options.forIndex = false) : evaluation.index = none := by
  obtain ⟨release, -, rfl⟩ := View.evaluate_eq_ok_iff.mp h
  simp only [hindex, Bool.false_eq_true, if_false]

/-- Asking for the summary succeeds then. -/
theorem View.summary_of_evaluate (h : view.evaluate options now = .ok evaluation)
    (hindex : options.forIndex = true) :
    evaluation.summary = .ok (.ofMetadata view.metadata) := by
  obtain ⟨release, -, rfl⟩ := View.evaluate_eq_ok_iff.mp h
  simp only [Evaluation.summary, hindex, if_true]

end Outcome

/-! ## One rule for both scopes -/

theorem stanford?_stanfordOnly (right : Right) :
    (stanfordOnly right).get? Vocabulary.stanford = some right := rfl

/-- The stanford group is the only one that has a right. -/
theorem get?_stanfordOnly_eq_some_iff {given right : Right} {name : String} :
    (stanfordOnly given).get? name = some right ↔ name = Vocabulary.stanford ∧ given = right := by
  rw [stanfordOnly, NameMap.get?_insert, NameMap.get?_empty]
  split
  case isTrue hname => simp [hname]
  case isFalse hname => simp [hname]

/-- What the grants of an element name give to one of the names. -/
theorem get?_rightsByText (name text : String) (grants : List Grant) :
    (rightsByText name grants).get? text =
      (((grantsNamed name grants).filter (·.text == text)).getLast?).map
        fun grant => .granting grant.rule := by
  unfold rightsByText
  rw [NameMap.get?_ofList, List.filter_map, List.getLast?_map, Option.map_map]
  rfl

/-- Rights are kept by text exactly if there are grants of the name. -/
theorem isEmpty_rightsByText (name : String) (grants : List Grant) :
    (rightsByText name grants).isEmpty = (grantsNamed name grants).isEmpty := by
  unfold rightsByText
  rw [NameMap.isEmpty_ofList, List.isEmpty_map]

namespace Entitlements

/-- Leaving a map without entries unset makes no difference to a default of denial. -/
theorem getD_unlessEmpty (rights : NameMap Right) (name : String) :
    ((unlessEmpty rights).map fun map => (map.get? name).getD .denied).getD .denied =
      (rights.get? name).getD .denied := by
  unfold unlessEmpty
  cases hempty : rights.isEmpty with
  | false => rfl
  | true => rw [NameMap.isEmpty_eq_true_iff.mp hempty name]; rfl

/-- **The object denies what files leave open**, and is like them otherwise. -/
theorem answer?_ofObject (grants : List Grant) (audience : Audience) :
    (ofObject grants).answer? audience =
      some (((ofFiles grants).answer? audience).getD .denied) := by
  cases audience with
  | world => rfl
  | stanford =>
    show (stanfordOnly _).get? Vocabulary.stanford = _
    rw [stanford?_stanfordOnly]
    show _ = some ((((stanfordRight? grants).elim .empty stanfordOnly).get?
      Vocabulary.stanford).getD .denied)
    cases stanfordRight? grants <;> rfl
  | agent name =>
    exact congrArg some (getD_unlessEmpty (rightsByText Vocabulary.agent grants) name).symm
  | location name =>
    exact congrArg some (getD_unlessEmpty (rightsByText Vocabulary.location grants) name).symm
  | lending => rfl

end Entitlements

end AccessRights
