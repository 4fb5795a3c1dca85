import Mathlib.Data.List.Basic
import AccessRights.Path

/-!
# Paths and their texts

Every text is a path, and a path says less than its text: a dot in front, a single slash in
front and slashes at the end leave no trace.  This module settles what remains.
`parse_render_parse_iff` has all of it in one statement.

* The paths that some text stands for are those whose names can be written between slashes
  (`Path.IsWritable`), with any axes and any stars among the names.
* A path that was read and is written and read again is the same path, with one exception:
  its first step goes to children by a name that starts with a dot.  Such a step is written
  without a slash, so that its dot comes first in the text and is taken for the node which
  the path sets out from.

## What carries the argument

Writing every step with its slashes, the first one too, is undone by reading without any
exception (`Path.parse_renderSteps`), and this is what shows that a writable path is read
from some text.  A path in writing leaves out the slash of a first step to children.  The law
that covers both is about a segment with steps behind it (`stepsOfSegments_splitOn`), by
induction on the steps.  It leaves open along which axis the first step goes, since this is
decided by what stands before the segment.
-/

namespace AccessRights

/-! ## Names between slashes -/

/-- The name can stand between slashes, where nothing would be no step and a star any name. -/
def IsStepName (name : String) : Prop :=
  name ≠ "" ∧ '/' ∉ name.toList ∧ name ≠ "*"

/-- The test can be written: its name can stand between slashes, if it has one. -/
def NameTest.IsWritable (test : NameTest) : Prop :=
  ∀ name, test = .named name → IsStepName name

/-- All names in the path can stand between slashes. -/
def Path.IsWritable (path : Path) : Prop :=
  ∀ step ∈ path.steps, step.test.IsWritable

/-- The path goes to children first, by a name that starts with a dot. -/
def Path.StartsDotted (path : Path) : Prop :=
  ∃ name, path.steps.head? = some ⟨.child, .named name⟩ ∧ name.toList.head? = some '.'

theorem not_mem_of_mem_splitOn {separator : Char} {cs segment : List Char}
    (h : segment ∈ cs.splitOn separator) : separator ∉ segment := by
  induction cs generalizing segment with
  | nil =>
    rw [List.splitOn_nil, List.mem_singleton] at h
    simp [h]
  | cons c cs ih =>
    rw [List.splitOn_cons_eq_if_modifyHead] at h
    split at h
    · rcases List.mem_cons.mp h with rfl | h
      · exact List.not_mem_nil
      · exact ih h
    · next hc =>
      -- The character joins the first segment of the rest.
      obtain ⟨first, others, hrest⟩ := List.exists_cons_of_ne_nil (List.splitOn_ne_nil separator cs)
      rw [hrest, List.modifyHead_cons] at h
      rcases List.mem_cons.mp h with rfl | h
      · have hne : separator ≠ c := fun heq => hc (by simp [heq])
        simp [hne, ih (hrest ▸ List.mem_cons_self)]
      · exact ih (hrest ▸ List.mem_cons_of_mem _ h)

namespace NameTest

variable {test : NameTest}

/-- Something is written for a test. -/
theorem IsWritable.render_ne_nil (h : test.IsWritable) : test.render.toList ≠ [] := by
  cases test with
  | any => exact List.cons_ne_nil _ _
  | named name => simpa [render] using (h name rfl).1

theorem IsWritable.slash_not_mem (h : test.IsWritable) : '/' ∉ test.render.toList := by
  cases test with
  | any => simp [render]
  | named name => exact (h name rfl).2.1

/-- A test that is written as a segment is read from it. -/
theorem IsWritable.ofSegment_render (h : test.IsWritable) :
    ofSegment test.render.toList = test := by
  cases test with
  | any => rfl
  | named name =>
    have hstar : name.toList ≠ ['*'] := fun heq => (h name rfl).2.2 (String.toList_inj.mp heq)
    simp [ofSegment, render, hstar]

/-- What is read from a segment can be written. -/
theorem isWritable_ofSegment {segment : List Char} (hne : segment ≠ []) (hslash : '/' ∉ segment) :
    (ofSegment segment).IsWritable := by
  intro name hname
  unfold ofSegment at hname
  split at hname
  · cases hname
  · next hstar =>
    cases hname
    refine ⟨?_, ?_, ?_⟩
    · simpa using hne
    · simpa using hslash
    · intro heq
      apply hstar
      simpa using congrArg String.toList heq

end NameTest

/-! ## What is read can be written -/

theorem isWritable_of_mem_stepsOfSegments {axis : Axis} {segments : List (List Char)}
    (h : ∀ segment ∈ segments, '/' ∉ segment) :
    ∀ step ∈ stepsOfSegments axis segments, step.test.IsWritable := by
  induction axis, segments using stepsOfSegments.induct with
  | case1 axis =>
    intro step hstep
    cases hstep
  | case2 axis segments ih => exact ih fun segment hsegment => h segment (.tail _ hsegment)
  | case3 axis segment segments hne ih =>
    intro step hstep
    rw [stepsOfSegments.eq_3 axis segment segments hne] at hstep
    rcases List.mem_cons.mp hstep with rfl | hstep
    · exact NameTest.isWritable_ofSegment hne (h segment List.mem_cons_self)
    · exact ih (fun segment hsegment => h segment (.tail _ hsegment)) step hstep

theorem Path.isWritable_parse (text : String) : (parse text).IsWritable :=
  isWritable_of_mem_stepsOfSegments fun _ hsegment => not_mem_of_mem_splitOn hsegment

/-! ## What is written is read -/

@[simp] theorem Axis.toList_render_child : child.render.toList = ['/'] := rfl

@[simp] theorem Axis.toList_render_descendant : descendant.render.toList = ['/', '/'] := rfl

/-- A separator at the start sets an empty segment apart. -/
theorem splitOn_separator_cons (separator : Char) (cs : List Char) :
    (separator :: cs).splitOn separator = [] :: cs.splitOn separator :=
  List.splitOn_append_cons_self_of_not_mem List.not_mem_nil cs

/-- The steps in writing, one in front of the others. -/
theorem toList_renderSteps_cons (step : Step) (steps : List Step) :
    (Path.renderSteps (step :: steps)).toList =
      step.axis.render.toList ++ (step.test.render.toList ++ (Path.renderSteps steps).toList) := by
  simp [Path.renderSteps, String.join_cons, String.append_assoc]

/-- **A segment with steps behind it is read as a step and those steps.** -/
theorem stepsOfSegments_splitOn {steps : List Step} (h : ∀ step ∈ steps, step.test.IsWritable)
    (axis : Axis) {segment : List Char} (hne : segment ≠ []) (hslash : '/' ∉ segment) :
    stepsOfSegments axis ((segment ++ (Path.renderSteps steps).toList).splitOn '/') =
      ⟨axis, .ofSegment segment⟩ :: steps := by
  induction steps generalizing axis segment with
  | nil =>
    have hnil : (Path.renderSteps []).toList = [] := rfl
    rw [hnil, List.append_nil, List.splitOn_eq_singleton hslash, stepsOfSegments.eq_3 _ _ _ hne]
    rfl
  | cons step steps ih =>
    obtain ⟨hstep, hsteps⟩ := List.forall_mem_cons.mp h
    have hrest := fun axis => ih hsteps axis hstep.render_ne_nil hstep.slash_not_mem
    rw [hstep.ofSegment_render] at hrest
    obtain ⟨next, test⟩ := step
    rw [toList_renderSteps_cons]
    cases next with
    | child =>
      rw [Axis.toList_render_child, List.singleton_append,
        List.splitOn_append_cons_self_of_not_mem hslash, stepsOfSegments.eq_3 _ _ _ hne, hrest]
    | descendant =>
      rw [Axis.toList_render_descendant, List.cons_append, List.singleton_append,
        List.splitOn_append_cons_self_of_not_mem hslash, splitOn_separator_cons,
        stepsOfSegments.eq_3 _ _ _ hne, stepsOfSegments, hrest]

/-- A slash that no second one follows is dropped at the start of a text. -/
theorem dropRootSlash_cons {cs : List Char} (h : cs.head? ≠ some '/') :
    dropRootSlash ('/' :: cs) = cs := by
  cases cs with
  | nil => rfl
  | cons c cs =>
    have hc : c ≠ '/' := by simpa using h
    unfold dropRootSlash
    split <;> simp_all

theorem dropRootSlash_eq_self {cs : List Char} (h : cs.head? ≠ some '/') :
    dropRootSlash cs = cs := by
  unfold dropRootSlash
  split <;> simp_all

/-- What starts with a segment starts without a slash. -/
theorem head?_append_ne_slash {segment : List Char} (hne : segment ≠ []) (hslash : '/' ∉ segment)
    (cs : List Char) : (segment ++ cs).head? ≠ some '/' := by
  obtain ⟨c, segment, rfl⟩ := List.exists_cons_of_ne_nil hne
  simp only [List.mem_cons, not_or] at hslash
  simpa using Ne.symm hslash.1

namespace Path

/-- **Steps with all their slashes are read again**, whatever they start with. -/
theorem parse_renderSteps {steps : List Step} (h : ∀ step ∈ steps, step.test.IsWritable) :
    parse (renderSteps steps) = ⟨steps⟩ := by
  cases steps with
  | nil => rfl
  | cons step steps =>
    obtain ⟨hstep, hsteps⟩ := List.forall_mem_cons.mp h
    have hrest := fun axis =>
      stepsOfSegments_splitOn hsteps axis hstep.render_ne_nil hstep.slash_not_mem
    have hhead := head?_append_ne_slash hstep.render_ne_nil hstep.slash_not_mem
      (renderSteps steps).toList
    rw [hstep.ofSegment_render] at hrest
    obtain ⟨axis, test⟩ := step
    rw [parse, toList_renderSteps_cons]
    congr 1
    cases axis with
    | child =>
      rw [Axis.toList_render_child, List.singleton_append]
      show stepsOfSegments .child ((dropRootSlash ('/' :: _)).splitOn '/') = _
      rw [dropRootSlash_cons hhead, hrest]
    | descendant =>
      -- Two slashes set two empty segments apart, and neither is dropped.
      rw [Axis.toList_render_descendant, List.cons_append, List.singleton_append]
      show stepsOfSegments .child (('/' :: '/' :: _).splitOn '/') = _
      rw [splitOn_separator_cons, splitOn_separator_cons, stepsOfSegments, stepsOfSegments, hrest]

/-- A first step without its slash is read as it is written, unless it starts with a dot. -/
theorem parse_render_child {test : NameTest} {steps : List Step}
    (h : ∀ step ∈ (⟨.child, test⟩ :: steps : List Step), step.test.IsWritable)
    (hdot : test.render.toList.head? ≠ some '.') :
    parse (render ⟨⟨.child, test⟩ :: steps⟩) = ⟨⟨.child, test⟩ :: steps⟩ := by
  obtain ⟨hstep, hsteps⟩ := List.forall_mem_cons.mp h
  have hcontext : dropContextDot (test.render.toList ++ (renderSteps steps).toList) =
      test.render.toList ++ (renderSteps steps).toList := by
    obtain ⟨c, cs, hcs⟩ := List.exists_cons_of_ne_nil hstep.render_ne_nil
    rw [hcs] at hdot ⊢
    unfold dropContextDot
    split <;> simp_all
  rw [render, parse, String.toList_append, hcontext, dropRootSlash_eq_self
    (head?_append_ne_slash hstep.render_ne_nil hstep.slash_not_mem _),
    stepsOfSegments_splitOn hsteps .child hstep.render_ne_nil hstep.slash_not_mem,
    hstep.ofSegment_render]

/-- A first step whose name starts with a dot loses the dot, and with it the step where there
is no more to the name. -/
theorem parse_render_dotted {name : String} {steps : List Step} {cs : List Char}
    (h : ∀ step ∈ (⟨.child, .named name⟩ :: steps : List Step), step.test.IsWritable)
    (hname : name.toList = '.' :: cs) :
    parse (render ⟨⟨.child, .named name⟩ :: steps⟩) =
      if cs = [] then ⟨steps⟩ else ⟨⟨.child, .ofSegment cs⟩ :: steps⟩ := by
  obtain ⟨hstep, hsteps⟩ := List.forall_mem_cons.mp h
  have hslash : '/' ∉ cs := by
    intro hmem
    apply hstep.slash_not_mem
    rw [NameTest.render, hname]
    exact .tail _ hmem
  rw [render, parse, String.toList_append, NameTest.render, hname, List.cons_append, dropContextDot]
  split
  · next hnil =>
    -- The text goes on with the slashes of the next step, as if it started there.
    subst hnil
    have hnodot : dropContextDot (renderSteps steps).toList = (renderSteps steps).toList := by
      cases steps with
      | nil => rfl
      | cons step steps =>
        rw [toList_renderSteps_cons]
        cases step.axis <;> rfl
    rw [List.nil_append, ← parse_renderSteps hsteps, parse, hnodot]
  · next hne =>
    rw [dropRootSlash_eq_self (head?_append_ne_slash hne hslash _),
      stepsOfSegments_splitOn hsteps .child hne hslash]

/-- **Writing a path that can be written and reading it again gives the path**, unless it starts
with a dotted name. -/
theorem parse_render_iff {path : Path} (h : path.IsWritable) :
    parse path.render = path ↔ ¬ path.StartsDotted := by
  obtain ⟨steps⟩ := path
  match steps with
  | [] =>
    apply iff_of_true
    · rfl
    · rintro ⟨name, hhead, -⟩
      cases hhead
  | ⟨.descendant, test⟩ :: steps =>
    apply iff_of_true
    · exact parse_renderSteps h
    · rintro ⟨name, hhead, -⟩
      cases hhead
  | ⟨.child, .any⟩ :: steps =>
    apply iff_of_true
    · exact parse_render_child h (by simp [NameTest.render])
    · rintro ⟨name, hhead, -⟩
      cases hhead
  | ⟨.child, .named name⟩ :: steps =>
    by_cases hdot : name.toList.head? = some '.'
    · obtain ⟨cs, hname⟩ : ∃ cs, name.toList = '.' :: cs := List.head?_eq_some_iff.mp hdot
      apply iff_of_false
      · rw [parse_render_dotted h hname]
        split
        · intro heq
          simpa using congrArg (fun path : Path => path.steps.length) heq
        · intro heq
          have htest : NameTest.ofSegment cs = .named name := by simpa using heq
          unfold NameTest.ofSegment at htest
          split at htest
          · cases htest
          · -- The name that is read is shorter by the dot.
            have hsame : String.ofList cs = name := by simpa using htest
            simpa [hname] using congrArg (fun text => text.toList.length) hsame
      · exact not_not.mpr ⟨name, rfl, hdot⟩
    · apply iff_of_true
      · exact parse_render_child h hdot
      · rintro ⟨other, hhead, hother⟩
        cases hhead
        exact hdot hother

/-- **What becomes of a path that is written and read again.**  The paths that texts stand for
are those that can be written, and of these all but the ones that start with a dotted name
come back. -/
theorem parse_render_parse_iff :
    (∀ path : Path, (∃ text, parse text = path) ↔ path.IsWritable) ∧
      ∀ text, parse (parse text).render = parse text ↔ ¬ (parse text).StartsDotted := by
  constructor
  · intro path
    constructor
    · rintro ⟨text, rfl⟩
      exact isWritable_parse text
    · intro hwritable
      exact ⟨renderSteps path.steps, parse_renderSteps hwritable⟩
  · intro text
    exact parse_render_iff (isWritable_parse text)

/-- Slashes at the end and a dot in front are not written again. -/
example : (parse ".//a//*/").render = "//a//*" ∧ (parse "./").render = "." := by
  decide +kernel

/-- A dotted name is read after a slash only. -/
example : parse (parse "/.a/b").render = ⟨[⟨.child, .named "a"⟩, ⟨.child, .named "b"⟩]⟩ := by
  decide +kernel

end Path

end AccessRights
