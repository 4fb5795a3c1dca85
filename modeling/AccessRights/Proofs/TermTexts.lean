import AccessRights.Index.Summary
import Mathlib

/-!
# Terms and their texts

An index asks for terms by their texts, and some texts hold words that the document
chose: names of groups and elements, and rules.  So it has to be shown that no document
can choose its words so that one term is written like another.

Every term that carries a text from the document starts with a fixed opening
(`Term.opening?`), and no opening is the start of another (`opening_eq_of_prefix`).  All
other terms are fixed, and of all openings only that of a group is the start of any of them.
What is left is a group with the name `stanford` or `stanford_with_rule`; a group of such a
name would be the stanford group and is not named at all.

What follows an opening tells the term, and for the number of elements of a name that takes
an argument: name and number are set apart by a bar, which the name may hold too.  It is the
last bar that counts, because there is none in a number (`append_bar_toString_inj`).
-/

namespace AccessRights.Index

/-! ## Openings -/

/-- The fixed start of the terms that carry a text or a number. -/
def Term.opening? : Term → Option String
  | group _ => some "group|"
  | worldRule _ => some "world|"
  | profile _ => some "profile:"
  | fileMachines _ => some "file_rights_count|"
  | fileHas _ => some "file_has_"
  | fileCount _ _ => some "file_rights_for_"
  | _ => none

/-- All openings. -/
def openings : List String :=
  ["group|", "world|", "profile:", "file_rights_count|", "file_has_", "file_rights_for_"]

/-- The terms without an opening, each of which is written in one way. -/
def fixedTerms : List Term :=
  [.noneDiscover, .worldDiscover, .hasGroupRights, .hasRule, .stanfordGroup,
    .stanfordGroupWithRule, .location, .locationWithRule, .agent, .agentWithRule, .lending,
    .noneReadFile, .noneRead, .worldRead, .hasFileRights]

theorem mem_openings {term : Term} {opening : String} (h : term.opening? = some opening) :
    opening ∈ openings := by
  cases term <;> cases h <;> decide

theorem mem_fixedTerms {term : Term} (h : term.opening? = none) : term ∈ fixedTerms := by
  cases term <;> cases h <;> decide

/-- The text of a term goes on after its opening. -/
theorem exists_render_eq_append {term : Term} {opening : String}
    (h : term.opening? = some opening) : ∃ rest, term.render = opening ++ rest := by
  cases term <;> cases h
  case group name => exact ⟨name, rfl⟩
  case worldRule rule => exact ⟨rule, rfl⟩
  case profile tally => exact ⟨tally.render, rfl⟩
  case fileMachines count => exact ⟨toString count, rfl⟩
  case fileHas element => exact ⟨element, rfl⟩
  case fileCount element count =>
    refine ⟨element ++ ("|" ++ toString count), ?_⟩
    rw [← String.append_assoc, ← String.append_assoc]
    rfl

theorem opening_prefix_render {term : Term} {opening : String}
    (h : term.opening? = some opening) : opening.toList <+: term.render.toList := by
  obtain ⟨rest, hrender⟩ := exists_render_eq_append h
  rw [hrender, String.toList_append]
  exact List.prefix_append _ _

/-- **No opening is the start of another**, so that a text has at most one. -/
theorem opening_eq_of_prefix {first second : String} {text : List Char}
    (hfirst : first ∈ openings) (hsecond : second ∈ openings) (h : first.toList <+: text)
    (h' : second.toList <+: text) : first = second := by
  have hfree : ∀ a ∈ openings, ∀ b ∈ openings, a.toList <+: b.toList → a = b := by
    decide +kernel
  rcases List.prefix_or_prefix_of_prefix h h' with hprefix | hprefix
  · exact hfree first hfirst second hsecond hprefix
  · exact (hfree second hsecond first hfirst hprefix).symm

/-- Fixed terms are written differently. -/
theorem eq_of_render_eq_of_fixed : ∀ first ∈ fixedTerms, ∀ second ∈ fixedTerms,
    first.render = second.render → first = second := by
  decide +kernel

/-- Of all openings only that of a group is the start of a fixed term, and what follows
it is a word that starts with `stanford`. -/
theorem opening_of_prefix_fixed : ∀ token ∈ fixedTerms, ∀ opening ∈ openings,
    opening.toList <+: token.render.toList →
      opening = "group|" ∧ "stanford".toList <+: token.render.toList.drop 6 := by
  decide +kernel

/-- **A term written like a fixed term is that term**, unless it is a group with
`stanford` in its name. -/
theorem eq_of_render_eq_fixed {term token : Term} (htoken : token ∈ fixedTerms)
    (hgroup : ∀ name, term = .group name → ¬ Vocabulary.stanford.toList <:+: name.toList)
    (h : term.render = token.render) : term = token := by
  cases hopening : term.opening? with
  | none => exact eq_of_render_eq_of_fixed term (mem_fixedTerms hopening) token htoken h
  | some opening =>
    have hprefix := opening_prefix_render hopening
    rw [h] at hprefix
    obtain ⟨rfl, hstanford⟩ :=
      opening_of_prefix_fixed token htoken opening (mem_openings hopening) hprefix
    obtain ⟨name, rfl⟩ : ∃ name, term = .group name := by
      cases term <;> simp [Term.opening?] at hopening
      exact ⟨_, rfl⟩
    have hrender : token.render.toList = "group|".toList ++ name.toList := by
      rw [← h]
      exact String.toList_append
    have hname : token.render.toList.drop 6 = name.toList := by
      rw [hrender]
      exact List.drop_left' (by decide)
    rw [hname] at hstanford
    exact absurd hstanford.isInfix (hgroup name rfl)

/-! ## Terms that stand for answers -/

/-- The terms that stand for an answer to a question of access, or for the denial that
comes before all of them. -/
def answerTerms : List Term :=
  [.stanfordGroup, .stanfordGroupWithRule, .location, .locationWithRule, .agent,
    .agentWithRule, .lending, .noneRead, .worldRead]

theorem mem_fixedTerms_of_mem_answerTerms : ∀ token ∈ answerTerms, token ∈ fixedTerms := by
  decide

/-! ## Terms that are told by what follows their opening -/

theorem opening_prefix_of_render_eq {term : Term} {opening rest : String}
    (h : term.render = opening ++ rest) : opening.toList <+: term.render.toList := by
  rw [h, String.toList_append]
  exact List.prefix_append _ _

/-- A term with some opening has the one that its text starts with. -/
theorem opening?_eq_of_isSome {term : Term} {opening rest : String} (hmem : opening ∈ openings)
    (hopened : term.opening?.isSome) (h : term.render = opening ++ rest) :
    term.opening? = some opening := by
  obtain ⟨other, hother⟩ := Option.isSome_iff_exists.mp hopened
  rw [hother, opening_eq_of_prefix (mem_openings hother) hmem (opening_prefix_render hother)
    (opening_prefix_of_render_eq h)]

/-- A term whose text starts with an opening other than that of a group has this opening. -/
theorem opening?_eq_of_render_eq {term : Term} {opening rest : String}
    (hmem : opening ∈ openings) (hgroup : opening ≠ "group|")
    (h : term.render = opening ++ rest) : term.opening? = some opening := by
  refine opening?_eq_of_isSome hmem (Option.isSome_iff_ne_none.mpr fun hfixed => hgroup ?_) h
  exact (opening_of_prefix_fixed term (mem_fixedTerms hfixed) opening hmem
    (opening_prefix_of_render_eq h)).1

/-- A term written like a group is that group, unless it is fixed. -/
theorem eq_group_of_render_eq {term : Term} {name : String} (hopened : term.opening?.isSome)
    (h : term.render = "group|" ++ name) : term = .group name := by
  have hopening := opening?_eq_of_isSome (by decide) hopened h
  obtain ⟨other, rfl⟩ : ∃ other, term = .group other := by
    cases term <;> simp [Term.opening?] at hopening
    exact ⟨_, rfl⟩
  rw [(String.append_right_inj "group|").mp h]

/-- **A term written like a rule of the world is that rule.** -/
theorem eq_worldRule_of_render_eq {term : Term} {rule : String}
    (h : term.render = "world|" ++ rule) : term = .worldRule rule := by
  have hopening := opening?_eq_of_render_eq (by decide) (by decide) h
  obtain ⟨other, rfl⟩ : ∃ other, term = .worldRule other := by
    cases term <;> simp [Term.opening?] at hopening
    exact ⟨_, rfl⟩
  rw [(String.append_right_inj "world|").mp h]

/-- A term written like a profile is one. -/
theorem exists_eq_profile_of_render_eq {term : Term} {text : String}
    (h : term.render = "profile:" ++ text) : ∃ tally, term = .profile tally := by
  have hopening := opening?_eq_of_render_eq (by decide) (by decide) h
  cases term <;> simp [Term.opening?] at hopening
  exact ⟨_, rfl⟩

/-- **A term written like a number of machines is that number.** -/
theorem eq_fileMachines_of_render_eq {term : Term} {count : Nat}
    (h : term.render = "file_rights_count|" ++ toString count) : term = .fileMachines count := by
  have hopening := opening?_eq_of_render_eq (by decide) (by decide) h
  obtain ⟨other, rfl⟩ : ∃ other, term = .fileMachines other := by
    cases term <;> simp [Term.opening?] at hopening
    exact ⟨_, rfl⟩
  rw [Nat.repr_inj.mp ((String.append_right_inj "file_rights_count|").mp h)]

/-- **A term written like the presence of an element is that presence.** -/
theorem eq_fileHas_of_render_eq {term : Term} {element : String}
    (h : term.render = "file_has_" ++ element) : term = .fileHas element := by
  have hopening := opening?_eq_of_render_eq (by decide) (by decide) h
  obtain ⟨other, rfl⟩ : ∃ other, term = .fileHas other := by
    cases term <;> simp [Term.opening?] at hopening
    exact ⟨_, rfl⟩
  rw [(String.append_right_inj "file_has_").mp h]

/-- There is no bar in a number. -/
theorem bar_not_mem_toString (count : Nat) : '|' ∉ (toString count).toList := by
  intro hbar
  rw [Nat.toString_eq_repr, Nat.toList_repr] at hbar
  exact absurd (Nat.isDigit_of_mem_toDigits (by decide) (by decide) hbar) (by decide)

/-- What stands in front of the last bar cannot hold another one at the same place. -/
theorem eq_nil_of_bar_cons_eq {digits front behind : List Char} (hdigits : '|' ∉ digits)
    (h : '|' :: digits = front ++ '|' :: behind) : front = [] := by
  cases front with
  | nil => rfl
  | cons c front =>
    rw [List.cons_append, List.cons.injEq] at h
    exact absurd (h.2 ▸ List.mem_append_right front List.mem_cons_self) hdigits

/-- **A text with a number at its end, behind a bar, is read in one way**, even if there
are other bars in it. -/
theorem append_bar_toString_inj {first second : String} {count number : Nat}
    (h : first ++ "|" ++ toString count = second ++ "|" ++ toString number) :
    first = second ∧ count = number := by
  have hlists : first.toList ++ '|' :: (toString count).toList =
      second.toList ++ '|' :: (toString number).toList := by
    simpa using congrArg String.toList h
  have hfirst : first = second := by
    -- If one text were longer than the other, its bar would stand in the other's number.
    rcases List.append_eq_append_iff.mp hlists with ⟨front, hfront, hbar⟩ | ⟨front, hfront, hbar⟩
    · rw [eq_nil_of_bar_cons_eq (bar_not_mem_toString count) hbar, List.append_nil] at hfront
      exact (String.toList_inj.mp hfront).symm
    · rw [eq_nil_of_bar_cons_eq (bar_not_mem_toString number) hbar, List.append_nil] at hfront
      exact String.toList_inj.mp hfront
  subst hfirst
  exact ⟨rfl, Nat.repr_inj.mp ((String.append_right_inj (first ++ "|")).mp h)⟩

/-- **A term written like the number of elements of a name is that number.** -/
theorem eq_fileCount_of_render_eq {term : Term} {element : String} {count : Nat}
    (h : term.render = "file_rights_for_" ++ element ++ "|" ++ toString count) :
    term = .fileCount element count := by
  have hrender : term.render = "file_rights_for_" ++ (element ++ "|" ++ toString count) := by
    rw [h]
    simp only [String.append_assoc]
  have hopening := opening?_eq_of_render_eq (by decide) (by decide) hrender
  obtain ⟨name, number, rfl⟩ : ∃ name number, term = .fileCount name number := by
    cases term <;> simp [Term.opening?] at hopening
    exact ⟨_, _, rfl⟩
  obtain ⟨hname, rfl⟩ := append_bar_toString_inj h
  obtain rfl : name = element := (String.append_right_inj "file_rights_for_").mp hname
  rfl

end AccessRights.Index
