import AccessRights.Proofs.Escaping
import Mathlib.Data.List.Infix

/-!
# Comments, instructions and character data in writing

How markup other than tags may be written, and that it is read as what was meant.  There is
one law per kind: a piece in front of a text gives its token, if it has one, in front of the
tokens of that text (`Reads.comment`, `Reads.instruction`, `Reads.characterData`).

What has to be shown is that the piece does not end early.  The machine of its kind runs over
all of it without closing, and closes at the `>` that ends it (`untilClose_of_foldlM`).  It
closes at a `>` after a mark that came often enough, and counts the marks it just read.  The
invariant is that so many marks and a `>` occur nowhere in the marks just read together with
the rest (`exists_foldlM_of_not_infix`).  A comment is the exception: its opening dashes are
counted but do not close it, so that its first characters are looked at by themselves.
-/

namespace AccessRights.Markup

open AccessRights.Text

/-! ## Where written markup ends -/

/-- Markup whose machine runs over it without closing ends where the machine then closes. -/
theorem untilClose_of_foldlM {σ : Type} {step : σ → Char → Option σ} {state last : σ}
    {close : Char} {inside : List Char} (hinside : inside.foldlM step state = some last)
    (hclose : step last close = none) (after : List Char) :
    untilClose step state (inside ++ close :: after) = some (inside, after) := by
  induction inside generalizing state with
  | nil =>
    cases hinside
    rw [List.nil_append, untilClose, hclose]
  | cons c rest ih =>
    rw [List.foldlM_cons] at hinside
    obtain ⟨next, hstep, hrest⟩ := Option.bind_eq_some_iff.mp hinside
    rw [List.cons_append, untilClose, hstep]
    show Option.map _ (untilClose step next (rest ++ close :: after)) = _
    rw [ih hrest]
    rfl

/-- **A machine that counts marks stays open** over a text in which the closing sequence, the
mark `need` times and a `>`, does not occur, the marks just read included. -/
theorem exists_foldlM_of_not_infix {σ : Type} {step : σ → Char → Option σ} (marks : σ → Nat)
    (mark : Char) (need : Nat)
    (hclose : ∀ state c, step state c = none → c = '>' ∧ need ≤ marks state)
    (hnext : ∀ state c next, step state c = some next →
      marks next ≤ if c = mark then marks state + 1 else 0)
    {state : σ} {cs : List Char}
    (h : ¬ List.replicate need mark ++ ['>'] <:+: List.replicate (marks state) mark ++ cs) :
    ∃ last, cs.foldlM step state = some last := by
  induction cs generalizing state with
  | nil => exact ⟨state, rfl⟩
  | cons c cs ih =>
    cases hstep : step state c with
    | none =>
      obtain ⟨rfl, hmarks⟩ := hclose state c hstep
      refine absurd ⟨List.replicate (marks state - need) mark, cs, ?_⟩ h
      have hall : List.replicate (marks state - need) mark ++ List.replicate need mark =
          List.replicate (marks state) mark := by
        rw [List.replicate_append_replicate, Nat.sub_add_cancel hmarks]
      rw [← hall]
      simp only [List.append_assoc, List.cons_append, List.nil_append]
    | some next =>
      -- What the next state stands for with the rest is the end of what this one does.
      have hsuffix : List.replicate (marks next) mark ++ cs <:+
          List.replicate (marks state) mark ++ c :: cs := by
        have hmarks := hnext state c next hstep
        split at hmarks
        · next hmark =>
          subst hmark
          refine ⟨List.replicate (marks state + 1 - marks next) c, ?_⟩
          rw [← List.append_assoc, List.replicate_append_replicate, Nat.sub_add_cancel hmarks,
            List.replicate_succ', List.append_assoc]
          rfl
        · rw [Nat.le_zero.mp hmarks]
          exact (List.suffix_cons c cs).trans (List.suffix_append _ _)
      obtain ⟨last, hlast⟩ := ih fun hoccurs => h (hoccurs.trans hsuffix.isInfix)
      refine ⟨last, ?_⟩
      rw [List.foldlM_cons, hstep]
      exact hlast

/-! ## Comments, instructions and character data -/

/-- A comment counts all its characters. -/
theorem count_of_foldlM_commentStep {cs : List Char} {state last : Nat × Nat}
    (h : cs.foldlM commentStep state = some last) : state.1 ≤ last.1 := by
  induction cs generalizing state with
  | nil =>
    cases h
    exact Nat.le_refl _
  | cons c cs ih =>
    rw [List.foldlM_cons] at h
    obtain ⟨next, hstep, hrest⟩ := Option.bind_eq_some_iff.mp h
    have hcount : next.1 = state.1 + 1 := by
      unfold commentStep at hstep
      split at hstep
      · cases hstep
      · cases hstep
        rfl
    have hlater := ih hrest
    omega

/-- A comment without dashes right before stays open as long as no two come together. -/
theorem exists_foldlM_commentStep (count : Nat) {cs : List Char} (h : ¬ ['-', '-'] <:+: cs) :
    ∃ last, cs.foldlM commentStep (count, 0) = some last := by
  refine exists_foldlM_of_not_infix Prod.snd '-' 2 ?_ ?_ ?_
  · intro state c hclose
    unfold commentStep at hclose
    split at hclose
    · next hc => exact ⟨hc.1, hc.2.2⟩
    · cases hclose
  · intro state c next hstep
    unfold commentStep at hstep
    split at hstep
    · cases hstep
    · cases hstep
      exact Nat.le_refl _
  · intro hoccurs
    exact h (List.IsInfix.trans ⟨[], ['>'], rfl⟩ hoccurs)

/-- The body of a comment, whose two opening dashes count as little as what it starts with. -/
theorem exists_foldlM_commentBody {body : List Char} (h : ¬ ['-', '-'] <:+: body) :
    ∃ last, body.foldlM commentStep (3, 2) = some last := by
  match body, h with
  | [], _ => exact ⟨_, rfl⟩
  | c :: body, h =>
    have hbody : ¬ ['-', '-'] <:+: body := fun hoccurs =>
      h (hoccurs.trans (List.suffix_cons c body).isInfix)
    by_cases hdash : c = '-'
    · subst hdash
      match body, h, hbody with
      | [], _, _ => exact ⟨_, rfl⟩
      | d :: body, h, hbody =>
        have hd : d ≠ '-' := by
          rintro rfl
          exact h ⟨[], body, rfl⟩
        obtain ⟨last, hlast⟩ := exists_foldlM_commentStep 5
          fun hoccurs => hbody (hoccurs.trans (List.suffix_cons d body).isInfix)
        refine ⟨last, ?_⟩
        have hstep : commentStep (4, 3) d = some (5, 0) := by
          rw [commentStep, if_neg (fun hclose => absurd hclose.2.1 (by decide)), if_neg hd]
        show Option.bind (commentStep (4, 3) d) _ = _
        rw [hstep]
        exact hlast
    · obtain ⟨last, hlast⟩ := exists_foldlM_commentStep 4 hbody
      refine ⟨last, ?_⟩
      have hstep : commentStep (3, 2) c = some (4, 0) := by
        rw [commentStep, if_neg (fun hclose => absurd hclose.2.1 (by decide)), if_neg hdash]
      rw [List.foldlM_cons, hstep]
      exact hlast

/-- Character data without its closing sequence stays open. -/
theorem exists_foldlM_characterDataStep {cs : List Char} (h : ¬ [']', ']', '>'] <:+: cs) :
    ∃ last, cs.foldlM characterDataStep 0 = some last := by
  refine exists_foldlM_of_not_infix id ']' 2 ?_ ?_ h
  · intro state c hclose
    unfold characterDataStep at hclose
    split at hclose
    · next hc => exact hc
    · cases hclose
  · intro state c next hstep
    unfold characterDataStep at hstep
    split at hstep
    · cases hstep
    · cases hstep
      exact Nat.le_refl _

/-- An instruction without its closing sequence stays open. -/
theorem exists_foldlM_instructionStep {cs : List Char} (h : ¬ ['?', '>'] <:+: cs) :
    ∃ last, cs.foldlM instructionStep false = some last := by
  refine exists_foldlM_of_not_infix Bool.toNat '?' 1 ?_ ?_ h
  · intro question c hclose
    unfold instructionStep at hclose
    split at hclose
    · next hc =>
      obtain ⟨hc, rfl⟩ := hc
      exact ⟨hc, Nat.le_refl 1⟩
    · cases hclose
  · intro question c next hstep
    unfold instructionStep at hstep
    split at hstep
    · cases hstep
    · cases hstep
      split
      · next hmark =>
        subst hmark
        exact Nat.le_add_left 1 _
      · next hmark =>
        rw [beq_eq_false_iff_ne.mpr hmark]
        exact Nat.le_refl 0

/-- The space after the target of an instruction keeps the question mark in front away from
the data. -/
theorem foldlM_instructionStep_target {target : List Char}
    (h : ∀ c ∈ target, isPlainChar c = true) (question : Bool) :
    (target ++ [' ']).foldlM instructionStep question = some false := by
  induction target generalizing question with
  | nil => rfl
  | cons c target ih =>
    have hstep : instructionStep question c = some (c == '?') := by
      rw [instructionStep, if_neg]
      rintro ⟨hc, -⟩
      exact ne_of_isPlainChar (h c List.mem_cons_self) (by decide) hc
    rw [List.cons_append, List.foldlM_cons, hstep]
    exact ih (fun d hd => h d (List.mem_cons_of_mem c hd)) (c == '?')

namespace Reads

variable {after : List Char} {later : List Token}

/-- **A comment leaves no token.** -/
theorem comment {body : List Char} (hbody : ¬ ['-', '-'] <:+: body) (h : Reads after later) :
    Reads ('<' :: '!' :: '-' :: '-' :: (body ++ '-' :: '-' :: '>' :: after)) later := by
  obtain ⟨⟨count, dashes⟩, hlast⟩ := exists_foldlM_commentBody hbody
  have hcount : 3 ≤ count := count_of_foldlM_commentStep hlast
  have hinside : ('!' :: '-' :: '-' :: (body ++ ['-', '-'])).foldlM commentStep (0, 0) =
      some (count + 2, dashes + 2) := by
    show (body ++ ['-', '-']).foldlM commentStep (3, 2) = _
    rw [List.foldlM_append, hlast]
    rfl
  have hclose : commentStep (count + 2, dashes + 2) '>' = none :=
    if_pos ⟨rfl, Nat.add_le_add_right hcount 2, Nat.le_add_left 2 dashes⟩
  have hsplit : Kind.comment.split ('!' :: '-' :: '-' :: (body ++ '-' :: '-' :: '>' :: after)) =
      some ('!' :: '-' :: '-' :: (body ++ ['-', '-']), after) := by
    have hend := untilClose_of_foldlM hinside hclose after
    simp only [List.cons_append, List.append_assoc, List.nil_append] at hend
    exact hend
  have htokens : ∀ position, Kind.comment.tokens position
      ('!' :: '-' :: '-' :: (body ++ ['-', '-'])) = .ok [] := fun position => by
    rw [Kind.tokens, if_pos]
    rfl
  exact .markup rfl hsplit htokens h

/-- **A processing instruction leaves no token.** -/
theorem instruction {target : String} {data : List Char} (htarget : PlainName target)
    (hdata : ¬ ['?', '>'] <:+: data) (h : Reads after later) :
    Reads ('<' :: '?' :: (target.toList ++ ' ' :: (data ++ '?' :: '>' :: after))) later := by
  obtain ⟨last, hlast⟩ := exists_foldlM_instructionStep hdata
  have hinside : ('?' :: (target.toList ++ ' ' :: (data ++ ['?']))).foldlM instructionStep false =
      some true := by
    show (target.toList ++ ' ' :: (data ++ ['?'])).foldlM instructionStep true = _
    rw [List.append_cons, List.foldlM_append, foldlM_instructionStep_target htarget.2]
    show (data ++ ['?']).foldlM instructionStep false = _
    rw [List.foldlM_append, hlast]
    rfl
  have hclose : instructionStep true '>' = none := rfl
  have hsplit : Kind.instruction.split
      ('?' :: (target.toList ++ ' ' :: (data ++ '?' :: '>' :: after))) =
        some ('?' :: (target.toList ++ ' ' :: (data ++ ['?'])), after) := by
    have hend := untilClose_of_foldlM hinside hclose after
    simp only [List.cons_append, List.append_assoc, List.nil_append] at hend
    exact hend
  have htokens : ∀ position, Kind.instruction.tokens position
      ('?' :: (target.toList ++ ' ' :: (data ++ ['?']))) = .ok [] := fun position => by
    rw [Kind.tokens, if_pos]
    simp only [List.length_cons, List.length_append]
    omega
  exact .markup rfl hsplit htokens h

/-- **A section of character data is read as it stands.** -/
theorem characterData {data : List Char} (hdata : ¬ [']', ']', '>'] <:+: data)
    (h : Reads after later) :
    Reads ("<![CDATA[".toList ++ (data ++ ']' :: ']' :: '>' :: after))
      (.text (String.ofList data) :: later) := by
  obtain ⟨brackets, hlast⟩ := exists_foldlM_characterDataStep hdata
  have hinside : ("![CDATA[".toList ++ (data ++ [']', ']'])).foldlM characterDataStep 0 =
      some (brackets + 2) := by
    rw [List.foldlM_append]
    show (data ++ [']', ']']).foldlM characterDataStep 0 = _
    rw [List.foldlM_append, hlast]
    rfl
  have hclose : characterDataStep (brackets + 2) '>' = none :=
    if_pos ⟨rfl, Nat.le_add_left 2 brackets⟩
  have hsplit : Kind.characterData.split
      ("![CDATA[".toList ++ (data ++ ']' :: ']' :: '>' :: after)) =
        some ("![CDATA[".toList ++ (data ++ [']', ']']), after) := by
    have hend := untilClose_of_foldlM hinside hclose after
    simp only [List.cons_append, List.append_assoc, List.nil_append] at hend
    exact hend
  have htokens : ∀ position, Kind.characterData.tokens position
      ("![CDATA[".toList ++ (data ++ [']', ']'])) = .ok [.text (String.ofList data)] :=
    fun position => by
      have hopen : "![CDATA[".toList.isPrefixOf
          ("![CDATA[".toList ++ (data ++ [']', ']'])) = true := rfl
      have hdrop : ("![CDATA[".toList ++ (data ++ [']', ']'])).drop 8 = data ++ [']', ']'] := rfl
      have hlast : (data ++ [']', ']']).dropLast.dropLast = data := by simp
      rw [Kind.tokens, if_pos hopen, hdrop, hlast]
  exact .markup rfl hsplit htokens h

end Reads

end AccessRights.Markup
