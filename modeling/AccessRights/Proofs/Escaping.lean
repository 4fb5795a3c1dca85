import AccessRights.Proofs.Reading

/-!
# Escaped characters

To write any text as character data or as the value of an attribute it is enough to put a
reference in the place of each of five characters.  `escape` does that for all five, in
either surroundings, and `resolve_escape` says that resolving brings the text back: the
references are the only ones there, since an ampersand is one of the five.

What is escaped holds none of the characters that markup is made of (`isInert_escape`), so
it neither starts markup nor ends a quoted value.  Escaped texts side by side are read as
one run (`Reads.escape_append`), which is why a run knows only what all of them say.
-/

namespace AccessRights.Markup

open AccessRights.Text

/-! ## Escaping and resolving -/

/-- A character in writing: a reference for each of the five that markup is made of. -/
def escapeChar : Char → List Char
  | '<' => ['&', 'l', 't', ';']
  | '>' => ['&', 'g', 't', ';']
  | '&' => ['&', 'a', 'm', 'p', ';']
  | '\'' => ['&', 'a', 'p', 'o', 's', ';']
  | '"' => ['&', 'q', 'u', 'o', 't', ';']
  | c => [c]

/-- A text in writing. -/
def escape (cs : List Char) : List Char :=
  cs.flatMap escapeChar

@[simp] theorem escape_nil : escape [] = [] := rfl

theorem escape_cons (c : Char) (cs : List Char) : escape (c :: cs) = escapeChar c ++ escape cs :=
  List.flatMap_cons

theorem escape_append (cs ds : List Char) : escape (cs ++ ds) = escape cs ++ escape ds :=
  List.flatMap_append

/-- Something is written for every character. -/
theorem escapeChar_ne_nil (c : Char) : escapeChar c ≠ [] := by
  unfold escapeChar
  split <;> exact List.cons_ne_nil _ _

/-- A reference that means something is replaced by what it means. -/
theorem resolve_reference (name : List Char) {c : Char} (hname : referenced? name = some c)
    (hinside : name.all isInsideReference = true) (rest : List Char) :
    resolve ('&' :: (name ++ ';' :: rest)) = (resolve rest).map (c :: ·) := by
  have hdrop : (name ++ ';' :: rest).dropWhile isInsideReference = ';' :: rest := by
    rw [List.dropWhile_append_of_pos (List.all_eq_true.mp hinside)]
    rfl
  have htake : (name ++ ';' :: rest).takeWhile isInsideReference = name := by
    rw [List.takeWhile_append_of_pos (List.all_eq_true.mp hinside)]
    exact List.append_nil name
  rw [resolve]
  split
  · next after hafter =>
    cases hdrop.symm.trans hafter
    rw [htake, hname]
    cases resolve rest <;> rfl
  · next hnone => exact absurd hdrop (hnone _)

/-- A character that starts no reference stands for itself. -/
theorem resolve_cons {c : Char} (hc : c ≠ '&') (rest : List Char) :
    resolve (c :: rest) = (resolve rest).map (c :: ·) := by
  rw [resolve]
  exact hc

/-- What is written for a character stands for it, whatever follows. -/
theorem resolve_escapeChar_append (c : Char) (rest : List Char) :
    resolve (escapeChar c ++ rest) = (resolve rest).map (c :: ·) := by
  unfold escapeChar
  split
  · exact resolve_reference ['l', 't'] rfl rfl rest
  · exact resolve_reference ['g', 't'] rfl rfl rest
  · exact resolve_reference ['a', 'm', 'p'] rfl rfl rest
  · exact resolve_reference ['a', 'p', 'o', 's'] rfl rfl rest
  · exact resolve_reference ['q', 'u', 'o', 't'] rfl rfl rest
  · next hamp _ _ => exact resolve_cons hamp rest

/-- **Resolving undoes escaping.** -/
theorem resolve_escape (cs : List Char) : resolve (escape cs) = some cs := by
  induction cs with
  | nil => rw [escape_nil, resolve]
  | cons c cs ih => rw [escape_cons, resolve_escapeChar_append, ih, Option.map_some]

/-- **A text that is written with references is read again.** -/
@[simp] theorem resolved_escape (cs : List Char) : resolved (escape cs) = String.ofList cs := by
  rw [resolved, resolve_escape, Option.getD_some]

/-! ## What is escaped does not act as markup -/

/-- The character neither starts nor ends markup or a quoted value. -/
def isInert (c : Char) : Bool :=
  !(['<', '>', '"', '\''].contains c)

/-- What is written for a character holds no angle bracket and no quotation mark. -/
theorem isInert_escapeChar (c : Char) : (escapeChar c).all isInert = true := by
  unfold escapeChar
  split
  case h_6 hlt hgt _ hapos hquot =>
    have hnone : ¬ c = '<' ∧ ¬ c = '>' ∧ ¬ c = '"' ∧ ¬ c = '\'' := ⟨hlt, hgt, hquot, hapos⟩
    simpa [isInert] using hnone
  all_goals rfl

/-- Nor has what is written for a text. -/
theorem isInert_escape (cs : List Char) : ∀ d ∈ escape cs, isInert d = true := by
  intro d hd
  obtain ⟨c, -, hc⟩ := List.mem_flatMap.mp hd
  exact List.all_eq_true.mp (isInert_escapeChar c) d hc

/-- A character that is neither of these differs from all that are. -/
theorem ne_of_isInert {c d : Char} (h : isInert c = true) (hd : isInert d = false) : c ≠ d := by
  rintro rfl
  exact Bool.false_ne_true (hd.symm.trans h)

/-! ## Runs of escaped text -/

/-- The token of a run that says the given text, which is none if that is empty. -/
def runTokens (run : String) : List Token :=
  if run = "" then [] else [.text run]

/-- **Escaped text in front of markup, or at the end, is one run.** -/
theorem Reads.escape_append (run : String) {after : List Char} {later : List Token}
    (hafter : after.takeWhile (· != '<') = []) (h : Reads after later) :
    Reads (escape run.toList ++ after) (runTokens run ++ later) := by
  by_cases hrun : run = ""
  · subst hrun
    exact h
  · obtain ⟨c, cs, hcs⟩ := List.exists_cons_of_ne_nil (mt String.toList_eq_nil_iff.mp hrun)
    obtain ⟨d, ds, hescape⟩ : ∃ d ds, escape run.toList = d :: ds := by
      refine List.exists_cons_of_ne_nil ?_
      rw [hcs, escape_cons]
      exact List.append_ne_nil_of_left_ne_nil (escapeChar_ne_nil c) _
    have hinert : ∀ e ∈ d :: ds, (e != '<') = true := by
      intro e he
      exact bne_iff_ne.mpr (ne_of_isInert (isInert_escape run.toList e (hescape ▸ he)) (by decide))
    have hds : ∀ e ∈ ds, (e != '<') = true := fun e he => hinert e (List.mem_cons_of_mem d he)
    have hdrop : (ds ++ after).dropWhile (· != '<') = after := by
      have hsame := after.takeWhile_append_dropWhile (p := (· != '<'))
      rw [hafter, List.nil_append] at hsame
      rw [List.dropWhile_append_of_pos hds, hsame]
    have htake : (ds ++ after).takeWhile (· != '<') = ds := by
      rw [List.takeWhile_append_of_pos hds, hafter, List.append_nil]
    have hread : Reads (d :: (ds ++ after))
        (.text (resolved (d :: (ds ++ after).takeWhile (· != '<'))) :: later) :=
      .run (bne_iff_ne.mp (hinert d List.mem_cons_self)) (hdrop.symm ▸ h)
    rw [htake, ← hescape, resolved_escape, String.ofList_toList] at hread
    rw [hescape, runTokens, if_neg hrun]
    exact hread

end AccessRights.Markup
