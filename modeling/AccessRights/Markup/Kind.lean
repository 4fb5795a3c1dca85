import AccessRights.Markup.Malformed

/-!
# Kinds of markup and where they end

The characters after a `<` fix the kind of markup that it starts (`Kind.of?`), and
the kind fixes which `>` ends it.  Each kind has a small machine that runs over the
characters after the `<` and either takes a character in or lets it close the markup
(`Kind.split`).

* A tag ends at the first `>` outside of quotes.
* A processing instruction ends at the first `>` after a `?`; the question mark it
  starts with counts.
* A character data section ends at the first `>` after `]]`.
* A comment ends at the first `>` after `--`, where the two dashes it starts with do
  not count.
* A document type declaration ends at the `>` that balances its angle brackets.
-/

namespace AccessRights.Markup

/-- Splits at the first character that `step` lets close, which is left out.  `step`
gives the next state, or nothing where the character closes. -/
def untilClose {σ : Type} (step : σ → Char → Option σ) :
    σ → List Char → Option (List Char × List Char)
  | _, [] => none
  | state, c :: rest =>
    match step state c with
    | none => some ([], rest)
    | some next => (untilClose step next rest).map fun (inside, after) => (c :: inside, after)

/-- Nothing is lost at a split, and what is left out is a character that closes. -/
theorem exists_eq_append_of_untilClose {σ : Type} {step : σ → Char → Option σ} {state : σ}
    {cs inside after : List Char} (h : untilClose step state cs = some (inside, after)) :
    ∃ last c, step last c = none ∧ cs = inside ++ c :: after := by
  induction cs generalizing state inside with
  | nil => simp [untilClose] at h
  | cons c rest ih =>
    unfold untilClose at h
    split at h
    · next hclose =>
      cases h
      exact ⟨state, c, hclose, rfl⟩
    · obtain ⟨⟨inside', after'⟩, hrest, heq⟩ := Option.map_eq_some_iff.mp h
      cases heq
      obtain ⟨last, d, hclose, hcs⟩ := ih hrest
      exact ⟨last, d, hclose, by rw [hcs, List.cons_append]⟩

/-- The state is the quote that is open, if any. -/
def tagStep (quote : Option Char) (c : Char) : Option (Option Char) :=
  match quote with
  | none =>
    if c = '>' then none else if c = '"' ∨ c = '\'' then some (some c) else some none
  | some q => if c = q then some none else some (some q)

/-- The state says whether the last character was a question mark. -/
def instructionStep (question : Bool) (c : Char) : Option Bool :=
  if c = '>' ∧ question then none else some (c == '?')

/-- The state is the number of closing brackets right before. -/
def characterDataStep (brackets : Nat) (c : Char) : Option Nat :=
  if c = '>' ∧ 2 ≤ brackets then none
  else some (if c = ']' then brackets + 1 else 0)

/-- The state is the number of characters so far and of dashes right before; the
shortest comment has five, an exclamation mark and four dashes. -/
def commentStep (state : Nat × Nat) (c : Char) : Option (Nat × Nat) :=
  if c = '>' ∧ 5 ≤ state.1 ∧ 2 ≤ state.2 then none
  else some (state.1 + 1, if c = '-' then state.2 + 1 else 0)

/-- The state is the number of angle brackets that are open inside the declaration. -/
def doctypeStep (depth : Nat) (c : Char) : Option Nat :=
  if c = '<' then some (depth + 1)
  else if c = '>' then (if depth = 0 then none else some (depth - 1))
  else some depth

/-- A tag ends with an angle bracket, and so does every other kind of markup. -/
theorem eq_of_tagStep {quote : Option Char} {c : Char} (h : tagStep quote c = none) :
    c = '>' := by
  unfold tagStep at h
  split at h
  · split at h
    · assumption
    · split at h <;> cases h
  · split at h <;> cases h

theorem eq_of_instructionStep {question : Bool} {c : Char}
    (h : instructionStep question c = none) : c = '>' := by
  unfold instructionStep at h
  split at h
  · next hc => exact hc.1
  · cases h

theorem eq_of_characterDataStep {brackets : Nat} {c : Char}
    (h : characterDataStep brackets c = none) : c = '>' := by
  unfold characterDataStep at h
  split at h
  · next hc => exact hc.1
  · cases h

theorem eq_of_commentStep {state : Nat × Nat} {c : Char} (h : commentStep state c = none) :
    c = '>' := by
  unfold commentStep at h
  split at h
  · next hc => exact hc.1
  · cases h

theorem eq_of_doctypeStep {depth : Nat} {c : Char} (h : doctypeStep depth c = none) :
    c = '>' := by
  unfold doctypeStep at h
  split at h
  · cases h
  · split at h
    · assumption
    · cases h

/-- The kinds of markup. -/
inductive Kind
  | startTag
  | endTag
  | instruction
  | characterData
  | comment
  | doctype
  deriving DecidableEq

namespace Kind

/-- The kind of the markup that starts before the given characters.  Only an
exclamation mark has to be followed by something known. -/
def of? : List Char → Option Kind
  | '!' :: '[' :: _ => some characterData
  | '!' :: '-' :: _ => some comment
  | '!' :: 'D' :: _ => some doctype
  | '!' :: 'd' :: _ => some doctype
  | '!' :: _ => none
  | '?' :: _ => some instruction
  | '/' :: _ => some endTag
  | _ => some startTag

/-- The problem of markup of this kind that does not end. -/
def unclosed : Kind → MarkupProblem
  | startTag => .unclosedTag
  | endTag => .unclosedTag
  | instruction => .unclosedInstruction
  | characterData => .unclosedCharacterData
  | comment => .unclosedComment
  | doctype => .unclosedDoctype

/-- The content of the markup, from after its `<` to before its `>`, and what follows
the `>`. -/
def split : Kind → List Char → Option (List Char × List Char)
  | startTag => untilClose tagStep none
  | endTag => untilClose tagStep none
  | instruction => untilClose instructionStep false
  | characterData => untilClose characterDataStep 0
  | comment => untilClose commentStep (0, 0)
  | doctype => untilClose doctypeStep 0

/-- **A split loses nothing but the `>` that ends the markup.** -/
theorem eq_append_of_split {kind : Kind} {cs content after : List Char}
    (h : kind.split cs = some (content, after)) : cs = content ++ '>' :: after := by
  cases kind
  case startTag | endTag =>
    obtain ⟨last, c, hclose, hcs⟩ := exists_eq_append_of_untilClose h
    rw [hcs, eq_of_tagStep hclose]
  case instruction =>
    obtain ⟨last, c, hclose, hcs⟩ := exists_eq_append_of_untilClose h
    rw [hcs, eq_of_instructionStep hclose]
  case characterData =>
    obtain ⟨last, c, hclose, hcs⟩ := exists_eq_append_of_untilClose h
    rw [hcs, eq_of_characterDataStep hclose]
  case comment =>
    obtain ⟨last, c, hclose, hcs⟩ := exists_eq_append_of_untilClose h
    rw [hcs, eq_of_commentStep hclose]
  case doctype =>
    obtain ⟨last, c, hclose, hcs⟩ := exists_eq_append_of_untilClose h
    rw [hcs, eq_of_doctypeStep hclose]

/-- What is left behind a piece of markup is shorter. -/
theorem length_lt_of_split {kind : Kind} {cs content after : List Char}
    (h : kind.split cs = some (content, after)) : after.length < cs.length := by
  rw [eq_append_of_split h, List.length_append, List.length_cons]
  omega

end Kind

end AccessRights.Markup
