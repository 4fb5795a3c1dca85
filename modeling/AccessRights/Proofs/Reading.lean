import Mathlib.Data.List.TakeWhile
import AccessRights.Document.Basic

/-!
# How texts are read

`tokensFrom` counts positions as it goes, for its reports on malformed text.  Where it
succeeds they play no part, and neither does what surrounds the text.  `Reads` says this:
it relates a text to its tokens piece by piece, without positions, and
`tokensFrom_eq_ok_iff` is the law that makes it the meaning of `tokensFrom`.

The law pays off where texts are put together.  A text in front of a piece of markup is
read as it would be alone (`Reads.append`): the markup ends a run of characters where the
end of the text would have ended it.  Nothing like this holds in front of characters,
which would join the last run.
-/

namespace AccessRights.Markup

open AccessRights.Text

/-! ## Where markup ends -/

/-- What follows the character that closes is of no importance. -/
theorem untilClose_append {σ : Type} {step : σ → Char → Option σ} {state : σ}
    {cs inside after : List Char} (h : untilClose step state cs = some (inside, after))
    (more : List Char) : untilClose step state (cs ++ more) = some (inside, after ++ more) := by
  induction cs generalizing state inside with
  | nil => cases h
  | cons c rest ih =>
    rw [untilClose] at h
    rw [List.cons_append, untilClose]
    cases hstep : step state c with
    | none =>
      rw [hstep] at h
      cases h
      rfl
    | some next =>
      rw [hstep] at h
      obtain ⟨⟨inside', after'⟩, hrest, heq⟩ := Option.map_eq_some_iff.mp h
      cases heq
      show Option.map _ (untilClose step next (rest ++ more)) = _
      rw [ih hrest]
      rfl

namespace Kind

/-- Where a piece of markup ends is not changed by what follows it. -/
theorem split_append {kind : Kind} {cs content after : List Char}
    (h : kind.split cs = some (content, after)) (more : List Char) :
    kind.split (cs ++ more) = some (content, after ++ more) := by
  cases kind <;> exact untilClose_append h more

/-- Nor is its kind. -/
theorem of?_append {cs : List Char} {kind : Kind} (hne : cs ≠ []) (h : of? cs = some kind)
    (more : List Char) : of? (cs ++ more) = some kind := by
  unfold of? at h
  split at h
  case h_5 => cases h
  case h_8 hbang hquestion hslash =>
    obtain ⟨c, rest, rfl⟩ := List.exists_cons_of_ne_nil hne
    rw [← h, List.cons_append]
    unfold of?
    split <;> simp_all
  all_goals exact h

/-- There is something to split. -/
theorem ne_nil_of_split {kind : Kind} {cs content after : List Char}
    (h : kind.split cs = some (content, after)) : cs ≠ [] := by
  rw [eq_append_of_split h]
  exact List.append_ne_nil_of_right_ne_nil _ (List.cons_ne_nil _ _)

/-- Only problems have a position. -/
theorem tokens_of_ok {kind : Kind} {position : Nat} {content : List Char} {here : List Token}
    (h : kind.tokens position content = .ok here) (other : Nat) :
    kind.tokens other content = .ok here := by
  cases kind with
  | startTag =>
    rw [tokens] at h ⊢
    cases htoken : Token.ofStartTag content with
    | ok token =>
      rw [htoken] at h
      exact h
    | error problem =>
      rw [htoken] at h
      cases h
  | endTag => exact h
  | instruction | characterData | comment =>
    rw [tokens] at h ⊢
    split at h
    · next hclosed =>
      rw [if_pos hclosed]
      exact h
    · cases h
  | doctype =>
    rw [tokens] at h ⊢
    split at h
    · next hclosed =>
      rw [if_pos hclosed]
      split at h
      · cases h
      · next hnamed =>
        rw [if_neg hnamed]
        exact h
    · cases h

end Kind

/-! ## Reading without positions -/

/-- The text is read as the tokens, wherever it starts. -/
inductive Reads : List Char → List Token → Prop
  | nil : Reads [] []
  | markup {kind : Kind} {rest content after : List Char} {here later : List Token} :
    Kind.of? rest = some kind → kind.split rest = some (content, after) →
      (∀ position, kind.tokens position content = .ok here) → Reads after later →
      Reads ('<' :: rest) (here ++ later)
  | run {c : Char} {rest : List Char} {later : List Token} :
    c ≠ '<' → Reads (rest.dropWhile (· != '<')) later →
      Reads (c :: rest) (.text (resolved (c :: rest.takeWhile (· != '<'))) :: later)

/-- Markup is read piece by piece, and the place moves on by what was read. -/
theorem tokensFrom_markup {kind : Kind} {rest content after : List Char} (position : Nat)
    (hkind : Kind.of? rest = some kind) (hsplit : kind.split rest = some (content, after)) :
    tokensFrom position ('<' :: rest) = (do
      let here ← kind.tokens position content
      let later ← tokensFrom (position + utf8Length content + 2) after
      pure (here ++ later)) := by
  rw [tokensFrom, hkind]
  dsimp only
  split
  · next hnone => cases hsplit.symm.trans hnone
  · next hsome =>
    cases hsplit.symm.trans hsome
    rfl

/-- A run of text is one token. -/
theorem tokensFrom_run {c : Char} (hc : c ≠ '<') (position : Nat) (rest : List Char) :
    tokensFrom position (c :: rest) = (do
      let later ← tokensFrom (position + utf8Length (c :: rest.takeWhile (· != '<')))
        (rest.dropWhile (· != '<'))
      pure (.text (resolved (c :: rest.takeWhile (· != '<'))) :: later)) := by
  rw [tokensFrom]
  exact hc

/-- What is read as tokens is read so from every place. -/
theorem Reads.tokensFrom_eq {cs : List Char} {tokens : List Token} (h : Reads cs tokens)
    (position : Nat) : tokensFrom position cs = .ok tokens := by
  induction h generalizing position with
  | nil => rw [tokensFrom]
  | markup hkind hsplit hhere _ ih =>
    rw [tokensFrom_markup position hkind hsplit, hhere]
    show Except.bind _ _ = _
    rw [ih]
    rfl
  | run hc _ ih =>
    rw [tokensFrom_run hc, ih]
    rfl

/-- Two steps succeed only if each does. -/
theorem exists_ok_of_bind_eq_ok {ε α β : Type} {first : Except ε α} {next : α → Except ε β}
    {result : β} (h : first >>= next = .ok result) :
    ∃ value, first = .ok value ∧ next value = .ok result := by
  cases first with
  | error problem => cases h
  | ok value => exact ⟨value, rfl, h⟩

/-- And whatever was read from some place is read so. -/
theorem reads_of_tokensFrom {position : Nat} {cs : List Char} {tokens : List Token}
    (h : tokensFrom position cs = .ok tokens) : Reads cs tokens := by
  induction position, cs using tokensFrom.induct generalizing tokens with
  | case1 position =>
    rw [tokensFrom] at h
    cases h
    exact .nil
  | case2 position rest hunknown =>
    rw [tokensFrom, hunknown] at h
    cases h
  | case3 position rest kind hkind hunclosed =>
    rw [tokensFrom, hkind] at h
    dsimp only at h
    split at h
    · cases h
    · next hsome => cases hunclosed.symm.trans hsome
  | case4 position rest kind hkind content after hsplit ih =>
    rw [tokensFrom_markup position hkind hsplit] at h
    obtain ⟨here, hhere, h⟩ := exists_ok_of_bind_eq_ok h
    obtain ⟨later, hlater, h⟩ := exists_ok_of_bind_eq_ok h
    cases h
    exact .markup hkind hsplit (Kind.tokens_of_ok hhere) (ih hlater)
  | case5 position c rest hc run =>
    rename_i ih
    rw [tokensFrom_run hc] at h
    obtain ⟨later, hlater, h⟩ := exists_ok_of_bind_eq_ok h
    cases h
    exact .run hc (ih hlater)

/-- **Positions play no part where reading succeeds.** -/
theorem tokensFrom_eq_ok_iff {position : Nat} {cs : List Char} {tokens : List Token} :
    tokensFrom position cs = .ok tokens ↔ Reads cs tokens :=
  ⟨reads_of_tokensFrom, fun h => h.tokensFrom_eq position⟩

/-- A run of characters ends where markup starts. -/
theorem takeWhile_append_markup (rest more : List Char) :
    (rest ++ '<' :: more).takeWhile (· != '<') = rest.takeWhile (· != '<') := by
  induction rest with
  | nil => rfl
  | cons c rest ih =>
    rw [List.cons_append, List.takeWhile_cons, List.takeWhile_cons, ih]

theorem dropWhile_append_markup (rest more : List Char) :
    (rest ++ '<' :: more).dropWhile (· != '<') = rest.dropWhile (· != '<') ++ '<' :: more := by
  induction rest with
  | nil => rfl
  | cons c rest ih =>
    rw [List.cons_append, List.dropWhile_cons, List.dropWhile_cons, ih]
    split <;> rfl

namespace Reads

/-- **A text in front of markup is read as it would be alone.** -/
theorem append {cs more : List Char} {tokens later : List Token} (h : Reads cs tokens)
    (hmore : Reads ('<' :: more) later) : Reads (cs ++ '<' :: more) (tokens ++ later) := by
  induction h with
  | nil => exact hmore
  | markup hkind hsplit hhere _ ih =>
    rw [List.append_assoc]
    exact .markup (Kind.of?_append (Kind.ne_nil_of_split hsplit) hkind _)
      (Kind.split_append hsplit _) hhere ih
  | @run c rest later' hc _ ih =>
    rw [← dropWhile_append_markup] at ih
    have hrun := Reads.run hc ih
    rw [takeWhile_append_markup] at hrun
    exact hrun

/-- A character in front, other than one that starts markup, becomes part of a run that is
there already or a run of its own. -/
theorem cons {c : Char} {cs : List Char} {tokens : List Token} (hc : c ≠ '<')
    (h : Reads cs tokens) : ∃ value later, Reads (c :: cs) (.text value :: later) ∧
      (tokens = later ∨ ∃ value', tokens = .text value' :: later) := by
  cases h with
  | nil => exact ⟨_, _, .run hc .nil, .inl rfl⟩
  | markup hkind hsplit hhere hafter =>
    exact ⟨_, _, .run hc (.markup hkind hsplit hhere hafter), .inl rfl⟩
  | @run d rest later hd hrest =>
    refine ⟨_, later, .run hc ?_, .inr ⟨_, rfl⟩⟩
    rw [List.dropWhile_cons, if_pos (bne_iff_ne.mpr hd)]
    exact hrest

end Reads

/-! ## Plain names -/

/-- What has a meaning of its own in a tag, white space apart. -/
def tagChars : List Char :=
  ['<', '>', '"', '\'', '/', ':', '=', '!', '?']

/-- The character has no meaning of its own in a tag. -/
def isPlainChar (c : Char) : Bool :=
  !isMarkupSpace c && !tagChars.contains c

/-- A name that reads the same in a tag as alone. -/
def PlainName (name : String) : Prop :=
  name.toList ≠ [] ∧ ∀ c ∈ name.toList, isPlainChar c = true

/-- What most names are made of. -/
def isNameChar (c : Char) : Bool :=
  c.isAlphanum || ['-', '_', '.'].contains c

/-- Letters, digits, dashes, underscores and dots are plain. -/
theorem isPlainChar_of_isNameChar {c : Char} (h : isNameChar c = true) :
    isPlainChar c = true := by
  have hnone : ([' ', '\t', '\r', '\n'] ++ tagChars).all (fun d => !isNameChar d) = true := by
    decide
  have hspecial : c ∉ [' ', '\t', '\r', '\n'] ++ tagChars := by
    intro hc
    have hfalse := List.all_eq_true.mp hnone c hc
    rw [h] at hfalse
    cases hfalse
  rw [List.mem_append, not_or] at hspecial
  have hspace : isMarkupSpace c = false := by
    simpa [isMarkupSpace, and_assoc] using hspecial.1
  rw [isPlainChar, hspace, List.contains_eq_mem, decide_eq_false hspecial.2]
  rfl

/-- A plain character is no space. -/
theorem isMarkupSpace_of_isPlainChar {c : Char} (h : isPlainChar c = true) :
    isMarkupSpace c = false := by
  rw [isPlainChar, Bool.and_eq_true, Bool.not_eq_true'] at h
  exact h.1

/-- It is none of the characters that are not plain. -/
theorem ne_of_isPlainChar {c d : Char} (h : isPlainChar c = true)
    (hd : isPlainChar d = false) : c ≠ d := by
  rintro rfl
  exact Bool.false_ne_true (hd.symm.trans h)

/-- A plain character leaves a tag open, and outside of quotes. -/
theorem tagStep_of_isPlainChar {c : Char} (h : isPlainChar c = true) :
    tagStep none c = some none := by
  unfold tagStep
  rw [if_neg (ne_of_isPlainChar h (by decide)), if_neg]
  rintro (hc | hc)
  · exact ne_of_isPlainChar h (by decide) hc
  · exact ne_of_isPlainChar h (by decide) hc

namespace PlainName

variable {name : String}

/-- A text of name characters is a plain name. -/
theorem of_isNameChar (hne : name.toList ≠ []) (h : name.toList.all isNameChar = true) :
    PlainName name :=
  ⟨hne, fun c hc => isPlainChar_of_isNameChar (List.all_eq_true.mp h c hc)⟩

/-- A plain name has no prefix. -/
theorem localName_eq (h : PlainName name) : localName name.toList = name.toList := by
  have hcolon : name.toList.dropWhile (· != ':') = [] :=
    List.dropWhile_eq_nil_iff.mpr fun c hc =>
      bne_iff_ne.mpr (ne_of_isPlainChar (h.2 c hc) (by decide))
  rw [localName, hcolon]

/-- Behind an angle bracket a plain name starts a tag. -/
theorem kind_startTag (h : PlainName name) (more : List Char) :
    Kind.of? (name.toList ++ more) = some .startTag := by
  obtain ⟨c, rest, hname⟩ := List.exists_cons_of_ne_nil h.1
  have hplain : isPlainChar c = true := h.2 c (hname ▸ List.mem_cons_self)
  have hbang : c ≠ '!' := ne_of_isPlainChar hplain (by decide)
  have hquestion : c ≠ '?' := ne_of_isPlainChar hplain (by decide)
  have hslash : c ≠ '/' := ne_of_isPlainChar hplain (by decide)
  rw [hname, List.cons_append]
  unfold Kind.of?
  split <;> simp_all

end PlainName

end AccessRights.Markup
