import AccessRights.Proofs.Spelling

/-!
# Recovery is repair

The builder takes in any sequence of tokens.  What it does with one that is not balanced
can be said without it: `repair` puts the tokens right, from left to right and knowing
only the names of the elements that are open, and a strict reader reads the outcome.
`ofTokens_eq_repaired` says that the two agree for all sequences of tokens.

## What carries the argument

There are two facts about `repair`, both by induction on the tokens and for any elements
that are open already.

* No reader that recovers notices it (`Recovers.foldl_repairFrom`).  The end tags that are
  put in front of an end tag close one by one what that tag would close at once, and an end
  tag that is left out is one that such a reader ignores.  `Recovers` is what one step of a
  reader must do for that, and the builder is such a reader (`Builder.recovers`).
* What comes out is balanced up to the end tags of what is open (`Closes`), in the order
  in which they have to come.  With nothing open this is the grammar `Spells`.

Neither knows of the other, and the content follows from `Spells.ofTokens_eq`.
-/

namespace AccessRights

open AccessRights.Markup

/-! ## Putting tokens right -/

/-- The tokens put right, where elements of the given names are open, innermost first.  An
end tag for which nothing is open is left out, any other gets the end tags in front of it
that are missing there, and the end tags that are missing at the end are added. -/
def repairFrom : List String → List Token → List Token
  | opened, [] => opened.map .stop
  | opened, .start name attributes :: tokens =>
    .start name attributes :: repairFrom (name :: opened) tokens
  | opened, .empty name attributes :: tokens => .empty name attributes :: repairFrom opened tokens
  | opened, .text value :: tokens => .text value :: repairFrom opened tokens
  | opened, .stop name :: tokens =>
    if name ∈ opened then
      (opened.takeWhile (· ≠ name)).map .stop ++
        .stop name :: repairFrom (opened.dropWhile (· ≠ name)).tail tokens
    else
      repairFrom opened tokens

/-- The tokens put right. -/
def repair (tokens : List Token) : List Token :=
  repairFrom [] tokens

theorem filter_isStop_map_stop (names : List String) :
    (names.map Token.stop).filter (!·.isStop) = [] := by
  refine List.filter_eq_nil_iff.mpr fun token htoken => ?_
  obtain ⟨name, -, rfl⟩ := List.mem_map.mp htoken
  exact Bool.false_ne_true

/-- Only end tags are added or left out. -/
theorem filter_repairFrom (opened : List String) (tokens : List Token) :
    (repairFrom opened tokens).filter (!·.isStop) = tokens.filter (!·.isStop) := by
  induction tokens generalizing opened with
  | nil => exact filter_isStop_map_stop opened
  | cons token tokens ih =>
    cases token with
    | start name attributes => exact congrArg (Token.start name attributes :: ·) (ih _)
    | empty name attributes => exact congrArg (Token.empty name attributes :: ·) (ih _)
    | text value => exact congrArg (Token.text value :: ·) (ih _)
    | stop name =>
      rw [repairFrom]
      split
      · rw [List.filter_append, filter_isStop_map_stop]
        exact ih _
      · exact ih opened

/-! ## Readers that recover -/

/-- A reader that goes from token to token by the rules of recovery.  `names` are the names of the
elements that are open, innermost first, and `step` takes in one token. -/
structure Recovers {σ : Type} (step : σ → Token → σ) (names : σ → List String) : Prop where
  start : ∀ state name attributes, names (step state (.start name attributes)) = name :: names state
  empty : ∀ state name attributes, names (step state (.empty name attributes)) = names state
  text : ∀ state value, names (step state (.text value)) = names state
  /-- An end tag for which nothing is open makes no difference. -/
  stray : ∀ state name, name ∉ names state → step state (.stop name) = state
  /-- The end tag of the innermost element closes it alone. -/
  innermost : ∀ state name outer, names state = name :: outer →
    names (step state (.stop name)) = outer
  /-- Any other end tag closes the innermost element as its own end tag would, and goes on. -/
  through : ∀ state name first outer, names state = first :: outer → first ≠ name →
    name ∈ outer → step (step state (.stop first)) (.stop name) = step state (.stop name)

namespace Recovers

variable {σ : Type} {step : σ → Token → σ} {names : σ → List String}

/-- **An end tag closes at once what the missing end tags and itself close one by one.** -/
theorem step_missing (h : Recovers step names) {state : σ} {name : String}
    (hopen : name ∈ names state) :
    step ((((names state).takeWhile (· ≠ name)).map Token.stop).foldl step state) (.stop name) =
        step state (.stop name) ∧
      names (step state (.stop name)) = ((names state).dropWhile (· ≠ name)).tail := by
  generalize hnames : names state = opened at hopen ⊢
  induction opened generalizing state with
  | nil => cases hopen
  | cons first outer ih =>
    by_cases hname : first = name
    · subst hname
      rw [List.takeWhile_cons_of_neg (by simp), List.dropWhile_cons_of_neg (by simp)]
      exact ⟨rfl, h.innermost state first outer hnames⟩
    · have houter : name ∈ outer := (List.mem_cons.mp hopen).resolve_left (Ne.symm hname)
      have hthrough := h.through state name first outer hnames hname houter
      obtain ⟨hstep, hafter⟩ := ih (h.innermost state first outer hnames) houter
      rw [List.takeWhile_cons_of_pos (by simpa using hname),
        List.dropWhile_cons_of_pos (by simpa using hname), List.map_cons, List.foldl_cons, hstep,
        hthrough]
      rw [hthrough] at hafter
      exact ⟨rfl, hafter⟩

/-- **Putting tokens right makes no difference to such a reader**, up to the end tags at the end
of what is open there. -/
theorem foldl_repairFrom (h : Recovers step names) (state : σ) (tokens : List Token) :
    (repairFrom (names state) tokens).foldl step state =
      ((names (tokens.foldl step state)).map Token.stop).foldl step (tokens.foldl step state) := by
  induction tokens generalizing state with
  | nil => rfl
  | cons token tokens ih =>
    cases token with
    | start name attributes =>
      rw [repairFrom, ← h.start state name attributes]
      exact ih _
    | empty name attributes =>
      rw [repairFrom, ← h.empty state name attributes]
      exact ih _
    | text value =>
      rw [repairFrom, ← h.text state value]
      exact ih _
    | stop name =>
      rw [repairFrom]
      split
      · next hopen =>
        obtain ⟨hstep, hafter⟩ := h.step_missing hopen
        rw [List.foldl_append, List.foldl_cons, hstep, ← hafter]
        exact ih _
      · next hclosed =>
        rw [List.foldl_cons, h.stray state name hclosed]
        exact ih state

end Recovers

/-! ## The builder does not notice -/

namespace Builder

/-- The names of the open elements, innermost first. -/
def names (builder : Builder) : List String :=
  builder.opened.map OpenElement.name

/-- An end tag closes through the elements that are open, if its name is among theirs. -/
theorem push_stop_eq (builder : Builder) (name : String) :
    builder.push (.stop name) =
      if name ∈ builder.names then closeThrough name builder.opened builder.done else builder := by
  have hany : builder.opened.any (·.name == name) = decide (name ∈ builder.names) := by
    rw [Bool.eq_iff_iff, List.any_eq_true, decide_eq_true_iff, names, List.mem_map]
    simp
  rw [push, hany]
  simp only [decide_eq_true_eq]

/-- **The builder recovers from tags that do not match.** -/
theorem recovers : Recovers push names where
  start _ _ _ := rfl
  empty _ _ _ := rfl
  text builder value := by
    rw [push]
    split <;> rfl
  stray builder name hclosed := by rw [push_stop_eq, if_neg hclosed]
  innermost := by
    rintro ⟨opened, done⟩ name outer hnames
    obtain ⟨element, rest, rfl, rfl, rfl⟩ := List.map_eq_cons_iff.mp hnames
    rw [push_stop_innermost]
    rfl
  through := by
    rintro ⟨opened, done⟩ name first outer hnames hname houter
    obtain ⟨element, rest, rfl, rfl, rfl⟩ := List.map_eq_cons_iff.mp hnames
    have hopen : name ∈ (⟨element :: rest, done⟩ : Builder).names := List.mem_cons_of_mem _ houter
    rw [push_stop_innermost, push_stop_eq, push_stop_eq, if_pos hopen, closeThrough, if_neg hname]
    exact if_pos houter

/-- End tags at the end close nothing that would not be closed anyway. -/
theorem finish_foldl_push_stops (builder : Builder) (stops : List String) :
    ((stops.map Token.stop).foldl push builder).finish = builder.finish := by
  induction stops generalizing builder with
  | nil => rfl
  | cons stop stops ih => exact (ih _).trans (finish_push_stop builder stop)

/-- **Putting tokens right makes no difference to the builder.** -/
theorem finish_foldl_push_repairFrom (builder : Builder) (tokens : List Token) :
    ((repairFrom builder.names tokens).foldl push builder).finish =
      (tokens.foldl push builder).finish := by
  rw [recovers.foldl_repairFrom, finish_foldl_push_stops]

end Builder

/-! ## What comes out is balanced -/

/-- The tokens are balanced up to the end tags of the given names, which come in their order
with balanced tokens before, between and after them. -/
inductive Closes : List String → List Token → Prop
  | nil {tokens : List Token} : Balanced tokens → Closes [] tokens
  | cons {inside tokens : List Token} {names : List String} (name : String) :
    Balanced inside → Closes names tokens → Closes (name :: names) (inside ++ .stop name :: tokens)

namespace Closes

variable {names : List String} {tokens : List Token}

/-- A token that opens and closes nothing goes in front. -/
theorem cons_token {token : Token} (hstart : ∀ name attributes, token ≠ .start name attributes)
    (hstop : token.isStop = false) (h : Closes names tokens) : Closes names (token :: tokens) := by
  cases h with
  | nil htokens => exact .nil (htokens.cons hstart hstop)
  | cons name hinside hrest => exact .cons name (hinside.cons hstart hstop) hrest

/-- A start tag goes in front of what closes its element first. -/
theorem start {name : String} (attributes : List (String × String))
    (h : Closes (name :: names) tokens) : Closes names (.start name attributes :: tokens) := by
  cases h with
  | cons _ hinside hrest =>
    cases hrest with
    | nil htokens => exact .nil (Balanced.element name attributes hinside htokens)
    | @cons inside' tokens' names' name' hinside' hrest' =>
      have hclosed := Closes.cons name' (Balanced.element name attributes hinside hinside') hrest'
      simpa using hclosed

/-- The end tags of what is open close it. -/
theorem map_stop (names : List String) : Closes names (names.map Token.stop) := by
  induction names with
  | nil => exact .nil .nil
  | cons name names ih => exact .cons name .nil ih

/-- End tags in the order of the open elements, up to the innermost of some name. -/
theorem missing {name : String} (hopen : name ∈ names)
    (h : Closes (names.dropWhile (· ≠ name)).tail tokens) :
    Closes names ((names.takeWhile (· ≠ name)).map Token.stop ++ .stop name :: tokens) := by
  induction names with
  | nil => cases hopen
  | cons first names ih =>
    by_cases hname : first = name
    · subst hname
      rw [List.dropWhile_cons_of_neg (by simp)] at h
      rw [List.takeWhile_cons_of_neg (by simp)]
      exact .cons first .nil h
    · rw [List.dropWhile_cons_of_pos (by simpa using hname)] at h
      rw [List.takeWhile_cons_of_pos (by simpa using hname)]
      exact .cons first .nil (ih ((List.mem_cons.mp hopen).resolve_left (Ne.symm hname)) h)

end Closes

/-- **Putting tokens right balances them**, up to the end tags of what was open. -/
theorem closes_repairFrom (opened : List String) (tokens : List Token) :
    Closes opened (repairFrom opened tokens) := by
  induction tokens generalizing opened with
  | nil => exact Closes.map_stop opened
  | cons token tokens ih =>
    cases token with
    | start name attributes => exact (ih (name :: opened)).start attributes
    | empty name attributes => exact (ih opened).cons_token nofun rfl
    | text value => exact (ih opened).cons_token nofun rfl
    | stop name =>
      rw [repairFrom]
      split
      · next hopen => exact .missing hopen (ih _)
      · exact ih opened

/-- With nothing open the tokens come out balanced. -/
theorem balanced_repair (tokens : List Token) : Balanced (repair tokens) := by
  cases closes_repairFrom [] tokens with
  | nil h => exact h

/-- What is read from any tokens is what the repaired ones spell. -/
theorem exists_spells_repair (tokens : List Token) :
    ∃ content, Spells (repair tokens) content ∧
      Content.ofTokens tokens = content.withoutOuterText := by
  obtain ⟨content, hspells⟩ := balanced_repair tokens
  refine ⟨content, hspells, ?_⟩
  calc Content.ofTokens tokens
      = Content.ofTokens (repair tokens) :=
        (Builder.finish_foldl_push_repairFrom Builder.start tokens).symm
    _ = content.withoutOuterText := hspells.ofTokens_eq

/-- **Recovering from unbalanced tags is reading the repaired tokens strictly.**  A strict
reader finds one content in them, which is what is read from the tokens as they are, and
every other token is kept.  Each end tag of the repaired tokens closes an element that a
start tag before it opened, so none closes the document. -/
theorem ofTokens_eq_repaired (tokens : List Token) :
    (repair tokens).filter (!·.isStop) = tokens.filter (!·.isStop) ∧
      (∀ before name after, repair tokens = before ++ .stop name :: after →
        ∃ earlier attributes inside,
          before = earlier ++ .start name attributes :: inside ∧ Balanced inside) ∧
      ∃ content, Spells (repair tokens) content ∧
        (∀ other, Spells (repair tokens) other → other = content) ∧
        Document.ofTokens tokens = ⟨content.withoutOuterText⟩ := by
  obtain ⟨content, hspells, hcontent⟩ := exists_spells_repair tokens
  have hkept := filter_repairFrom [] tokens
  refine ⟨hkept, ?_, content, hspells, ?_, congrArg Document.mk hcontent⟩
  · intro before name after hsplit
    exact hspells.exists_start_of_stop hsplit
  · intro other hother
    exact hother.unique hspells

/-- Crossing tags, a stray end tag and elements that are not closed. -/
example : repair [.start "a" [], .start "b" [], .start "b" [], .stop "a", .stop "c", .text "x",
    .start "d" []] =
      [.start "a" [], .start "b" [], .start "b" [], .stop "b", .stop "b", .stop "a", .text "x",
        .start "d" [], .stop "d"] := by
  decide

end AccessRights
