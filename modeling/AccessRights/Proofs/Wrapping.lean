import AccessRights.Proofs.BlockTrees
import AccessRights.Proofs.Evaluated
import AccessRights.Proofs.Spelling
import AccessRights.Proofs.WrittenTags

/-!
# An element around everything

Rights metadata need not be the outermost element of a text.  `evaluate_wrapped` says that
one more element around all of a text changes nothing that evaluation gives, however
unbalanced the tags of the text are.

## The two builders

The text with the element around it is read with one more element open, below all others
(`Builder.Within`).  That element is out of reach for every end tag but one of its own
name, which is why the text must hold none.  It does keep text that is dropped where
nothing is open, so what the two builders hold at the top agrees in its elements only; no
access block is found in such text.

An unclosed start tag of the same name does no harm.  The last end tag of the wrapped text
then closes that element instead, and the outer one is closed at the end of the text
(`Builder.finish_push_stop`).

## The byte order mark

A text may start with a mark that is dropped at the start of a text, but is character data
anywhere else.  Inside the new element it joins the text at the top, or is the first of
it (`Reads.cons`), and has no effect there.
-/

namespace AccessRights

open AccessRights.Markup

/-! ## Reversed content -/

namespace Content

theorem topElements_reverseOnto (content after : Content) :
    (content.reverseOnto after).topElements =
      content.topElements.reverse ++ after.topElements := by
  induction content generalizing after with
  | nil => rfl
  | text value rest ih => exact ih (text value after)
  | element name attributes inner rest _ ih =>
    rw [reverseOnto, ih, topElements, topElements, List.reverse_cons, List.append_assoc]
    rfl

theorem topElements_reverse (content : Content) :
    content.reverse.topElements = content.topElements.reverse := by
  rw [reverse, topElements_reverseOnto, topElements, List.append_nil]

end Content

/-! ## One more element open -/

namespace Builder

/-- The second builder is the first with one more element open, around all others.  Right
inside that element the two hold the same elements. -/
inductive Within (name : String) (attributes : List (String × String)) :
    Builder → Builder → Prop
  | top {done done' : Content} : done.topElements = done'.topElements →
    Within name attributes ⟨[], done⟩ ⟨[⟨name, attributes, .nil⟩], done'⟩
  | inside {outer outer' : List OpenElement} {before before' : Content} (tag : String)
    (values : List (String × String)) (done : Content) :
    Within name attributes ⟨outer, before⟩ ⟨outer', before'⟩ →
      Within name attributes ⟨⟨tag, values, before⟩ :: outer, done⟩
        ⟨⟨tag, values, before'⟩ :: outer', done⟩

namespace Within

variable {name : String} {attributes : List (String × String)} {builder builder' : Builder}

/-- An element that is complete goes to the content read so far. -/
theorem push_element {opened opened' : List OpenElement} {done done' : Content}
    (h : Within name attributes ⟨opened, done⟩ ⟨opened', done'⟩) (tag : String)
    (values : List (String × String)) (inner : Content) :
    Within name attributes ⟨opened, .element tag values inner done⟩
      ⟨opened', .element tag values inner done'⟩ := by
  cases h with
  | top hdone =>
    refine .top ?_
    rw [Content.topElements, Content.topElements, hdone]
  | inside tag' values' done hbelow => exact .inside tag' values' _ hbelow

theorem any_opened (h : Within name attributes builder builder') {stop : String}
    (hstop : stop ≠ name) :
    (builder'.opened.any (·.name == stop)) = builder.opened.any (·.name == stop) := by
  induction h with
  | top _ =>
    show (name == stop || false) = false
    rw [Bool.or_false, beq_eq_false_iff_ne]
    exact hstop.symm
  | inside tag values done _ ih => exact congrArg (tag == stop || ·) ih

/-- The elements that an end tag closes are the same ones, and the element around
everything stays open. -/
theorem closeThrough {stop : String} {opened opened' : List OpenElement} {done done' : Content}
    (h : Within name attributes ⟨opened, done⟩ ⟨opened', done'⟩)
    (hopen : opened.any (·.name == stop) = true) :
    Within name attributes (Builder.closeThrough stop opened done)
      (Builder.closeThrough stop opened' done') := by
  induction opened generalizing opened' done done' with
  | nil => cases hopen
  | cons element outer ih =>
    cases h with
    | inside tag values done hbelow =>
      have hclosed := hbelow.push_element tag values done.reverse
      rw [Builder.closeThrough, Builder.closeThrough]
      split
      · exact hclosed
      · next hname =>
        rw [List.any_cons, beq_eq_false_iff_ne.mpr hname, Bool.false_or] at hopen
        exact ih hclosed hopen

/-- **One token** keeps the two builders side by side, unless it is an end tag of the
element around everything. -/
theorem push (h : Within name attributes builder builder') {token : Token}
    (htoken : token ≠ .stop name) :
    Within name attributes (builder.push token) (builder'.push token) := by
  cases token with
  | start tag values => exact .inside tag values .nil h
  | empty tag values => exact h.push_element tag values .nil
  | text value =>
    cases h with
    | top hdone => exact .top hdone
    | inside tag values done hbelow => exact .inside tag values _ hbelow
  | stop stop =>
    have hstop : stop ≠ name := fun heq => htoken (congrArg Token.stop heq)
    rw [Builder.push, Builder.push, h.any_opened hstop]
    split
    · next hopen => exact h.closeThrough hopen
    · exact h

/-- **All tokens** do, from beginning to end. -/
theorem foldl_push {tokens : List Token} (h : Within name attributes builder builder')
    (htokens : .stop name ∉ tokens) :
    Within name attributes (tokens.foldl Builder.push builder)
      (tokens.foldl Builder.push builder') := by
  induction tokens generalizing builder builder' with
  | nil => exact h
  | cons token rest ih =>
    rw [List.mem_cons, not_or] at htokens
    exact ih (h.push (Ne.symm htokens.1)) htokens.2

/-- At the end the element around everything holds what there would be without it. -/
theorem closeAll {opened opened' : List OpenElement} {done done' : Content}
    (h : Within name attributes ⟨opened, done⟩ ⟨opened', done'⟩) :
    ∃ inner, Builder.closeAll opened' done' = .element name attributes inner .nil ∧
      inner.topElements = (Builder.closeAll opened done).topElements := by
  induction opened generalizing opened' done done' with
  | nil =>
    cases h with
    | top hdone =>
      refine ⟨done'.reverse, rfl, ?_⟩
      rw [Builder.closeAll, Content.topElements_reverse, Content.topElements_reverse, hdone]
  | cons element outer ih =>
    cases h with
    | inside tag values done hbelow =>
      rw [Builder.closeAll, Builder.closeAll]
      exact ih (hbelow.push_element tag values done.reverse)

end Within

end Builder

namespace Content

/-- **An element around all tokens is an element around their content.** -/
theorem exists_ofTokens_wrapped {name : String} {tokens : List Token}
    (attributes : List (String × String)) (htokens : .stop name ∉ tokens) :
    ∃ inner, ofTokens (.start name attributes :: (tokens ++ [.stop name])) =
        element name attributes inner nil ∧
      inner.topElements = (ofTokens tokens).topElements := by
  have hstart : Builder.Within name attributes Builder.start
      (Builder.start.push (.start name attributes)) := .top rfl
  obtain ⟨inner, hfinish, hinner⟩ := (hstart.foldl_push htokens).closeAll
  refine ⟨inner, ?_, hinner⟩
  rw [ofTokens, List.foldl_cons, List.foldl_append]
  exact (Builder.finish_push_stop _ name).trans hfinish

end Content

/-! ## Evaluation -/

namespace Document

/-- What is said about rights depends on the elements at the top only. -/
theorem metadata_congr {document document' : Document}
    (h : document.content.topElements = document'.content.topElements) :
    document.view.metadata = document'.view.metadata := by
  rw [metadata_eq, metadata_eq, Content.allElements_eq_flatMap, Content.allElements_eq_flatMap,
    Content.blockElements_eq_flatMap, Content.blockElements_eq_flatMap, h]

/-- An element around everything says nothing, unless it is a rights element. -/
theorem metadata_wrapped {name : String} (hname : name ≠ Vocabulary.rightsMetadata)
    (attributes : List (String × String)) (inner : Content) :
    (⟨.element name attributes inner .nil⟩ : Document).view.metadata =
      (⟨inner⟩ : Document).view.metadata := by
  have hblocks : (Content.element name attributes inner .nil).blockElements false =
      inner.blockElements false := by
    rw [Content.blockElements, Content.blockElements, decide_eq_false hname, List.append_nil]
    rfl
  have hpresent : (Content.element name attributes inner .nil).allElements.any
      (fun element => element.name = Vocabulary.rightsMetadata) =
        inner.allElements.any fun element => element.name = Vocabulary.rightsMetadata := by
    rw [Content.allElements, Content.allElements, List.append_nil, List.any_cons,
      decide_eq_false hname, Bool.false_or]
  rw [metadata_eq, metadata_eq, hblocks, hpresent]

end Document

/-- The text with an element around all of it. -/
def wrapped (name text : String) : String :=
  "<" ++ name ++ ">" ++ text ++ "</" ++ name ++ ">"

section Wrapped

variable {name text : String} {ts : List Token}

/-- Where it does not stand at the start of a text, a byte order mark adds to the text at
the top and to nothing else. -/
theorem exists_reads_of_tokens (hread : tokens text = .ok ts) :
    ∃ ts', Reads text.toList ts' ∧ Content.ofTokens ts' = Content.ofTokens ts ∧
      ∀ stop, .stop stop ∈ ts' → .stop stop ∈ ts := by
  have hreads : Reads (dropByteOrderMark text.toList) ts := tokensFrom_eq_ok_iff.mp hread
  unfold dropByteOrderMark at hreads
  split at hreads
  · next rest htext =>
    obtain ⟨value, later, hvalue, hlater⟩ := hreads.cons (c := '\uFEFF') (by decide)
    rw [htext]
    refine ⟨_, hvalue, ?_⟩
    rcases hlater with rfl | ⟨value', rfl⟩
    · exact ⟨rfl, fun stop hstop => (List.mem_cons.mp hstop).resolve_left nofun⟩
    · refine ⟨rfl, fun stop hstop => ?_⟩
      exact List.mem_cons_of_mem _ ((List.mem_cons.mp hstop).resolve_left nofun)
  · exact ⟨ts, hreads, rfl, fun _ hstop => hstop⟩

theorem toList_wrapped (name text : String) :
    (wrapped name text).toList = '<' :: (name.toList ++ '>' ::
      (text.toList ++ '<' :: '/' :: (name.toList ++ ['>']))) := by
  simp [wrapped]

/-- The wrapped text is one element, which holds what the text says. -/
theorem read_wrapped (hname : PlainName name) (hread : tokens text = .ok ts)
    (hstop : .stop name ∉ ts) :
    ∃ inner, Document.read (wrapped name text) = .ok ⟨.element name [] inner .nil⟩ ∧
      inner.topElements = (Content.ofTokens ts).topElements := by
  obtain ⟨ts', hreads, hsame, hstops⟩ := exists_reads_of_tokens hread
  obtain ⟨inner, hinner, htop⟩ :=
    Content.exists_ofTokens_wrapped [] fun hmem => hstop (hstops name hmem)
  have hwrapped : tokens (wrapped name text) = .ok (.start name [] :: (ts' ++ [.stop name])) := by
    have hend : Reads ('<' :: '/' :: (qualified none name ++ ([] ++ ['>']))) [.stop name] :=
      .closingTag (.none _) hname .nil .nil
    have hwhole : Reads ('<' :: (qualified none name ++ ([] ++ '>' :: (text.toList ++
        '<' :: '/' :: (name.toList ++ ['>']))))) (.start name [] :: (ts' ++ [.stop name])) :=
      .openingTag (fun p hp => hp) (.none _) hname ⟨nofun, List.nodup_nil⟩ (.nil .nil)
        (hreads.append hend)
    rw [tokens, toList_wrapped]
    exact tokensFrom_eq_ok_iff.mpr hwhole
  refine ⟨inner, ?_, hsame ▸ htop⟩
  rw [Document.read, hwrapped]
  exact congrArg (fun content => Except.ok (Document.mk content)) hinner

variable {options : Options} {instant : Calendar.Instant}

/-- **An element around everything is irrelevant.**  The wrapped text gives the same
evaluation, or the same report on the release date, and neither is found malformed. -/
theorem evaluate_wrapped (hname : PlainName name) (hrights : name ≠ Vocabulary.rightsMetadata)
    (hread : tokens text = .ok ts) (hstop : .stop name ∉ ts)
    (hpinned : options.evaluatedAt = some instant) (now now' : Calendar.Instant) :
    (∃ evaluation, evaluate text options now = .ok evaluation ∧
      evaluate (wrapped name text) options now' = .ok evaluation) ∨
    ∃ value problem, evaluate text options now = .error (.releaseDate value problem) ∧
      evaluate (wrapped name text) options now' = .error (.releaseDate value problem) := by
  obtain ⟨inner, hwrapped, htop⟩ := read_wrapped hname hread hstop
  have hmetadata : (⟨.element name [] inner .nil⟩ : Document).view.metadata =
      (Document.ofTokens ts).view.metadata := by
    rw [Document.metadata_wrapped hrights]
    exact Document.metadata_congr htop
  have htext : evaluate text options now = (Document.ofTokens ts).view.evaluate options now := by
    rw [evaluate, Document.read, hread]
    rfl
  have hsame : evaluate (wrapped name text) options now' = evaluate text options now := by
    rw [htext, evaluate, hwrapped]
    show View.evaluate _ options now' = _
    rw [View.evaluate, View.evaluate, hmetadata]
    exact Metadata.evaluate_of_pinned hpinned _ now' now
  rw [hsame, htext]
  rcases (Document.ofTokens ts).view.evaluate_eq_ok_or_error options now with
    ⟨evaluation, h⟩ | ⟨value, problem, h⟩
  · exact .inl ⟨evaluation, h, h⟩
  · exact .inr ⟨value, problem, h, h⟩

end Wrapped

/-- A byte order mark, an end tag that closes nothing and start tags that are not closed,
one of them of the name `w.1`. -/
def unbalanced : String :=
  "\uFEFF<w.1><rightsMetadata></x><access type='read'><machine><world/>"

/-- The mark leaves no token. -/
def unbalancedTokens : List Token :=
  [.start "w.1" [], .start "rightsMetadata" [], .stop "x", .start "access" [("type", "read")],
    .start "machine" [], .empty "world" []]

theorem evaluate_wrapped_unbalanced : ∃ evaluation,
    tokens unbalanced = .ok unbalancedTokens ∧ .stop "w.1" ∉ unbalancedTokens ∧
      PlainName "w.1" ∧
      evaluate unbalanced ⟨true, some ⟨0, 0⟩⟩ ⟨1, 0⟩ = .ok evaluation ∧
      evaluate (wrapped "w.1" unbalanced) ⟨true, some ⟨0, 0⟩⟩ ⟨2, 0⟩ = .ok evaluation ∧
      evaluation.objectRight .world = ⟨true, none⟩ := by
  have hread : tokens unbalanced = .ok unbalancedTokens := by decide +kernel
  have hstop : .stop "w.1" ∉ unbalancedTokens := by decide
  have hname : PlainName "w.1" := .of_isNameChar (by decide) (by decide)
  have hpinned : (⟨true, some ⟨0, 0⟩⟩ : Options).evaluatedAt = some ⟨0, 0⟩ := rfl
  have hworld : ∃ evaluation, evaluate unbalanced ⟨true, some ⟨0, 0⟩⟩ ⟨1, 0⟩ = .ok evaluation ∧
      evaluation.objectRight .world = ⟨true, none⟩ := by
    rw [evaluate, Document.read, hread]
    exact ⟨_, rfl, rfl⟩
  obtain ⟨expected, hexpected, hgranted⟩ := hworld
  rcases evaluate_wrapped hname (by decide) hread hstop hpinned ⟨1, 0⟩ ⟨2, 0⟩ with
    ⟨evaluation, h, h'⟩ | ⟨value, problem, h, -⟩
  · cases hexpected.symm.trans h
    exact ⟨_, hread, hstop, hname, h, h', hgranted⟩
  · cases hexpected.symm.trans h

end AccessRights
