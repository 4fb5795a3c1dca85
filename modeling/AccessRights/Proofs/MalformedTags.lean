import AccessRights.Proofs.CompleteTags
import AccessRights.Proofs.Utf8Bytes

/-!
# The first malformed tag

An attribute that cannot be read stops reading, and the report gives the place of the tag that
has it.  `read_badAttribute` says that this is the first such tag and its own place, in both
directions.

* A text that is stopped by an attribute has a malformed tag at that place.  All that stands in
  front of the tag can be read, and the tag alone is stopped for the same reason.
* A text that can be read, with a malformed tag behind it, is stopped at the tag, whatever comes
  after it.

`IsMalformedTag` says what a malformed tag is without the machine that finds its end: no `>` in
it closes it but the last (`KeepsOpen`), and the attributes in it cannot be read.

## What carries the argument

Reading goes from piece to piece, and no piece looks past its end.  So what stands in front of
the tag is read without it as it is with it.  For markup this is a matter of its closing `>`
(`Kind.of?_closed`, `Kind.split_closed`), and for a run of characters of the `<` that comes next,
which ends it as the end of the text would.

A byte order mark is not counted.  It stands in front of the first piece and is no part of it,
so that the text up to the tag and the whole text have the same mark
(`dropByteOrderMark_append_markup`).
-/

namespace AccessRights.Markup

open AccessRights.Text

/-! ## Attributes that cannot be read -/

/-- The content of a tag without the slash that makes it an empty tag. -/
def withoutSlash (content : List Char) : List Char :=
  if content.getLast? = some '/' then content.dropLast else content

/-- The text is a complete start tag or empty tag, and no more, and the attributes in it have a
problem. -/
def IsMalformedTag (tag : String) (problem : AttributeProblem) : Prop :=
  ∃ content, tag.toList = '<' :: (content ++ ['>']) ∧ IsTagContent content ∧
    tagAttributes (withoutSlash content) = .error problem

/-- What is made of a result keeps its problem. -/
theorem map_eq_error_iff {ε α β : Type} {result : Except ε α} {f : α → β} {problem : ε} :
    result.map f = .error problem ↔ result = .error problem := by
  cases result with
  | ok value => exact ⟨nofun, nofun⟩
  | error other =>
    constructor
    · intro h
      cases h
      rfl
    · intro h
      cases h
      rfl

/-- A start tag fails by its attributes only. -/
theorem ofStartTag_eq_error_iff {content : List Char} {problem : AttributeProblem} :
    Token.ofStartTag content = .error problem ↔
      tagAttributes (withoutSlash content) = .error problem := by
  unfold Token.ofStartTag withoutSlash
  split
  · exact map_eq_error_iff
  · exact map_eq_error_iff

/-- Markup takes its content and the two characters around it. -/
theorem utf8Length_markup (content after : List Char) :
    utf8Length ('<' :: (content ++ '>' :: after)) = utf8Length content + 2 + utf8Length after := by
  have hopen : '<'.utf8Size = 1 := rfl
  have hclose : '>'.utf8Size = 1 := rfl
  rw [utf8Length_cons, utf8Length_append, utf8Length_cons, hopen, hclose]
  omega

/-- Two steps fail if the first does, or else the second. -/
theorem error_of_bind_eq_error {ε α β : Type} {first : Except ε α} {next : α → Except ε β}
    {problem : ε} (h : first >>= next = .error problem) :
    first = .error problem ∨ ∃ value, first = .ok value ∧ next value = .error problem := by
  cases first with
  | error other =>
    cases h
    exact .inl rfl
  | ok value => exact .inr ⟨value, rfl, h⟩

/-- Only tags that start an element have attributes, and the report gives their place. -/
theorem Kind.of_tokens_eq_badAttribute {kind : Kind} {position place : Nat} {content : List Char}
    {problem : AttributeProblem}
    (h : kind.tokens position content = .error (.badAttribute place problem)) :
    kind = .startTag ∧ place = position ∧
      tagAttributes (withoutSlash content) = .error problem := by
  cases kind with
  | startTag =>
    rw [tokens] at h
    cases htoken : Token.ofStartTag content with
    | ok token =>
      rw [htoken] at h
      cases h
    | error other =>
      rw [htoken] at h
      cases h
      exact ⟨rfl, rfl, ofStartTag_eq_error_iff.mp htoken⟩
  | endTag => cases h
  | instruction | characterData | comment =>
    rw [tokens] at h
    split at h <;> cases h
  | doctype =>
    rw [tokens] at h
    split at h
    · split at h <;> cases h
    · cases h

/-- And the report has the place where the tag starts. -/
theorem Kind.tokens_eq_badAttribute {content : List Char} {problem : AttributeProblem}
    (h : tagAttributes (withoutSlash content) = .error problem) (position : Nat) :
    Kind.startTag.tokens position content = .error (.badAttribute position problem) := by
  rw [tokens, ofStartTag_eq_error_iff.mpr h]

/-- **What is read stays read with a malformed tag behind it**, and the tag is reported. -/
theorem Reads.tokensFrom_eq_badAttribute {before content after : List Char} {ts : List Token}
    {problem : AttributeProblem} (h : Reads before ts) (hcontent : IsTagContent content)
    (hproblem : tagAttributes (withoutSlash content) = .error problem) (position : Nat) :
    tokensFrom position (before ++ '<' :: (content ++ '>' :: after)) =
      .error (.badAttribute (position + utf8Length before) problem) := by
  induction h generalizing position with
  | nil =>
    rw [List.nil_append, tokensFrom_markup position (Kind.of?_eq_startTag_iff.mpr hcontent.starts)
      (split_startTag_iff.mpr ⟨rfl, hcontent.keepsOpen⟩), Kind.tokens_eq_badAttribute hproblem]
    rfl
  | @markup kind rest content' after' here later hkind hsplit hhere _ ih =>
    have hrest := Kind.eq_append_of_split hsplit
    rw [List.cons_append, tokensFrom_markup position
      (Kind.of?_append (Kind.ne_nil_of_split hsplit) hkind _) (Kind.split_append hsplit _), hhere]
    show Except.bind (tokensFrom _ (after' ++ _)) _ = _
    rw [ih, hrest]
    show Except.error _ = Except.error _
    rw [utf8Length_markup]
    congr 2
    omega
  | @run c rest later hc _ ih =>
    rw [List.cons_append, tokensFrom_run hc, takeWhile_append_markup, dropWhile_append_markup, ih]
    show Except.error _ = Except.error _
    have hwhole : utf8Length (rest.takeWhile (· != '<')) + utf8Length (rest.dropWhile (· != '<')) =
        utf8Length rest := by
      rw [← utf8Length_append, List.takeWhile_append_dropWhile]
    simp only [utf8Length_cons]
    congr 2
    omega

/-- **A text that is stopped by an attribute** can be read up to a malformed tag, and the tag
is what the report is about. -/
theorem exists_of_tokensFrom_eq_badAttribute {position place : Nat} {cs : List Char}
    {problem : AttributeProblem}
    (h : tokensFrom position cs = .error (.badAttribute place problem)) :
    ∃ before content after ts, cs = before ++ '<' :: (content ++ '>' :: after) ∧
      Reads before ts ∧ IsTagContent content ∧
      tagAttributes (withoutSlash content) = .error problem ∧
      place = position + utf8Length before := by
  induction position, cs using tokensFrom.induct with
  | case1 position =>
    rw [tokensFrom] at h
    cases h
  | case2 position rest hunknown =>
    rw [tokensFrom, hunknown] at h
    cases h
  | case3 position rest kind hkind hunclosed =>
    rw [tokensFrom, hkind] at h
    dsimp only at h
    split at h
    · cases h
    · next hsome => cases hunclosed.symm.trans hsome
  | case4 position rest kind hkind content after hsplit ih =>
    rw [tokensFrom_markup position hkind hsplit] at h
    have hrest := Kind.eq_append_of_split hsplit
    subst hrest
    rcases error_of_bind_eq_error h with hhere | ⟨here, hhere, h⟩
    · -- The markup is the tag.
      obtain ⟨rfl, rfl, hproblem⟩ := Kind.of_tokens_eq_badAttribute hhere
      exact ⟨[], content, after, [], rfl, .nil,
        ⟨Kind.of?_eq_startTag_iff.mp hkind, (split_startTag_iff.mp hsplit).2⟩, hproblem, rfl⟩
    · rcases error_of_bind_eq_error h with hlater | ⟨later, -, h⟩
      · obtain ⟨before, content', after', ts, rfl, hreads, hcontent, hproblem, rfl⟩ := ih hlater
        refine ⟨'<' :: (content ++ '>' :: before), content', after', here ++ ts, by simp,
          .markup (Kind.of?_closed hkind _) (Kind.split_closed hsplit _)
            (Kind.tokens_of_ok hhere) hreads, hcontent, hproblem, ?_⟩
        rw [utf8Length_markup]
        omega
      · cases h
  | case5 position c rest hc run =>
    rename_i ih
    rw [tokensFrom_run hc] at h
    rcases error_of_bind_eq_error h with hlater | ⟨later, -, h⟩
    · obtain ⟨before, content, after, ts, hdrop, hreads, hcontent, hproblem, rfl⟩ := ih hlater
      have hnext : ∀ d ∈ before.head?, d = '<' := by
        intro d hd
        apply eq_of_mem_head?_dropWhile
        rw [hdrop, List.head?_append, Option.mem_def.mp hd]
        rfl
      have hrun := hreads.run_append (List.cons_ne_nil _ _) (not_mem_cons_takeWhile hc rest) hnext
      refine ⟨run ++ before, content, after, _, ?_, hrun, hcontent, hproblem, ?_⟩
      · rw [List.append_assoc, ← hdrop, List.cons_append, List.takeWhile_append_dropWhile]
      · rw [utf8Length_append]
        omega
    · cases h

end AccessRights.Markup

namespace AccessRights

open AccessRights.Markup AccessRights.Text

/-! ## Reports on attributes -/

/-- The byte order mark that a text starts with, if there is one. -/
def byteOrderMark (cs : List Char) : List Char :=
  if cs.head? = some '\uFEFF' then ['\uFEFF'] else []

/-- The mark and the rest make up the text. -/
theorem byteOrderMark_append_drop (cs : List Char) :
    byteOrderMark cs ++ dropByteOrderMark cs = cs := by
  unfold dropByteOrderMark
  split
  · next rest => rw [byteOrderMark, List.head?_cons, if_pos rfl, List.singleton_append]
  · next hnone =>
    have hhead : cs.head? ≠ some '\uFEFF' := by
      intro h
      obtain ⟨rest, rfl⟩ := List.head?_eq_some_iff.mp h
      exact hnone rest rfl
    rw [byteOrderMark, if_neg hhead, List.nil_append]

/-- What stands in front of markup has the mark of the whole text. -/
theorem byteOrderMark_append_markup (before more : List Char) :
    byteOrderMark (before ++ '<' :: more) = byteOrderMark before := by
  cases before with
  | nil => rfl
  | cons c before => rfl

/-- Markup is no mark, so that dropping one happens in front of it. -/
theorem dropByteOrderMark_append_markup (before more : List Char) :
    dropByteOrderMark (before ++ '<' :: more) = dropByteOrderMark before ++ '<' :: more := by
  have hboth : byteOrderMark before ++ dropByteOrderMark (before ++ '<' :: more) =
      byteOrderMark before ++ (dropByteOrderMark before ++ '<' :: more) := by
    rw [← List.append_assoc, byteOrderMark_append_drop, ← byteOrderMark_append_markup before more,
      byteOrderMark_append_drop]
  exact List.append_cancel_left hboth

/-- The bytes of the byte order mark that a text starts with, which are not counted. -/
def markLength (text : String) : Nat :=
  if text.toList.head? = some '\uFEFF' then 3 else 0

/-- The bytes of a text are those of the mark and those of the rest. -/
theorem utf8ByteSize_eq (text : String) :
    text.utf8ByteSize = utf8Length (dropByteOrderMark text.toList) + markLength text := by
  have hmark : utf8Length (byteOrderMark text.toList) = markLength text := by
    unfold byteOrderMark markLength
    split
    · rfl
    · rfl
  have hwhole := congrArg utf8Length (byteOrderMark_append_drop text.toList)
  rw [utf8Length_append, hmark, utf8Length_toList] at hwhole
  omega

section

variable {before tag after : String} {problem : AttributeProblem}

/-- A text is a document exactly if it is read as some tokens. -/
theorem Document.exists_read_iff {text : String} :
    (∃ document, Document.read text = .ok document) ↔
      ∃ ts, Reads (dropByteOrderMark text.toList) ts := by
  constructor
  · rintro ⟨document, h⟩
    obtain ⟨ts, hts, -⟩ := exists_tokens_of_read h
    exact ⟨ts, tokensFrom_eq_ok_iff.mp hts⟩
  · rintro ⟨ts, hreads⟩
    refine ⟨ofTokens ts, ?_⟩
    rw [read, tokens, tokensFrom_eq_ok_iff.mpr hreads]
    rfl

/-- A tag starts with a bracket, wherever it stands. -/
theorem Markup.IsMalformedTag.toList_append (h : IsMalformedTag tag problem)
    (before after : String) :
    ∃ more, (before ++ tag ++ after).toList = before.toList ++ '<' :: more := by
  obtain ⟨content, htag, -⟩ := h
  refine ⟨content ++ ['>'] ++ after.toList, ?_⟩
  rw [String.toList_append, String.toList_append, htag]
  simp

/-- The whole text has the mark of what stands in front of the tag. -/
theorem Markup.IsMalformedTag.markLength_eq (h : IsMalformedTag tag problem)
    (before after : String) :
    markLength (before ++ tag ++ after) = markLength before := by
  obtain ⟨more, hmore⟩ := h.toList_append before after
  unfold markLength
  rw [hmore]
  cases before.toList with
  | nil => rfl
  | cons c rest => rfl

/-- At the place of the tag there is a `<`, inside of the text. -/
theorem Markup.IsMalformedTag.byte_eq (h : IsMalformedTag tag problem) (before after : String) :
    (utf8Bytes (before ++ tag ++ after))[before.utf8ByteSize]? = some '<'.toUInt8 := by
  obtain ⟨more, hmore⟩ := h.toList_append "" after
  rw [String.append_assoc, getElem?_utf8Bytes_append, utf8Bytes_eq_flatMap]
  rw [String.empty_append] at hmore
  rw [hmore]
  rfl

/-- **A malformed tag behind a text that can be read** stops reading at its place. -/
theorem read_append_malformedTag (hbefore : ∃ document, Document.read before = .ok document)
    (htag : IsMalformedTag tag problem) (after : String) :
    Document.read (before ++ tag ++ after) =
      .error (.badAttribute (before.utf8ByteSize - markLength before) problem) := by
  obtain ⟨ts, hreads⟩ := Document.exists_read_iff.mp hbefore
  obtain ⟨content, hwritten, hcontent, hproblem⟩ := htag
  have hwhole : (before ++ tag ++ after).toList =
      before.toList ++ '<' :: (content ++ '>' :: after.toList) := by
    rw [String.toList_append, String.toList_append, hwritten]
    simp
  have htokens : tokens (before ++ tag ++ after) =
      .error (.badAttribute (before.utf8ByteSize - markLength before) problem) := by
    rw [tokens, hwhole, dropByteOrderMark_append_markup,
      hreads.tokensFrom_eq_badAttribute hcontent hproblem 0, utf8ByteSize_eq before, Nat.zero_add,
      Nat.add_sub_cancel]
  exact map_eq_error_iff.mpr htokens

/-- A malformed tag alone is stopped at its start. -/
theorem read_malformedTag (htag : IsMalformedTag tag problem) :
    Document.read tag = .error (.badAttribute 0 problem) := by
  have hempty : ∃ document, Document.read "" = .ok document :=
    Document.exists_read_iff.mpr ⟨[], .nil⟩
  have hread := read_append_malformedTag hempty htag ""
  rwa [String.empty_append, String.append_empty] at hread

end

/-- A text stops being readable at byte `place`, where a malformed tag starts.  It can be read
up to there, and the tag has the same problem when it stands alone. -/
structure BreaksAt (text : String) (place : Nat) (problem : AttributeProblem) : Prop where
  lt : place < text.utf8ByteSize
  byte_eq : (utf8Bytes text)[place]? = some '<'.toUInt8
  exists_tag : ∃ before tag after : String, text = before ++ tag ++ after ∧
    before.utf8ByteSize = place ∧ (∃ document, Document.read before = .ok document) ∧
    IsMalformedTag tag problem ∧ Document.read tag = .error (.badAttribute 0 problem)

/-- **A text that is stopped by an attribute breaks at the place that is reported**, a byte
order mark not counted. -/
theorem breaksAt_of_read {text : String} {position : Nat} {problem : AttributeProblem}
    (h : Document.read text = .error (.badAttribute position problem)) :
    BreaksAt text (position + markLength text) problem := by
  obtain ⟨inner, content, after, ts, hdrop, hreads, hcontent, hproblem, rfl⟩ :=
    exists_of_tokensFrom_eq_badAttribute (map_eq_error_iff.mp h)
  -- What stands in front of the tag includes the mark.
  have hwhole : text.toList =
      (byteOrderMark text.toList ++ inner) ++ '<' :: (content ++ '>' :: after) := by
    rw [List.append_assoc, ← hdrop, byteOrderMark_append_drop]
  generalize hfront : byteOrderMark text.toList ++ inner = front at hwhole
  have hinner : dropByteOrderMark front = inner := by
    rw [hwhole, dropByteOrderMark_append_markup] at hdrop
    exact List.append_cancel_right hdrop
  have htag : IsMalformedTag (String.ofList ('<' :: (content ++ ['>']))) problem :=
    ⟨content, String.toList_ofList, hcontent, hproblem⟩
  have htext : text = String.ofList front ++ String.ofList ('<' :: (content ++ ['>'])) ++
      String.ofList after := by
    rw [← String.toList_inj, hwhole]
    simp
  have hplace : (String.ofList front).utf8ByteSize = 0 + utf8Length inner + markLength text := by
    rw [utf8ByteSize_eq, String.toList_ofList, hinner, htext, htag.markLength_eq, Nat.zero_add]
  have hbyte := htag.byte_eq (String.ofList front) (String.ofList after)
  rw [← htext, hplace] at hbyte
  refine ⟨?_, hbyte, _, _, _, htext, hplace, ?_, htag, read_malformedTag htag⟩
  · rw [← length_utf8Bytes]
    exact (List.getElem?_eq_some_iff.mp hbyte).1
  · rw [Document.exists_read_iff, String.toList_ofList, hinner]
    exact ⟨ts, hreads⟩

/-- **Reports on attributes point at the first malformed tag.**  A text that is reported to have
one breaks there, and a text that can be read and is followed by one is reported to have it at
its own end. -/
theorem read_badAttribute :
    (∀ (text : String) (position : Nat) (problem : AttributeProblem),
      Document.read text = .error (.badAttribute position problem) →
        BreaksAt text (position + markLength text) problem) ∧
    ∀ (before tag after : String) (document : Document) (problem : AttributeProblem),
      Document.read before = .ok document → IsMalformedTag tag problem →
        Document.read (before ++ tag ++ after) =
          .error (.badAttribute (before.utf8ByteSize - markLength before) problem) := by
  constructor
  · intro text position problem h
    exact breaksAt_of_read h
  · intro before tag after document problem hbefore htag
    exact read_append_malformedTag ⟨document, hbefore⟩ htag after

/-- A text with a byte order mark, a character of two bytes, a tag with a `>` in quotes and a
comment. -/
def wellFront : String :=
  "\uFEFFé<a k='>'/><!-- < -->"

/-- An empty tag that gives one key twice. -/
def twiceKeyed : String :=
  "<b c='1' c=\">\"/>"

theorem read_badAttribute_twiceKeyed : ∃ document,
    Document.read wellFront = .ok document ∧
      IsMalformedTag twiceKeyed (.duplicate 8 2) ∧
      Document.read (wellFront ++ twiceKeyed ++ "<d e></x") =
        .error (.badAttribute 22 (.duplicate 8 2)) ∧
      BreaksAt (wellFront ++ twiceKeyed ++ "<d e></x") 25 (.duplicate 8 2) := by
  have hfront : Document.read wellFront = .ok ⟨.element "a" [("k", ">")] .nil .nil⟩ := by
    decide +kernel
  have htag : IsMalformedTag twiceKeyed (.duplicate 8 2) := by
    refine ⟨"b c='1' c=\">\"/".toList, by decide, ⟨?_, ?_⟩, by decide +kernel⟩
    · intro c hc
      cases (show some 'b' = some c from hc)
      decide
    · exact (keepsOpen_of_foldlM (by decide)).1 rfl
  obtain ⟨hbreaks, hstops⟩ := read_badAttribute
  have hread := hstops wellFront twiceKeyed "<d e></x" _ _ hfront htag
  exact ⟨_, hfront, htag, hread, hbreaks _ _ _ hread⟩

end AccessRights
