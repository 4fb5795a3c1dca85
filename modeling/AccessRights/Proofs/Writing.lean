import AccessRights.Proofs.JoinedRuns
import AccessRights.Proofs.Repair
import AccessRights.Proofs.WrittenTags

/-!
# Reading undoes writing

Content can be written as a text in many ways.  `Writes` has all of them: text escaped or as
character data, elements without content as one tag or two, comments and processing
instructions anywhere between, prefixes before names, white space in tags.
`read_of_writes` says that whichever is chosen, the text reads as the content again.

One thing does not come back, and it is not part of what a document shows: how its text is
cut into runs.  Pieces of escaped text side by side are read as one run, and a comment
between them makes two of it.  So contents are compared with their runs joined
(`Content.joined`), which leaves alone everything that can be asked of a node
(`Document.shown_joined`).  Text outside of every element is dropped.

## What carries the argument

The induction is on the way of writing, from its end.  What comes before a piece is escaped
text that is not complete, since the piece may add to it.  Therefore the statement is about
the piece with any escaped text in front (`Writes.exists_spells`).  Markup completes that
text to a run.

## The prefix `xmlns`

Tags may have any prefix, and attributes any but one.  Under `xmlns` an attribute is the
binding of a prefix, and reading drops it (`not_reads_back_of_namespacePrefix`).  So
`Writes` takes the prefixes of attributes as a parameter, and the law is for those that are
kept (`KeptPrefix`).
-/

namespace AccessRights

open AccessRights.Markup AccessRights.Text

/-! ## Ways of writing -/

/-- The element and its attributes have names that can be written, and told apart. -/
def Element.WellNamed (element : Element) : Prop :=
  PlainName element.name ∧ Markup.WellNamed element.attributes

/-- All elements of the content do, at any depth. -/
def Content.WellNamed (content : Content) : Prop :=
  ∀ element ∈ content.allElements, element.WellNamed

/-- The text is a way of writing the content, where attributes may have the prefixes that are
`allowed` and elements any prefix.  Comments and processing instructions may stand before,
between and after all that the content holds. -/
inductive Writes (allowed : String → Prop) : Content → List Char → Prop
  | nil : Writes allowed .nil []
  | comment {content : Content} {body cs : List Char} :
    ¬ ['-', '-'] <:+: body → Writes allowed content cs →
      Writes allowed content ('<' :: '!' :: '-' :: '-' :: (body ++ '-' :: '-' :: '>' :: cs))
  | instruction {content : Content} {target : String} {data cs : List Char} :
    PlainName target → ¬ ['?', '>'] <:+: data → Writes allowed content cs →
      Writes allowed content ('<' :: '?' :: (target.toList ++ ' ' :: (data ++ '?' :: '>' :: cs)))
  | escaped {rest : Content} {cs : List Char} (value : String) :
    Writes allowed rest cs → Writes allowed (.text value rest) (escape value.toList ++ cs)
  | characterData {rest : Content} {value : String} {cs : List Char} :
    ¬ [']', ']', '>'] <:+: value.toList → Writes allowed rest cs →
      Writes allowed (.text value rest)
        ("<![CDATA[".toList ++ (value.toList ++ ']' :: ']' :: '>' :: cs))
  | empty {pre : Option String} {name : String} {attributes : List (String × String)}
    {rest : Content} {tail cs : List Char} :
    Prefixed PlainName pre → WritesAttributes allowed attributes tail → Writes allowed rest cs →
      Writes allowed (.element name attributes .nil rest)
        ('<' :: (qualified pre name ++ (tail ++ '/' :: '>' :: cs)))
  | element {pre pre' : Option String} {name : String} {attributes : List (String × String)}
    {inner rest : Content} {tail inside blank cs : List Char} :
    Prefixed PlainName pre → WritesAttributes allowed attributes tail →
      Writes allowed inner inside → Prefixed PlainName pre' → Blank blank →
      Writes allowed rest cs →
      Writes allowed (.element name attributes inner rest)
        ('<' :: (qualified pre name ++ (tail ++ '>' :: (inside ++
          '<' :: '/' :: (qualified pre' name ++ (blank ++ '>' :: cs))))))

/-! ## From the text to the tokens -/

/-- A run in front is a token in front. -/
theorem Spells.behind {tokens : List Token} {content : Content} (h : Spells tokens content)
    (run : String) : Spells (runTokens run ++ tokens) (content.behind run) := by
  unfold runTokens Content.behind
  split
  · exact h
  · exact .text run h

theorem Content.joinFrom_behind (front run : String) (content : Content) :
    (content.behind run).joinFrom front = content.joinFrom (front ++ run) := by
  unfold behind
  split
  · next hrun => rw [hrun, String.append_empty]
  · rfl

/-- Markup completes the escaped text in front of it to a run. -/
theorem exists_spells_behind {tokens later : List Token} {content content' : Content}
    {after : List Char} (hafter : after.takeWhile (· != '<') = [])
    (hspells : Spells tokens content')
    (hreads : Reads after (tokens ++ later))
    (hjoin : ∀ front, content'.joinFrom front = content.joinFrom front) (run : String) :
    ∃ tokens' content'', Spells tokens' content'' ∧
      Reads (escape run.toList ++ after) (tokens' ++ later) ∧
      ∀ front, content''.joinFrom front = content.joinFrom (front ++ run) := by
  refine ⟨runTokens run ++ tokens, content'.behind run, hspells.behind run, ?_, fun front => ?_⟩
  · rw [List.append_assoc]
    exact hreads.escape_append run hafter
  · rw [Content.joinFrom_behind, hjoin]

namespace Writes

variable {allowed : String → Prop} {content : Content} {cs : List Char}

/-- **A piece of writing is read as balanced tokens that spell its content**, up to the cuts
between runs of text and with any escaped text in front. -/
theorem exists_spells (hallowed : ∀ p, allowed p → KeptPrefix p)
    (h : Writes allowed content cs) (hnames : content.WellNamed) (run : String)
    {after : List Char} {later : List Token} (hafter : after.takeWhile (· != '<') = [])
    (hlater : Reads after later) :
    ∃ tokens content', Spells tokens content' ∧
      Reads (escape run.toList ++ (cs ++ after)) (tokens ++ later) ∧
      ∀ front, content'.joinFrom front = content.joinFrom (front ++ run) := by
  induction h generalizing run after later with
  | nil => exact exists_spells_behind hafter .nil hlater (fun front => rfl) run
  | comment hbody _ ih =>
    obtain ⟨tokens, content', hspells, hreads, hjoin⟩ := ih hnames "" hafter hlater
    have hcomment := hreads.comment hbody
    simp only [List.cons_append, List.append_assoc]
    refine exists_spells_behind rfl hspells hcomment (fun front => ?_) run
    rw [hjoin, String.append_empty]
  | instruction htarget hdata _ ih =>
    obtain ⟨tokens, content', hspells, hreads, hjoin⟩ := ih hnames "" hafter hlater
    have hinstruction := hreads.instruction htarget hdata
    simp only [List.cons_append, List.append_assoc]
    refine exists_spells_behind rfl hspells hinstruction (fun front => ?_) run
    rw [hjoin, String.append_empty]
  | escaped value _ ih =>
    -- The text in front is not complete before this piece.
    obtain ⟨tokens, content', hspells, hreads, hjoin⟩ := ih hnames (run ++ value) hafter hlater
    rw [String.toList_append, escape_append, List.append_assoc] at hreads
    refine ⟨tokens, content', hspells, by rw [List.append_assoc]; exact hreads, fun front => ?_⟩
    rw [hjoin, Content.joinFrom, String.append_assoc]
  | @characterData rest value cs hvalue _ ih =>
    obtain ⟨tokens, content', hspells, hreads, hjoin⟩ := ih hnames "" hafter hlater
    have hsection := hreads.characterData hvalue
    rw [String.ofList_toList] at hsection
    have hspells' : Spells (.text value :: tokens) (.text value content') := .text value hspells
    simp only [List.cons_append, List.append_assoc]
    refine exists_spells_behind rfl hspells' hsection (fun front => ?_) run
    rw [Content.joinFrom, Content.joinFrom, hjoin, String.append_empty]
  | @empty pre name attributes rest tail cs hpre htail _ ih =>
    obtain ⟨⟨hname, hattributes⟩, hrest⟩ := List.forall_mem_cons.mp hnames
    obtain ⟨tokens, content', hspells, hreads, hjoin⟩ := ih hrest "" hafter hlater
    have htag := hreads.emptyTag hallowed hpre hname hattributes htail
    have hspells' : Spells (.empty name attributes :: tokens)
        (.element name attributes .nil content') :=
      .empty name attributes hspells
    simp only [List.cons_append, List.append_assoc]
    refine exists_spells_behind rfl hspells' htag (fun front => ?_) run
    rw [Content.joinFrom, hjoin, String.append_empty]
    rfl
  | @element pre pre' name attributes inner rest tail inside blank cs hpre htail _ hpre' hblank _
      ihinner ihrest =>
    obtain ⟨⟨hname, hattributes⟩, hbelow⟩ := List.forall_mem_cons.mp hnames
    obtain ⟨hinner, hrest⟩ := List.forall_mem_append.mp hbelow
    obtain ⟨tokens, content', hspells, hreads, hjoin⟩ := ihrest hrest "" hafter hlater
    have hclosing := hreads.closingTag hpre' hname hblank
    obtain ⟨inTokens, inContent, hinSpells, hinReads, hinJoin⟩ := ihinner hinner "" rfl hclosing
    have hopening := hinReads.openingTag hallowed hpre hname hattributes htail
    have hspells' : Spells (.start name attributes :: (inTokens ++ .stop name :: tokens))
        (.element name attributes inContent content') :=
      .element name attributes hinSpells hspells
    simp only [List.cons_append, List.append_assoc]
    refine exists_spells_behind rfl hspells' ?_ (fun front => ?_) run
    · simpa using hopening
    · rw [Content.joinFrom, hinJoin, hjoin, String.append_empty]
      rfl

end Writes

/-! ## Reading -/

/-- At the start of a text a character that starts no markup is dropped with the run that it
is part of, and so makes no difference. -/
theorem Markup.Reads.exists_tail {c : Char} {cs : List Char} {tokens : List Token} (hc : c ≠ '<')
    (h : Reads (c :: cs) tokens) :
    ∃ tokens', Reads cs tokens' ∧ Content.ofTokens tokens' = Content.ofTokens tokens := by
  cases h with
  | markup => exact absurd rfl hc
  | @run c rest later _ hrest =>
    cases cs with
    | nil => exact ⟨later, hrest, rfl⟩
    | cons d ds =>
      by_cases hd : d = '<'
      · subst hd
        exact ⟨later, hrest, rfl⟩
      · rw [List.dropWhile_cons, if_pos (bne_iff_ne.mpr hd)] at hrest
        exact ⟨_, .run hd hrest, rfl⟩

/-- A byte order mark makes no difference. -/
theorem Document.read_of_reads {text : String} {tokens : List Token}
    (h : Reads text.toList tokens) : Document.read text = .ok (.ofTokens tokens) := by
  have hread : ∃ tokens', Reads (dropByteOrderMark text.toList) tokens' ∧
      Content.ofTokens tokens' = Content.ofTokens tokens := by
    unfold dropByteOrderMark
    split
    · next rest htext =>
      rw [htext] at h
      exact h.exists_tail (by decide)
    · exact ⟨tokens, h, rfl⟩
  obtain ⟨tokens', hreads, hsame⟩ := hread
  rw [Document.read, Markup.tokens, tokensFrom_eq_ok_iff.mpr hreads]
  exact congrArg (fun content => Except.ok (Document.mk content)) hsame

/-- The text reads as the content, its outer text apart: with its runs of text joined the
content is the same, and so the document shows the same. -/
def ReadsBack (text : String) (content : Content) : Prop :=
  ∃ document, Document.read text = .ok document ∧
    document.content.joined = content.withoutOuterText.joined ∧
    document.shown = (⟨content.withoutOuterText⟩ : Document).shown

/-- **Reading undoes writing**, however the content is written, where no attribute has the
prefix `xmlns`. -/
theorem read_of_writes {content : Content} {text : String} (hnames : content.WellNamed)
    (hwrites : Writes KeptPrefix content text.toList) :
    ReadsBack text content := by
  obtain ⟨tokens, content', hspells, hreads, hjoin⟩ :=
    hwrites.exists_spells (fun p hp => hp) hnames "" rfl .nil
  have htext : Reads text.toList tokens := by simpa using hreads
  have hsame : (Document.ofTokens tokens).content.joined = content.withoutOuterText.joined := by
    have hall : content'.joined = content.joined := hjoin ""
    calc (Document.ofTokens tokens).content.joined
        = content'.withoutOuterText.joined := congrArg Content.joined hspells.ofTokens_eq
      _ = content'.joined.withoutOuterText := (content'.withoutOuterText_joinFrom "").symm
      _ = content.joined.withoutOuterText := congrArg Content.withoutOuterText hall
      _ = content.withoutOuterText.joined := content.withoutOuterText_joinFrom ""
  refine ⟨.ofTokens tokens, Document.read_of_reads htext, hsame, ?_⟩
  calc (Document.ofTokens tokens).shown
      = (⟨(Document.ofTokens tokens).content.joined⟩ : Document).shown :=
        (Document.shown_joined _).symm
    _ = (⟨content.withoutOuterText⟩ : Document).shown := by
        rw [hsame, Document.shown_joined]

theorem blank_space : Blank [' '] := by
  intro c hc
  rw [List.mem_singleton.mp hc]
  rfl

/-- An element with two attributes, two pieces of text and an element without content. -/
def note : Content :=
  .element "a" [("k", "1 & \"2\""), ("m", "é")]
    (.text "t>" (.text "<b>&" (.element "b" [] .nil .nil))) .nil

/-- One way of writing it, with prefixes, a comment, an instruction and character data. -/
def noteText : String :=
  "<x:a k=\"1 &amp; &quot;2&quot;\" y:m = \"é\"><!--c-->t&gt;<![CDATA[<b>&]]><b /><?p d?></z:a >"

theorem wellNamed_note : note.WellNamed := by
  have hname : ∀ name, name = "a" ∨ name = "b" ∨ name = "k" ∨ name = "m" →
      PlainName name ∧ name ≠ "xmlns" := by
    rintro name (rfl | rfl | rfl | rfl) <;>
      exact ⟨.of_isNameChar (by decide) (by decide), by decide⟩
  intro element helement
  rcases List.mem_pair.mp helement with rfl | rfl
  · refine ⟨(hname "a" (by simp)).1, ?_, by decide⟩
    intro pair hpair
    rcases List.mem_pair.mp hpair with rfl | rfl
    · exact hname "k" (by simp)
    · exact hname "m" (by simp)
  · exact ⟨(hname "b" (by simp)).1, nofun, List.nodup_nil⟩

theorem writes_note : Writes KeptPrefix note noteText.toList := by
  have hplain : ∀ name, name = "x" ∨ name = "y" ∨ name = "z" ∨ name = "p" → KeptPrefix name := by
    rintro name (rfl | rfl | rfl | rfl) <;>
      exact ⟨.of_isNameChar (by decide) (by decide), by decide⟩
  have hattributes : WritesAttributes KeptPrefix [("k", "1 & \"2\""), ("m", "é")]
      ([' '] ++ (qualified none "k" ++ assigned [] [] "1 & \"2\""
        ([' '] ++ (qualified (some "y") "m" ++ assigned [' '] [' '] "é" [])))) := by
    refine .cons (by decide) blank_space (.none _) .nil .nil ?_
    refine .cons (by decide) blank_space ?_ blank_space blank_space (.nil .nil)
    rintro name ⟨⟩
    exact hplain "y" (by simp)
  have hempty : Writes KeptPrefix (.element "b" [] .nil .nil) _ :=
    @Writes.empty _ none _ _ _ [' '] _ (.none _) (.nil blank_space)
      (@Writes.instruction _ _ "p" ['d'] _ (hplain "p" (by simp)).1 (by decide) .nil)
  have hinner : Writes KeptPrefix (.text "t>" (.text "<b>&" (.element "b" [] .nil .nil))) _ :=
    @Writes.comment _ _ ['c'] _ (by decide)
      (.escaped "t>" (@Writes.characterData _ _ "<b>&" _ (by decide) hempty))
  have hnote : Writes KeptPrefix note _ :=
    @Writes.element _ (some "x") (some "z") "a" _ _ .nil _ _ [' '] []
      (by rintro name ⟨⟩; exact (hplain "x" (by simp)).1) hattributes hinner
      (by rintro name ⟨⟩; exact (hplain "z" (by simp)).1) blank_space .nil
  refine Eq.subst (motive := Writes KeptPrefix note) ?_ hnote
  decide +kernel

/-- Read and joined, the text is the content again. -/
theorem read_of_writes_note : note.WellNamed ∧
    Writes KeptPrefix note noteText.toList ∧ ReadsBack noteText note :=
  ⟨wellNamed_note, writes_note, read_of_writes wellNamed_note writes_note⟩

/-- The restriction on prefixes is needed: `xmlns:b="c"` binds a prefix, and the attribute `b`
that it could stand for does not come back. -/
theorem not_reads_back_of_namespacePrefix :
    ¬ ∀ (content : Content) (text : String), content.WellNamed →
      Writes PlainName content text.toList → ReadsBack text content := by
  intro hall
  have hplain : ∀ name, name = "a" ∨ name = "b" ∨ name = "xmlns" → PlainName name := by
    rintro name (rfl | rfl | rfl) <;> exact .of_isNameChar (by decide) (by decide)
  have hnames : (Content.element "a" [("b", "c")] .nil .nil).WellNamed := by
    intro element helement
    cases List.mem_singleton.mp helement
    exact ⟨hplain "a" (by simp), by simpa using hplain "b" (by simp), by simp⟩
  have hattribute : WritesAttributes PlainName [("b", "c")]
      ([' '] ++ (qualified (some "xmlns") "b" ++ assigned [] [] "c" [])) := by
    refine .cons (by decide) blank_space ?_ (by simp [Blank]) (by simp [Blank])
      (.nil (by simp [Blank]))
    rintro name ⟨⟩
    exact hplain "xmlns" (by simp)
  have hwrites : Writes PlainName (.element "a" [("b", "c")] .nil .nil)
      "<a xmlns:b=\"c\"/>".toList :=
    @Writes.empty _ none "a" _ _ _ _ (by simp [Prefixed]) hattribute .nil
  have hread : Document.read "<a xmlns:b=\"c\"/>" = .ok ⟨.element "a" [] .nil .nil⟩ := by
    decide +kernel
  obtain ⟨document, hdocument, hjoined, -⟩ := hall _ _ hnames hwrites
  rw [hread] at hdocument
  cases hdocument
  exact absurd hjoined (by decide)

end AccessRights
