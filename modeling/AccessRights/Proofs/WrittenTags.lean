import AccessRights.Proofs.WrittenMarkup

/-!
# Tags in writing

A tag may be written with a prefix before its name and before the names of its attributes,
and with white space where it is allowed.  `WritesAttributes` says how attributes are
written; start tags, empty tags and end tags follow from it (`Reads.openingTag`,
`Reads.emptyTag`, `Reads.closingTag`).

Attributes are taken apart one by one, each from what its predecessors left
(`WritesAttributes.exists_readAttributes`).  A key is refused if it was there before.  No
two local names are the same, and so no two keys are.

The prefix `xmlns` makes an attribute the binding of a prefix, which is no attribute of the
element.  With any other prefix an attribute is kept (`bindsNamespace_qualified`).
-/

namespace AccessRights.Markup

open AccessRights.Text

/-! ## Names behind a prefix -/

/-- A name in writing, behind a prefix or alone. -/
def qualified : Option String → String → List Char
  | none, name => name.toList
  | some pre, name => pre.toList ++ ':' :: name.toList

/-- There may be a prefix, and if there is one, it is among those allowed. -/
def Prefixed (allowed : String → Prop) (pre : Option String) : Prop :=
  ∀ name ∈ pre, allowed name

theorem Prefixed.none (allowed : String → Prop) : Prefixed allowed .none :=
  nofun

/-- A prefix under which an attribute stays one: `xmlns` makes it the binding of a prefix. -/
def KeptPrefix (pre : String) : Prop :=
  PlainName pre ∧ pre ≠ "xmlns"

section Qualified

variable {pre : Option String} {name : String}

theorem plain_or_colon_of_mem_qualified (hpre : Prefixed PlainName pre) (hname : PlainName name) :
    ∀ c ∈ qualified pre name, isPlainChar c = true ∨ c = ':' := by
  intro c hc
  cases pre with
  | none => exact .inl (hname.2 c hc)
  | some front =>
    rcases List.mem_append.mp hc with hc | hc
    · exact .inl ((hpre front rfl).2 c hc)
    · rcases List.mem_cons.mp hc with rfl | hc
      · exact .inr rfl
      · exact .inl (hname.2 c hc)

theorem qualified_ne_nil (pre : Option String) (hname : PlainName name) :
    qualified pre name ≠ [] := by
  cases pre with
  | none => exact hname.1
  | some front => exact List.append_ne_nil_of_right_ne_nil _ (List.cons_ne_nil _ _)

theorem not_space_of_mem_qualified (hpre : Prefixed PlainName pre) (hname : PlainName name) :
    ∀ c ∈ qualified pre name, isMarkupSpace c = false := by
  intro c hc
  rcases plain_or_colon_of_mem_qualified hpre hname c hc with hplain | rfl
  · exact isMarkupSpace_of_isPlainChar hplain
  · rfl

theorem isKeyChar_of_mem_qualified (hpre : Prefixed PlainName pre) (hname : PlainName name) :
    ∀ c ∈ qualified pre name, isKeyChar c = true := by
  intro c hc
  have hequals : c ≠ '=' := by
    rcases plain_or_colon_of_mem_qualified hpre hname c hc with hplain | rfl
    · exact ne_of_isPlainChar hplain (by decide)
    · decide
  rw [isKeyChar, not_space_of_mem_qualified hpre hname c hc, bne_iff_ne.mpr hequals]
  rfl

/-- **The prefix is dropped.** -/
theorem localName_qualified (hpre : Prefixed PlainName pre) (hname : PlainName name) :
    localName (qualified pre name) = name.toList := by
  cases pre with
  | none => exact hname.localName_eq
  | some front =>
    have hfront : ∀ c ∈ front.toList, (c != ':') = true := fun c hc =>
      bne_iff_ne.mpr (ne_of_isPlainChar ((hpre front rfl).2 c hc) (by decide))
    rw [localName, qualified, List.dropWhile_append_of_pos hfront]
    rfl

/-- A name in front of anything starts a tag. -/
theorem kind_qualified (hpre : Prefixed PlainName pre) (hname : PlainName name)
    (more : List Char) : Kind.of? (qualified pre name ++ more) = some .startTag := by
  cases pre with
  | none => exact hname.kind_startTag more
  | some front =>
    rw [qualified, List.append_assoc]
    exact (hpre front rfl).kind_startTag _

theorem prefix_eq_of_qualified_eq {front name : String} {more : List Char}
    (hfront : PlainName front) (hname : PlainName name)
    (h : qualified pre name = front.toList ++ ':' :: more) (hpre : Prefixed PlainName pre) :
    pre = some front := by
  have hbefore : ∀ {word : String}, PlainName word → ∀ rest : List Char,
      (word.toList ++ ':' :: rest).takeWhile (· != ':') = word.toList := by
    intro word hword rest
    rw [List.takeWhile_append_of_pos fun c hc =>
      bne_iff_ne.mpr (ne_of_isPlainChar (hword.2 c hc) (by decide))]
    exact List.append_nil _
  cases pre with
  | none =>
    have hcolon : ':' ∈ name.toList := by
      rw [show name.toList = _ from h]
      exact List.mem_append_right _ List.mem_cons_self
    exact absurd rfl (ne_of_isPlainChar (hname.2 ':' hcolon) (by decide))
  | some other =>
    have hsame : other.toList = front.toList := by
      rw [← hbefore (hpre other rfl) name.toList, ← hbefore hfront more]
      exact congrArg _ h
    rw [String.toList_inj.mp hsame]

/-- **Only the prefix `xmlns` makes an attribute the binding of a prefix**, where its name is
another one. -/
theorem bindsNamespace_qualified (hpre : Prefixed PlainName pre) (hxmlns : pre ≠ some "xmlns")
    (hname : PlainName name) (hother : name ≠ "xmlns") :
    bindsNamespace (qualified pre name) = false := by
  have hplain : PlainName "xmlns" := .of_isNameChar (by decide) (by decide)
  rw [bindsNamespace, Bool.or_eq_false_iff]
  constructor
  · rw [beq_eq_false_iff_ne]
    intro hsame
    refine hother (String.toList_inj.mp ?_)
    rw [← localName_qualified hpre hname, hsame]
    exact hplain.localName_eq
  · rw [Bool.eq_false_iff]
    intro hbinds
    obtain ⟨more, hmore⟩ := List.isPrefixOf_iff_prefix.mp hbinds
    exact hxmlns (prefix_eq_of_qualified_eq hplain hname hmore.symm hpre)

end Qualified

/-! ## Attributes -/

/-- White space and nothing else. -/
def Blank (cs : List Char) : Prop :=
  ∀ c ∈ cs, isMarkupSpace c = true

theorem Blank.nil : Blank [] :=
  nofun

theorem Blank.dropWhile_append {blank : List Char} (h : Blank blank) {c : Char}
    (hc : isMarkupSpace c = false) (rest : List Char) :
    (blank ++ c :: rest).dropWhile isMarkupSpace = c :: rest := by
  rw [List.dropWhile_append_of_pos h, List.dropWhile_cons_of_neg (by simp [hc])]

/-- A value in writing, in double quotes and with white space around the equals sign, in front
of the rest of the tag. -/
def assigned (before after : List Char) (value : String) (rest : List Char) : List Char :=
  before ++ '=' :: (after ++ '"' :: (escape value.toList ++ '"' :: rest))

/-- The attributes in writing, with what else stands behind the name in a tag: each has white
space in front, and its key may have one of the prefixes that are allowed. -/
inductive WritesAttributes (allowed : String → Prop) : List (String × String) → List Char → Prop
  | nil {blank : List Char} : Blank blank → WritesAttributes allowed [] blank
  | cons {pre : Option String} {name value : String} {attributes : List (String × String)}
    {space before after rest : List Char} :
    space ≠ [] → Blank space → Prefixed allowed pre → Blank before → Blank after →
      WritesAttributes allowed attributes rest →
      WritesAttributes allowed ((name, value) :: attributes)
        (space ++ (qualified pre name ++ assigned before after value rest))

/-- The names of attributes that can be told apart: none of them twice, and none of them
`xmlns`, which is not the name of an attribute. -/
def WellNamed (attributes : List (String × String)) : Prop :=
  (∀ pair ∈ attributes, PlainName pair.1 ∧ pair.1 ≠ "xmlns") ∧
    (attributes.map Prod.fst).Nodup

/-- The value is what stands between the quotes. -/
theorem readValue_eq {after : List Char} (hafter : Blank after) (size : Nat)
    (value rest : List Char) :
    readValue size (after ++ '"' :: (escape value ++ '"' :: rest)) =
      .ok (escape value, rest) := by
  have hinside : ∀ c ∈ escape value, (c != '"') = true := fun c hc =>
    bne_iff_ne.mpr (ne_of_isInert (isInert_escape value c hc) (by decide))
  have hdrop : (escape value ++ '"' :: rest).dropWhile (· != '"') = '"' :: rest := by
    rw [List.dropWhile_append_of_pos hinside]
    rfl
  have htake : (escape value ++ '"' :: rest).takeWhile (· != '"') = escape value := by
    rw [List.takeWhile_append_of_pos hinside]
    exact List.append_nil _
  rw [readValue, hafter.dropWhile_append (by decide)]
  show (if _ then _ else _) = _
  rw [if_pos (.inl rfl), hdrop, htake]


section ReadingAttributes

variable {pre : Option String} {name value : String} {before after rest : List Char}

/-- A key ends at white space or at the equals sign. -/
theorem takeWhile_isKeyChar_assigned (hbefore : Blank before) :
    (assigned before after value rest).takeWhile isKeyChar = [] := by
  cases before with
  | nil => rfl
  | cons b before =>
    have hb : isKeyChar b = false := by
      rw [isKeyChar, hbefore b List.mem_cons_self]
      rfl
    exact List.takeWhile_cons_of_neg (by rw [hb]; exact Bool.false_ne_true)

/-- **One attribute** is read with its key as it is written. -/
theorem exists_readAttribute (hpre : Prefixed PlainName pre) (hname : PlainName name)
    (hbefore : Blank before) (hafter : Blank after) (size : Nat) {earlier : List RawAttribute}
    (hearlier : ∀ raw ∈ earlier, raw.key ≠ qualified pre name) {c : Char} {cs : List Char}
    (hkey : qualified pre name = c :: cs) :
    ∃ offset, readAttribute size earlier c (cs ++ assigned before after value rest) =
      .ok (⟨offset, qualified pre name, escape value.toList⟩, rest) := by
  have hkeychars : ∀ d ∈ cs, isKeyChar d = true := fun d hd =>
    isKeyChar_of_mem_qualified hpre hname d (hkey ▸ List.mem_cons_of_mem c hd)
  have hstop : (assigned before after value rest).takeWhile isKeyChar = [] :=
    takeWhile_isKeyChar_assigned hbefore
  have htake : (cs ++ assigned before after value rest).takeWhile isKeyChar = cs := by
    rw [List.takeWhile_append_of_pos hkeychars, hstop, List.append_nil]
  have hdrop : ((cs ++ assigned before after value rest).dropWhile isKeyChar).dropWhile
      isMarkupSpace = '=' :: (after ++ '"' :: (escape value.toList ++ '"' :: rest)) := by
    have hsame := (assigned before after value rest).takeWhile_append_dropWhile (p := isKeyChar)
    rw [hstop, List.nil_append] at hsame
    rw [List.dropWhile_append_of_pos hkeychars, hsame, assigned]
    exact hbefore.dropWhile_append (by decide) _
  have hnew : earlier.find? (fun raw => raw.key == c :: cs) = none := by
    refine List.find?_eq_none.mpr fun raw hraw => ?_
    rw [beq_iff_eq, ← hkey]
    exact hearlier raw hraw
  refine ⟨size - utf8Length (c :: (cs ++ assigned before after value rest)), ?_⟩
  rw [readAttribute, htake, hdrop]
  simp only [hnew, readValue_eq hafter]
  rw [hkey]
  rfl

theorem readAttributes_of_blank {cs : List Char} (h : Blank cs) (size : Nat)
    (earlier : List RawAttribute) : readAttributes size earlier cs = .ok [] := by
  have hdrop : cs.dropWhile isMarkupSpace = [] := List.dropWhile_eq_nil_iff.mpr h
  rw [readAttributes]
  split
  · rfl
  · next hsome => cases hdrop.symm.trans hsome

theorem readAttributes_of_readAttribute {size : Nat} {earlier : List RawAttribute} {c : Char}
    {cs after rest : List Char} {found : RawAttribute}
    (hdrop : cs.dropWhile isMarkupSpace = c :: after)
    (hfound : readAttribute size earlier c after = .ok (found, rest)) :
    readAttributes size earlier cs =
      (readAttributes size (found :: earlier) rest).map (found :: ·) := by
  rw [readAttributes]
  split
  · next hnone => cases hdrop.symm.trans hnone
  · next hsome =>
    cases hdrop.symm.trans hsome
    split
    · next herror => cases hfound.symm.trans herror
    · next hok =>
      cases hfound.symm.trans hok
      rfl

/-- **All attributes** are read, in their order. -/
theorem WritesAttributes.exists_readAttributes {allowed : String → Prop}
    (hallowed : ∀ p, allowed p → KeptPrefix p)
    {attributes : List (String × String)} {cs : List Char}
    (h : WritesAttributes allowed attributes cs) (hnames : WellNamed attributes) (size : Nat)
    {earlier : List RawAttribute}
    (hearlier : ∀ raw ∈ earlier, String.ofList (localName raw.key) ∉ attributes.map Prod.fst) :
    ∃ raw, readAttributes size earlier cs = .ok raw ∧ attributesOf raw = attributes := by
  induction h generalizing earlier with
  | nil hblank => exact ⟨[], readAttributes_of_blank hblank size earlier, rfl⟩
  | @cons pre name value attributes space before after rest hspace hblank hpre hbefore hafter _
      ih =>
    obtain ⟨hall, hnodup⟩ := hnames
    obtain ⟨⟨hname, hxmlns⟩, hall⟩ := List.forall_mem_cons.mp hall
    obtain ⟨hfresh, hnodup⟩ := List.nodup_cons.mp hnodup
    have hplain : Prefixed PlainName pre := fun p hp => (hallowed p (hpre p hp)).1
    have hlocal : String.ofList (localName (qualified pre name)) = name := by
      rw [localName_qualified hplain hname, String.ofList_toList]
    have hkeys : ∀ raw ∈ earlier, raw.key ≠ qualified pre name := by
      intro raw hraw hkey
      refine hearlier raw hraw ?_
      rw [hkey, hlocal]
      exact List.mem_cons_self
    obtain ⟨c, cs, hkey⟩ := List.exists_cons_of_ne_nil (qualified_ne_nil pre hname)
    have hc : isMarkupSpace c = false :=
      not_space_of_mem_qualified hplain hname c (hkey ▸ List.mem_cons_self)
    obtain ⟨offset, hfound⟩ : ∃ offset,
        readAttribute size earlier c (cs ++ assigned before after value rest) =
          .ok (⟨offset, qualified pre name, escape value.toList⟩, rest) :=
      exists_readAttribute hplain hname hbefore hafter size hkeys hkey
    have hnext : ∀ raw ∈
        (⟨offset, qualified pre name, escape value.toList⟩ : RawAttribute) :: earlier,
        String.ofList (localName raw.key) ∉ attributes.map Prod.fst := by
      intro raw hraw
      rcases List.mem_cons.mp hraw with rfl | hraw
      · rw [hlocal]
        exact hfresh
      · exact fun hmem => hearlier raw hraw (List.mem_cons_of_mem name hmem)
    obtain ⟨raw, hraw, hattributes⟩ := ih ⟨hall, hnodup⟩ hnext
    have hdrop : (space ++ (qualified pre name ++ assigned before after value rest)).dropWhile
        isMarkupSpace = c :: (cs ++ assigned before after value rest) := by
      rw [hkey]
      exact hblank.dropWhile_append hc _
    refine ⟨⟨offset, qualified pre name, escape value.toList⟩ :: raw, ?_, ?_⟩
    · rw [readAttributes_of_readAttribute hdrop hfound, hraw]
      rfl
    · have hbinds : bindsNamespace (qualified pre name) = false := by
        refine bindsNamespace_qualified hplain ?_ hname hxmlns
        rintro rfl
        exact (hallowed "xmlns" (hpre "xmlns" rfl)).2 rfl
      rw [attributesOf, List.filter_cons_of_pos (by simp [hbinds]), List.map_cons, hlocal,
        resolved_escape, String.ofList_toList, ← attributesOf, hattributes]

end ReadingAttributes

/-! ## Where a written tag ends -/

theorem foldlM_tagStep_of_forall {cs : List Char} {quote : Option Char}
    (h : ∀ c ∈ cs, tagStep quote c = some quote) : cs.foldlM tagStep quote = some quote := by
  induction cs with
  | nil => rfl
  | cons c cs ih =>
    rw [List.foldlM_cons, h c List.mem_cons_self]
    exact ih fun d hd => h d (List.mem_cons_of_mem c hd)

/-- A name leaves a tag open. -/
theorem foldlM_tagStep_qualified {pre : Option String} {name : String}
    (hpre : Prefixed PlainName pre) (hname : PlainName name) :
    (qualified pre name).foldlM tagStep none = some none := by
  refine foldlM_tagStep_of_forall fun c hc => ?_
  rcases plain_or_colon_of_mem_qualified hpre hname c hc with hplain | rfl
  · exact tagStep_of_isPlainChar hplain
  · rfl

/-- So does white space. -/
theorem Blank.foldlM_tagStep {blank : List Char} (h : Blank blank) :
    blank.foldlM tagStep none = some none := by
  refine foldlM_tagStep_of_forall fun c hc => ?_
  have hspace := h c hc
  simp only [isMarkupSpace, Bool.or_eq_true, beq_iff_eq] at hspace
  rcases hspace with ((rfl | rfl) | rfl) | rfl <;> rfl

/-- A value leaves a tag open: the quote that ends it is the next one. -/
theorem foldlM_tagStep_assigned {before after : List Char} (hbefore : Blank before)
    (hafter : Blank after) (value : String) (rest : List Char) :
    (assigned before after value rest).foldlM tagStep none = rest.foldlM tagStep none := by
  have hvalue : (escape value.toList).foldlM tagStep (some '"') = some (some '"') := by
    refine foldlM_tagStep_of_forall fun c hc => ?_
    exact if_neg (ne_of_isInert (isInert_escape value.toList c hc) (by decide))
  rw [assigned, List.foldlM_append, hbefore.foldlM_tagStep]
  show (after ++ '"' :: (escape value.toList ++ '"' :: rest)).foldlM tagStep none = _
  rw [List.foldlM_append, hafter.foldlM_tagStep]
  show (escape value.toList ++ '"' :: rest).foldlM tagStep (some '"') = _
  rw [List.foldlM_append, hvalue]
  rfl

namespace WritesAttributes

variable {allowed : String → Prop} {attributes : List (String × String)} {cs : List Char}

/-- Attributes leave a tag open. -/
theorem foldlM_tagStep (h : WritesAttributes allowed attributes cs)
    (hallowed : ∀ p, allowed p → PlainName p) (hnames : ∀ pair ∈ attributes, PlainName pair.1) :
    cs.foldlM tagStep none = some none := by
  induction h with
  | nil hblank => exact hblank.foldlM_tagStep
  | @cons pre name value attributes space before after rest _ hblank hpre hbefore hafter _ ih =>
    obtain ⟨hname, hnames⟩ := List.forall_mem_cons.mp hnames
    have hplain : Prefixed PlainName pre := fun p hp => hallowed p (hpre p hp)
    rw [List.foldlM_append, hblank.foldlM_tagStep]
    show (qualified pre name ++ assigned before after value rest).foldlM tagStep none = _
    rw [List.foldlM_append, foldlM_tagStep_qualified hplain hname]
    show (assigned before after value rest).foldlM tagStep none = _
    rw [foldlM_tagStep_assigned hbefore hafter]
    exact ih hnames

/-- The name in a tag ends where its attributes start. -/
theorem takeWhile_eq_nil (h : WritesAttributes allowed attributes cs) :
    cs.takeWhile (fun c => !isMarkupSpace c) = [] := by
  have hstart : ∀ (blank rest : List Char), blank ≠ [] → Blank blank →
      (blank ++ rest).takeWhile (fun c => !isMarkupSpace c) = [] := by
    intro blank rest hne hblank
    obtain ⟨c, more, rfl⟩ := List.exists_cons_of_ne_nil hne
    exact List.takeWhile_cons_of_neg (by simp [hblank c List.mem_cons_self])
  cases h with
  | nil hblank =>
    cases cs with
    | nil => rfl
    | cons c cs =>
      have hwhole := hstart (c :: cs) [] (List.cons_ne_nil _ _) hblank
      rw [List.append_nil] at hwhole
      exact hwhole
  | cons hne hblank _ _ _ _ => exact hstart _ _ hne hblank

/-- A tag does not end in a slash by its attributes. -/
theorem getLast?_ne (h : WritesAttributes allowed attributes cs) {front : List Char}
    (hfront : front.getLast? ≠ some '/') : (front ++ cs).getLast? ≠ some '/' := by
  induction h generalizing front with
  | @nil blank hblank =>
    intro hlast
    rcases List.eq_nil_or_concat blank with rfl | ⟨blank, c, rfl⟩
    · rw [List.append_nil] at hlast
      exact hfront hlast
    · rw [List.concat_eq_append, ← List.append_assoc, List.getLast?_concat] at hlast
      cases hlast
      exact Bool.false_ne_true (hblank '/' (by simp))
  | @cons pre name value attributes space before after rest _ _ _ _ _ _ ih =>
    -- Whatever follows, the quote that ends the value stands before it.
    have hquote : ((front ++ (space ++ (qualified pre name ++
        (before ++ '=' :: (after ++ '"' :: escape value.toList))))) ++ ['"']).getLast? ≠
          some '/' := by
      rw [List.getLast?_concat]
      decide
    have hrest := ih hquote
    simpa only [assigned, List.append_assoc, List.cons_append, List.nil_append] using hrest

end WritesAttributes

/-! ## Tags -/

/-- White space after the name in an end tag does not count. -/
theorem endTagName_append_blank {cs blank : List Char} (hne : cs ≠ [])
    (hcs : ∀ c ∈ cs, isMarkupSpace c = false) (hblank : Blank blank) :
    endTagName (cs ++ blank) = cs := by
  have hnotall : ¬ (cs ++ blank).all isMarkupSpace = true := by
    obtain ⟨c, hc⟩ := List.exists_mem_of_ne_nil _ hne
    intro hall
    have hspace := List.all_eq_true.mp hall c (List.mem_append_left _ hc)
    exact Bool.false_ne_true ((hcs c hc).symm.trans hspace)
  have hdrop : (blank.reverse ++ cs.reverse).dropWhile isMarkupSpace = cs.reverse := by
    rw [List.dropWhile_append_of_pos fun c hc => hblank c (List.mem_reverse.mp hc)]
    refine List.dropWhile_eq_self_iff.mpr fun hlt hfirst => ?_
    exact Bool.false_ne_true
      ((hcs _ (List.mem_reverse.mp (List.getElem_mem hlt))).symm.trans hfirst)
  rw [endTagName, if_neg hnotall, List.reverse_append, hdrop, List.reverse_reverse]

section Tags

variable {allowed : String → Prop} {pre : Option String} {name : String}
  {attributes : List (String × String)} {tail after : List Char} {later : List Token}

/-- The content of a tag, taken apart into its name and its attributes. -/
theorem tagName_and_attributes (hallowed : ∀ p, allowed p → KeptPrefix p)
    (hpre : Prefixed PlainName pre) (hname : PlainName name) (hnames : WellNamed attributes)
    (htail : WritesAttributes allowed attributes tail) :
    String.ofList (localName (tagName (qualified pre name ++ tail))) = name ∧
      tagAttributes (qualified pre name ++ tail) = .ok attributes := by
  have hinside : ∀ c ∈ qualified pre name, (!isMarkupSpace c) = true := fun c hc => by
    rw [not_space_of_mem_qualified hpre hname c hc]
    rfl
  constructor
  · rw [tagName, List.takeWhile_append_of_pos hinside, htail.takeWhile_eq_nil, List.append_nil,
      localName_qualified hpre hname, String.ofList_toList]
  · have hdrop : tail.dropWhile (fun c => !isMarkupSpace c) = tail := by
      have hsame := tail.takeWhile_append_dropWhile (p := fun c => !isMarkupSpace c)
      rw [htail.takeWhile_eq_nil] at hsame
      exact hsame
    obtain ⟨raw, hraw, hattributes⟩ := htail.exists_readAttributes hallowed hnames
      (utf8Length (qualified pre name ++ tail)) fun _ hraw => absurd hraw List.not_mem_nil
    rw [tagAttributes, List.dropWhile_append_of_pos hinside, hdrop, hraw]
    exact congrArg Except.ok hattributes

namespace Reads

/-- **A start tag** opens its element. -/
theorem openingTag (hallowed : ∀ p, allowed p → KeptPrefix p)
    (hpre : Prefixed PlainName pre) (hname : PlainName name) (hnames : WellNamed attributes)
    (htail : WritesAttributes allowed attributes tail) (h : Reads after later) :
    Reads ('<' :: (qualified pre name ++ (tail ++ '>' :: after)))
      (.start name attributes :: later) := by
  have hinside : (qualified pre name ++ tail).foldlM tagStep none = some none := by
    rw [List.foldlM_append, foldlM_tagStep_qualified hpre hname]
    exact htail.foldlM_tagStep (fun p hp => (hallowed p hp).1) fun pair hpair =>
      (hnames.1 pair hpair).1
  have hsplit : Kind.startTag.split (qualified pre name ++ (tail ++ '>' :: after)) =
      some (qualified pre name ++ tail, after) := by
    rw [← List.append_assoc]
    exact untilClose_of_foldlM hinside rfl after
  have hlast : (qualified pre name ++ tail).getLast? ≠ some '/' := by
    refine htail.getLast?_ne fun hslash => ?_
    rcases plain_or_colon_of_mem_qualified hpre hname '/' (List.mem_of_getLast? hslash) with
      hplain | hcolon
    · exact ne_of_isPlainChar hplain (by decide) rfl
    · exact absurd hcolon (by decide)
  obtain ⟨htag, hattributes⟩ := tagName_and_attributes hallowed hpre hname hnames htail
  have htokens : ∀ position, Kind.startTag.tokens position (qualified pre name ++ tail) =
      .ok [.start name attributes] := fun position => by
    rw [Kind.tokens, Token.ofStartTag, if_neg hlast, hattributes, htag]
    rfl
  exact .markup (kind_qualified hpre hname _) hsplit htokens h

/-- **An empty tag** is one whose content ends with a slash. -/
theorem emptyTag (hallowed : ∀ p, allowed p → KeptPrefix p)
    (hpre : Prefixed PlainName pre) (hname : PlainName name) (hnames : WellNamed attributes)
    (htail : WritesAttributes allowed attributes tail) (h : Reads after later) :
    Reads ('<' :: (qualified pre name ++ (tail ++ '/' :: '>' :: after)))
      (.empty name attributes :: later) := by
  have hinside : ((qualified pre name ++ tail) ++ ['/']).foldlM tagStep none = some none := by
    rw [List.foldlM_append, List.foldlM_append, foldlM_tagStep_qualified hpre hname]
    show (tail.foldlM tagStep none).bind _ = _
    rw [htail.foldlM_tagStep (fun p hp => (hallowed p hp).1) fun pair hpair =>
      (hnames.1 pair hpair).1]
    rfl
  have hsplit : Kind.startTag.split (qualified pre name ++ (tail ++ '/' :: '>' :: after)) =
      some ((qualified pre name ++ tail) ++ ['/'], after) := by
    have hclose : tagStep none '>' = none := rfl
    have hend := untilClose_of_foldlM hinside hclose after
    simp only [List.append_assoc, List.cons_append, List.nil_append] at hend ⊢
    exact hend
  obtain ⟨htag, hattributes⟩ := tagName_and_attributes hallowed hpre hname hnames htail
  have htokens : ∀ position, Kind.startTag.tokens position ((qualified pre name ++ tail) ++ ['/']) =
      .ok [.empty name attributes] := fun position => by
    rw [Kind.tokens, Token.ofStartTag, if_pos List.getLast?_concat, List.dropLast_concat,
      hattributes, htag]
    rfl
  exact .markup (kind_qualified hpre hname _) hsplit htokens h

/-- **An end tag** closes by its name, whatever its prefix. -/
theorem closingTag {blank : List Char} (hpre : Prefixed PlainName pre) (hname : PlainName name)
    (hblank : Blank blank) (h : Reads after later) :
    Reads ('<' :: '/' :: (qualified pre name ++ (blank ++ '>' :: after)))
      (.stop name :: later) := by
  have hinside : ('/' :: (qualified pre name ++ blank)).foldlM tagStep none = some none := by
    show (qualified pre name ++ blank).foldlM tagStep none = _
    rw [List.foldlM_append, foldlM_tagStep_qualified hpre hname]
    exact hblank.foldlM_tagStep
  have hsplit : Kind.endTag.split ('/' :: (qualified pre name ++ (blank ++ '>' :: after))) =
      some ('/' :: (qualified pre name ++ blank), after) := by
    rw [← List.append_assoc]
    exact untilClose_of_foldlM hinside rfl after
  have htokens : ∀ position, Kind.endTag.tokens position ('/' :: (qualified pre name ++ blank)) =
      .ok [.stop name] := fun position => by
    show Except.ok [Token.stop (String.ofList (localName (endTagName
      (qualified pre name ++ blank))))] = _
    rw [endTagName_append_blank (qualified_ne_nil pre hname)
      (not_space_of_mem_qualified hpre hname) hblank, localName_qualified hpre hname,
      String.ofList_toList]
  exact .markup rfl hsplit htokens h

end Reads

end Tags


end AccessRights.Markup
