import AccessRights.Proofs.SourceOrder
import AccessRights.Proofs.WrittenMarkup
import Mathlib.Data.List.Induction

/-!
# The pieces of a source

A text is read as tokens, and a token does not show how its text was written.  This module
puts the source beside the tokens: `Cuts` cuts a text into pieces, so that nothing of it is
left out, and each piece says what it contributes (`Piece.tokens`).  `tokens_eq_ok_iff_cuts`
is the law that the tokens of a text are those of its pieces, and that a text which can be cut
is one that can be read.

Character data comes in two ways, and `Cuts` describes both without the machines that read
them.

* A run is what stands between two pieces of markup, all of it.  It contributes what it stands
  for once every reference in it is replaced, and all of it as it is written where some
  reference means nothing (`Decodes`).
* A section holds everything up to the first `]]>`, and contributes it as it stands.

Tags and remarks are taken from the kinds of markup.  What a tag says is of no importance
here.

## What carries the argument

That a section ends no earlier and no later than it should is read off its machine: what it
runs over without closing does not hold the closing sequence (`not_infix_of_foldlM`), and the
brackets it counts are the last ones it has read (`replicate_suffix_of_foldlM`).
-/

namespace AccessRights.Markup

/-! ## Decoding a run -/

/-- The second text is the first one with every reference in it replaced. -/
inductive Unescapes : List Char → List Char → Prop
  | nil : Unescapes [] []
  | plain {c : Char} {written meant : List Char} :
    c ≠ '&' → Unescapes written meant → Unescapes (c :: written) (c :: meant)
  | reference {c : Char} {name written meant : List Char} :
    (∀ d ∈ name, d ≠ '&' ∧ d ≠ ';') → referenced? name = some c → Unescapes written meant →
      Unescapes ('&' :: (name ++ ';' :: written)) (c :: meant)

/-- What a run contributes: what it stands for if every reference in it means something, and
otherwise the run as it is written, without any reference replaced. -/
def Decodes (written : List Char) (value : String) : Prop :=
  Unescapes written value.toList ∨
    (value.toList = written ∧ ∀ meant, ¬ Unescapes written meant)

theorem isInsideReference_eq_true_iff {c : Char} :
    isInsideReference c = true ↔ c ≠ '&' ∧ c ≠ ';' := by
  simp [isInsideReference]

theorem resolve_of_unescapes {written meant : List Char} (h : Unescapes written meant) :
    resolve written = some meant := by
  induction h with
  | nil => rw [resolve]
  | plain hc _ ih => rw [resolve_cons hc, ih, Option.map_some]
  | @reference c name written meant hname hc _ ih =>
    have hinside : name.all isInsideReference = true :=
      List.all_eq_true.mpr fun d hd => isInsideReference_eq_true_iff.mpr (hname d hd)
    rw [resolve_reference name hc hinside, ih, Option.map_some]

theorem unescapes_of_resolve {written meant : List Char} (h : resolve written = some meant) :
    Unescapes written meant := by
  induction written using resolve.induct generalizing meant with
  | case1 =>
    rw [resolve] at h
    cases h
    exact .nil
  | case2 rest after hafter ih =>
    -- The text after the ampersand is the name, the semicolon and the rest.
    have hrest : rest = rest.takeWhile isInsideReference ++ ';' :: after := by
      rw [← hafter, List.takeWhile_append_dropWhile]
    have hname : ∀ d ∈ rest.takeWhile isInsideReference, isInsideReference d = true :=
      fun d hd => List.mem_takeWhile_imp hd
    cases hc : referenced? (rest.takeWhile isInsideReference) with
    | none =>
      rw [resolve] at h
      split at h
      · rw [hc] at h
        cases h
      · cases h
    | some c =>
      rw [hrest, resolve_reference _ hc (List.all_eq_true.mpr hname)] at h
      obtain ⟨others, hothers, rfl⟩ := Option.map_eq_some_iff.mp h
      rw [hrest]
      exact .reference (fun d hd => isInsideReference_eq_true_iff.mp (hname d hd)) hc (ih hothers)
  | case3 rest hnone =>
    rw [resolve] at h
    split at h
    · next after hafter => exact absurd hafter (hnone after)
    · cases h
  | case4 c rest hc ih =>
    rw [resolve_cons hc] at h
    obtain ⟨others, hothers, rfl⟩ := Option.map_eq_some_iff.mp h
    exact .plain hc (ih hothers)

theorem resolve_eq_some_iff {written meant : List Char} :
    resolve written = some meant ↔ Unescapes written meant :=
  ⟨unescapes_of_resolve, resolve_of_unescapes⟩

/-- **A run contributes one text**, the one that reading takes it for. -/
theorem decodes_iff {written : List Char} {value : String} :
    Decodes written value ↔ value = resolved written := by
  unfold Decodes resolved
  simp only [← resolve_eq_some_iff]
  cases hresolve : resolve written with
  | none => simp [← String.toList_inj]
  | some meant => simp [← String.toList_inj, eq_comm]

/-! ## Cutting a source -/

/-- A piece of a source. -/
inductive Piece
  /-- Characters between markup, as they are written. -/
  | run (written : List Char)
  /-- What a section of character data holds. -/
  | verbatim (held : List Char)
  /-- A start tag, an empty tag or an end tag. -/
  | tag (token : Token)
  /-- A comment, an instruction or a declaration of the document type. -/
  | remark

/-- What a piece contributes. -/
def Piece.tokens : Piece → List Token
  | run written => [.text (resolved written)]
  | verbatim held => [.text (String.ofList held)]
  | tag token => [token]
  | remark => []

/-- The text is made of the pieces, one after the other.  A run goes on up to the next markup,
or to the end. -/
inductive Cuts : List Char → List Piece → Prop
  | nil : Cuts [] []
  | run {written rest : List Char} {pieces : List Piece} :
    written ≠ [] → '<' ∉ written → (∀ c ∈ rest.head?, c = '<') → Cuts rest pieces →
      Cuts (written ++ rest) (.run written :: pieces)
  | verbatim {held rest : List Char} {pieces : List Piece} :
    ¬ [']', ']', '>'] <:+: held → Cuts rest pieces →
      Cuts ("<![CDATA[".toList ++ (held ++ ']' :: ']' :: '>' :: rest)) (.verbatim held :: pieces)
  | tag {kind : Kind} {rest content after : List Char} {token : Token} {pieces : List Piece} :
    Kind.of? rest = some kind → kind ≠ .characterData → kind.split rest = some (content, after) →
      (∀ position, kind.tokens position content = .ok [token]) → Cuts after pieces →
      Cuts ('<' :: rest) (.tag token :: pieces)
  | remark {kind : Kind} {rest content after : List Char} {pieces : List Piece} :
    Kind.of? rest = some kind → kind.split rest = some (content, after) →
      (∀ position, kind.tokens position content = .ok []) → Cuts after pieces →
      Cuts ('<' :: rest) (.remark :: pieces)

/-! ## Where a section ends -/

/-- Markup that ends has been run over without closing, up to the character that closes. -/
theorem exists_foldlM_of_untilClose {σ : Type} {step : σ → Char → Option σ} {state : σ}
    {cs inside after : List Char} (h : untilClose step state cs = some (inside, after)) :
    ∃ last c, inside.foldlM step state = some last ∧ step last c = none := by
  induction cs generalizing state inside with
  | nil => cases h
  | cons c rest ih =>
    rw [untilClose] at h
    split at h
    · next hclose =>
      cases h
      exact ⟨state, c, rfl, hclose⟩
    · next next hstep =>
      obtain ⟨⟨inside', after'⟩, hrest, heq⟩ := Option.map_eq_some_iff.mp h
      cases heq
      obtain ⟨last, d, hlast, hclose⟩ := ih hrest
      refine ⟨last, d, ?_, hclose⟩
      rw [List.foldlM_cons, hstep]
      exact hlast

theorem characterDataStep_bracket (brackets : Nat) :
    characterDataStep brackets ']' = some (brackets + 1) := by
  simp [characterDataStep]

theorem characterDataStep_of_ne (brackets : Nat) {c : Char} (hc : c ≠ ']') :
    characterDataStep brackets c = none ∨ characterDataStep brackets c = some 0 := by
  unfold characterDataStep
  split
  · exact Or.inl rfl
  · exact Or.inr rfl

/-- **The brackets that are counted are the last ones read.** -/
theorem replicate_suffix_of_foldlM {cs : List Char} {brackets : Nat}
    (h : cs.foldlM characterDataStep 0 = some brackets) :
    List.replicate brackets ']' <:+ cs := by
  induction cs using List.reverseRecOn generalizing brackets with
  | nil =>
    cases h
    exact List.suffix_refl _
  | append_singleton cs c ih =>
    rw [List.foldlM_append] at h
    obtain ⟨before, hbefore, hlast⟩ := Option.bind_eq_some_iff.mp h
    have hstep : characterDataStep before c = some brackets := by simpa using hlast
    by_cases hc : c = ']'
    · subst hc
      obtain rfl : before + 1 = brackets := by simpa [characterDataStep_bracket] using hstep
      obtain ⟨front, hfront⟩ := ih hbefore
      refine ⟨front, ?_⟩
      rw [List.replicate_succ', ← List.append_assoc, hfront]
    · rcases characterDataStep_of_ne before hc with hnone | hzero
      · cases hstep.symm.trans hnone
      · cases hstep.symm.trans hzero
        exact List.nil_suffix

/-- **What is run over without closing does not hold the closing sequence.** -/
theorem not_infix_of_foldlM {cs : List Char} {first last : Nat}
    (h : cs.foldlM characterDataStep first = some last) : ¬ [']', ']', '>'] <:+: cs := by
  rintro ⟨front, back, rfl⟩
  rw [List.foldlM_append] at h
  obtain ⟨brackets, hthrough, -⟩ := Option.bind_eq_some_iff.mp h
  rw [List.foldlM_append] at hthrough
  obtain ⟨before, -, hclosing⟩ := Option.bind_eq_some_iff.mp hthrough
  have hclose : characterDataStep (before + 1 + 1) '>' = none := by simp [characterDataStep]
  simp [characterDataStep_bracket, hclose] at hclosing

/-- A section that is read holds what stands before the first closing sequence. -/
theorem exists_held_of_split {rest content after : List Char} {here : List Token} {position : Nat}
    (hsplit : Kind.characterData.split rest = some (content, after))
    (hhere : Kind.characterData.tokens position content = .ok here) :
    ∃ held, ¬ [']', ']', '>'] <:+: held ∧ here = [.text (String.ofList held)] ∧
      rest = "![CDATA[".toList ++ (held ++ ']' :: ']' :: '>' :: after) := by
  have hrest := Kind.eq_append_of_split hsplit
  obtain ⟨brackets, c, hlast, hclose⟩ := exists_foldlM_of_untilClose hsplit
  rw [Kind.tokens] at hhere
  split at hhere
  · next hopen =>
    obtain ⟨inside, rfl⟩ := List.isPrefixOf_iff_prefix.mp hopen
    -- The opening ends with a bracket of the other kind, so that counting starts after it.
    have hinside : inside.foldlM characterDataStep 0 = some brackets := by
      rw [List.foldlM_append] at hlast
      exact hlast
    have hmany : 2 ≤ brackets := by
      unfold characterDataStep at hclose
      split at hclose
      · next hc => exact hc.2
      · cases hclose
    have htwo : [']', ']'] <:+ List.replicate brackets ']' :=
      ⟨List.replicate (brackets - 2) ']', by
        show List.replicate (brackets - 2) ']' ++ List.replicate 2 ']' = _
        rw [List.replicate_append_replicate, Nat.sub_add_cancel hmany]⟩
    obtain ⟨held, rfl⟩ := htwo.trans (replicate_suffix_of_foldlM hinside)
    refine ⟨held, ?_, ?_, ?_⟩
    · intro hoccurs
      exact not_infix_of_foldlM hinside (hoccurs.trans (List.prefix_append _ _).isInfix)
    · have hdrop : ("![CDATA[".toList ++ (held ++ [']', ']'])).drop 8 = held ++ [']', ']'] := rfl
      rw [hdrop] at hhere
      simpa using hhere.symm
    · rw [hrest]
      simp
  · cases hhere

/-! ## Pieces and tokens -/

/-- A run up to the next markup is what reading takes for one. -/
theorem Reads.run_append {written rest : List Char} {later : List Token} (hne : written ≠ [])
    (hplain : '<' ∉ written) (hrest : ∀ c ∈ rest.head?, c = '<') (h : Reads rest later) :
    Reads (written ++ rest) (.text (resolved written) :: later) := by
  obtain ⟨c, cs, rfl⟩ := List.exists_cons_of_ne_nil hne
  rw [List.mem_cons, not_or] at hplain
  have hcs : ∀ d ∈ cs, (d != '<') = true := by
    intro d hd
    apply bne_iff_ne.mpr
    rintro rfl
    exact hplain.2 hd
  have hdrop : (cs ++ rest).dropWhile (· != '<') = rest := by
    rw [List.dropWhile_append_of_pos hcs]
    cases rest with
    | nil => rfl
    | cons d ds =>
      rw [hrest d rfl]
      rfl
  have htake : (cs ++ rest).takeWhile (· != '<') = cs := by
    rw [List.takeWhile_append_of_pos hcs]
    cases rest with
    | nil => simp
    | cons d ds =>
      rw [hrest d rfl]
      simp
  have hread : Reads (c :: (cs ++ rest)) (.text (resolved (c :: (cs ++ rest).takeWhile (· != '<')))
      :: later) := .run (Ne.symm hplain.1) (by rwa [hdrop])
  rwa [htake] at hread

/-- **What is cut is read as the tokens of the pieces.** -/
theorem Cuts.reads {cs : List Char} {pieces : List Piece} (h : Cuts cs pieces) :
    Reads cs (pieces.flatMap Piece.tokens) := by
  induction h with
  | nil => exact .nil
  | run hne hplain hrest _ ih => exact ih.run_append hne hplain hrest
  | verbatim hheld _ ih => exact ih.characterData hheld
  | tag hkind _ hsplit htoken _ ih => exact .markup hkind hsplit htoken ih
  | remark hkind hsplit hnone _ ih => exact .markup hkind hsplit hnone ih

theorem not_mem_cons_takeWhile {c : Char} (hc : c ≠ '<') (rest : List Char) :
    '<' ∉ c :: rest.takeWhile (· != '<') := by
  rw [List.mem_cons, not_or]
  constructor
  · exact Ne.symm hc
  · intro hmem
    simpa using List.mem_takeWhile_imp hmem

/-- A run ends where markup starts, or with the text. -/
theorem eq_of_mem_head?_dropWhile {d : Char} {rest : List Char}
    (h : d ∈ (rest.dropWhile (· != '<')).head?) : d = '<' := by
  simpa [Option.mem_def.mp h] using List.head?_dropWhile_not (· != '<') rest

/-- Characters that do not start markup are a run. -/
theorem Cuts.run_cons {c : Char} {rest : List Char} {pieces : List Piece} (hc : c ≠ '<')
    (h : Cuts (rest.dropWhile (· != '<')) pieces) :
    Cuts (c :: rest) (.run (c :: rest.takeWhile (· != '<')) :: pieces) := by
  have hrest : ∀ d ∈ (rest.dropWhile (· != '<')).head?, d = '<' :=
    fun _ => eq_of_mem_head?_dropWhile
  have hcut := Cuts.run (List.cons_ne_nil _ _) (not_mem_cons_takeWhile hc rest) hrest h
  rwa [List.cons_append, List.takeWhile_append_dropWhile] at hcut

/-- **What is read can be cut**, into pieces that contribute the tokens. -/
theorem Reads.exists_cuts {cs : List Char} {tokens : List Token} (h : Reads cs tokens) :
    ∃ pieces, Cuts cs pieces ∧ pieces.flatMap Piece.tokens = tokens := by
  induction h with
  | nil => exact ⟨[], .nil, rfl⟩
  | run hc _ ih =>
    obtain ⟨pieces, hcuts, rfl⟩ := ih
    exact ⟨_, hcuts.run_cons hc, rfl⟩
  | @markup kind rest content after here later hkind hsplit hhere _ ih =>
    obtain ⟨pieces, hcuts, rfl⟩ := ih
    by_cases hdata : kind = .characterData
    · subst hdata
      obtain ⟨held, hheld, rfl, rfl⟩ := exists_held_of_split hsplit (hhere 0)
      exact ⟨_, .verbatim hheld hcuts, rfl⟩
    · -- Other markup is one token or none.
      match here, Kind.length_tokens_le (hhere 0), hhere with
      | [], _, hnone => exact ⟨_, .remark hkind hsplit hnone hcuts, rfl⟩
      | [token], _, htoken => exact ⟨_, .tag hkind hdata hsplit htoken hcuts, rfl⟩

/-- **The tokens of a text are those of its pieces**, and a text is read exactly if it can be
cut. -/
theorem tokens_eq_ok_iff_cuts {text : String} {ts : List Token} :
    tokens text = .ok ts ↔
      ∃ pieces, Cuts (dropByteOrderMark text.toList) pieces ∧ pieces.flatMap Piece.tokens = ts := by
  apply tokensFrom_eq_ok_iff.trans
  constructor
  · intro h
    exact h.exists_cuts
  · rintro ⟨pieces, hcuts, rfl⟩
    exact hcuts.reads

end AccessRights.Markup
