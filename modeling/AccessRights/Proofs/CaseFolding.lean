import AccessRights.Proofs.TermsAgree

/-!
# Two ways of folding letter case

The text of a group is folded in two ways.  Whether it means the stanford group is decided
with the ASCII letters in lower case and all else as it is (`isStanfordGroup`), and the term
of another group has its text in full lowercase (`Text.lowercase`).  The two foldings differ
in most texts that are not ASCII, and even in their lengths.  `isStanfordGroup_iff_infix` says
that they agree on the one question that matters: whether `stanford` is in the text.

That full lowercasing brings no `stanford` about which was not there before is a matter of the
tables, and is settled in `AccessRights.Proofs.StanfordCase`.  This module has the other half:
full lowercasing takes no `stanford` away.  In the ASCII range it is the folding of ASCII case
(`Text.lowercaseChar_of_ascii`), and it looks at the characters around a sigma only, so that a
letter whose ASCII folding is plain contributes just that letter, whatever stands around it
(`Text.lowercaseAfter_cons_of_toLower`).
-/

namespace AccessRights

namespace Text

/-- In the ASCII range there is one folding. -/
theorem lowercaseChar_of_ascii : ∀ code < 0x80,
    lowercaseChar (Char.ofNat code) = [(Char.ofNat code).toLower] := by
  decide +kernel

/-- What ASCII folding takes to a plain letter is an ASCII character. -/
theorem IsPlain.toNat_lt_of_toLower_eq {letter c : Char} (hplain : IsPlain letter)
    (h : c.toLower = letter) : c.toNat < 0x80 := by
  unfold Char.toLower at h
  split at h
  · next hcapital =>
    have hle : c.toNat ≤ 0x5A := UInt32.le_iff_toNat_le.mp hcapital.2
    omega
  · subst h
    exact Nat.lt_of_le_of_lt hplain.2.1 (by decide)

/-- **A letter that ASCII folding makes plain is lowercased to that letter alone**, whatever
stands around it. -/
theorem lowercaseAfter_cons_of_toLower {letter c : Char} (hplain : IsPlain letter)
    (h : c.toLower = letter) (before rest : List Char) :
    lowercaseAfter before (c :: rest) = letter :: lowercaseAfter (c :: before) rest := by
  have hascii := hplain.toNat_lt_of_toLower_eq h
  have hsigma : c ≠ 'Σ' := by
    rintro rfl
    exact absurd hascii (by decide)
  have himage : lowercaseChar c = [letter] := by
    have hfold := lowercaseChar_of_ascii c.toNat hascii
    rwa [Char.ofNat_toNat, h] at hfold
  rw [lowercaseAfter, if_neg hsigma, himage]
  rfl

/-- Plain letters that a text starts with, up to ASCII case, are those that the lowercased
text starts with. -/
theorem prefix_lowercaseAfter {pattern cs : List Char} (before : List Char)
    (hplain : ∀ letter ∈ pattern, IsPlain letter) (h : pattern <+: cs.map Char.toLower) :
    pattern <+: lowercaseAfter before cs := by
  induction cs generalizing pattern before with
  | nil => exact h
  | cons c cs ih =>
    cases pattern with
    | nil => exact List.nil_prefix
    | cons letter pattern =>
      obtain ⟨hletter, hpattern⟩ := List.forall_mem_cons.mp hplain
      rw [List.map_cons, List.cons_prefix_cons] at h
      obtain ⟨hlower, h⟩ := h
      rw [lowercaseAfter_cons_of_toLower hletter hlower.symm, List.cons_prefix_cons]
      exact ⟨rfl, ih (c :: before) hpattern h⟩

/-- **Plain letters are not lost in a lowercased text**, up to ASCII case. -/
theorem infix_lowercaseAfter {pattern cs : List Char} (before : List Char)
    (hplain : ∀ letter ∈ pattern, IsPlain letter) (h : pattern <:+: cs.map Char.toLower) :
    pattern <:+: lowercaseAfter before cs := by
  induction cs generalizing before with
  | nil => exact h
  | cons c cs ih =>
    rcases List.infix_cons_iff.mp h with hstart | hlater
    · have hwhole : pattern <+: (c :: cs).map Char.toLower := hstart
      exact (prefix_lowercaseAfter before hplain hwhole).isInfix
    · -- Whatever the first character becomes stands in front of the rest.
      obtain ⟨image, himage, -⟩ := lowercaseAfter_cons before c cs
      rw [himage]
      exact (ih (c :: before) hlater).trans (List.suffix_append image _).isInfix

theorem isPlain_of_mem_stanford : ∀ letter ∈ Vocabulary.stanford.toList, IsPlain letter := by
  simp [Vocabulary.stanford, IsPlain]

end Text

/-- A text that means the stanford group has its name in full lowercase. -/
theorem infix_lowercase_of_isStanfordGroup {text : String} (h : isStanfordGroup text = true) :
    Vocabulary.stanford.toList <:+: (Text.lowercase text).toList := by
  rw [Text.lowercase, String.toList_ofList]
  exact Text.infix_lowercaseAfter [] Text.isPlain_of_mem_stanford
    (Text.containsInfix_eq_true_iff.mp h)

/-- **The two foldings agree about the stanford group.**  A group that is named by a term is a
group of the document that is not the stanford group, and `stanford` is not in the name that
the term has for it. -/
theorem isStanfordGroup_iff_infix :
    (∀ text : String, isStanfordGroup text = true ↔
      Vocabulary.stanford.toList <:+: (Text.lowercase text).toList) ∧
    ∀ (metadata : Metadata) (name : String), .group name ∈ Index.terms metadata →
      (∃ grant ∈ metadata.grantsOf .read .object, grant.name = Vocabulary.group ∧
        isStanfordGroup grant.text = false ∧ name = Text.lowercase grant.text) ∧
      ¬ Vocabulary.stanford.toList <:+: name.toList := by
  constructor
  · intro text
    constructor
    · exact infix_lowercase_of_isStanfordGroup
    · exact isStanfordGroup_of_infix_lowercase
  · intro metadata name hterm
    have hname := Index.not_stanford_of_mem_terms hterm
    refine ⟨?_, hname⟩
    obtain ⟨-, grant, hgrant, rfl⟩ := Index.mem_terms_iff.mp hterm
    obtain ⟨hmem, hgroup⟩ := Index.mem_and_name_eq_of_firstGrant? hgrant
    refine ⟨grant, hmem, hgroup, ?_, rfl⟩
    exact Bool.eq_false_iff.mpr fun h => hname (infix_lowercase_of_isStanfordGroup h)

/-- A group with a Kelvin sign, a capital i with a dot and two sigmas in its name, of which the
second ends a word. -/
def peninsula : Metadata :=
  ⟨true, [⟨.read, [], [⟨[⟨"group", "SİLICON ΣΣ STAN-FORD K", none, none⟩], false, none⟩]⟩]⟩

theorem isStanfordGroup_iff_infix_peninsula :
    .group "si̇licon σς stan-ford k" ∈ Index.terms peninsula ∧
      ¬ "stanford".toList <:+: "si̇licon σς stan-ford k".toList ∧
      isStanfordGroup "ΣSTANFORDİΣ" = true ∧
      "stanford".toList <:+: (Text.lowercase "ΣSTANFORDİΣ").toList := by
  have hterm : .group "si̇licon σς stan-ford k" ∈ Index.terms peninsula := by decide +kernel
  have hgroup : isStanfordGroup "ΣSTANFORDİΣ" = true := by decide +kernel
  obtain ⟨hagree, hnamed⟩ := isStanfordGroup_iff_infix
  exact ⟨hterm, (hnamed peninsula _ hterm).2, hgroup, (hagree _).mp hgroup⟩

end AccessRights
