import AccessRights.Text.Lowercase
import AccessRights.Vocabulary

/-!
# Lowercasing names no stanford group

Whether a group is the stanford group is decided with letter case folded in the ASCII
range only, but the name of another group is written in full lowercase.  The written
name could hold the word `stanford` all the same if some character outside of ASCII had
one of its letters as its lowercase form.

There are just two such characters: the Kelvin sign becomes `k`, and a capital i with a
dot becomes `i` and a combining dot.  No other letter of the ASCII alphabet is the
lowercase form of anything but itself and its ASCII capital, so a stretch of plain
letters in a lowercased text was there before, up to ASCII case
(`Text.infix_map_toLower`).
-/

namespace AccessRights

namespace Text

/-- An ASCII letter that no character outside of ASCII has in its lowercase form. -/
def IsPlain (letter : Char) : Prop :=
  0x61 ≤ letter.toNat ∧ letter.toNat ≤ 0x7A ∧ letter.toNat ≠ 0x69 ∧ letter.toNat ≠ 0x6B

instance (letter : Char) : Decidable (IsPlain letter) :=
  inferInstanceAs (Decidable (_ ∧ _ ∧ _ ∧ _))

theorem toNat_ofNat_eq_or_eq_zero (code : Nat) :
    (Char.ofNat code).toNat = code ∨ (Char.ofNat code).toNat = 0 := by
  by_cases hvalid : code.isValidChar
  · rw [Char.ofNat, dif_pos hvalid]
    exact Or.inl rfl
  · rw [Char.ofNat, dif_neg hvalid]
    exact Or.inr rfl

theorem IsPlain.toLower_eq {letter : Char} (h : IsPlain letter) : letter.toLower = letter := by
  unfold Char.toLower
  rw [dif_neg]
  rintro ⟨-, hle⟩
  have hle : letter.toNat ≤ 0x5A := UInt32.le_iff_toNat_le.mp hle
  have hge : 0x61 ≤ letter.toNat := h.1
  omega

/-- The runs whose lowercase forms reach into ASCII: that of the ASCII capitals, and the
Kelvin sign. -/
theorem lowercaseRuns_image : ∀ run ∈ lowercaseRuns,
    run = ⟨0x41, 0x5A, 1, 0x61⟩ ∨ 0x7A < run.image ∨
      (run.image = 0x6B ∧ run.first = run.last) := by
  decide +kernel

theorem toLower_of_ascii_capital : ∀ code < 0x5B, 0x41 ≤ code →
    (Char.ofNat code).toLower = Char.ofNat (0x61 + (code - 0x41)) := by
  decide

/-- Of the runs only that of the ASCII capitals leads to plain letters. -/
theorem toLower_eq_of_image? {run : CaseRun} {c : Char} {code : Nat}
    (hrun : run ∈ lowercaseRuns) (himage : run.image? c.toNat = some code)
    (hplain : IsPlain (Char.ofNat code)) : c.toLower = Char.ofNat code := by
  obtain ⟨hlow, hhigh, -, hk⟩ := hplain
  unfold CaseRun.image? at himage
  split at himage
  case isTrue hin =>
    obtain ⟨hfirst, hlast, -⟩ := hin
    obtain rfl := Option.some.inj himage
    have hcode := toNat_ofNat_eq_or_eq_zero (run.image + (c.toNat - run.first))
    rcases lowercaseRuns_image run hrun with rfl | hlarge | ⟨hkelvin, hsingle⟩
    · have hlower := toLower_of_ascii_capital c.toNat (Nat.lt_succ_of_le hlast) hfirst
      rwa [Char.ofNat_toNat] at hlower
    · omega
    · omega
  case isFalse => cases himage

/-- **A plain letter is the lowercase form of itself and its ASCII capital only.** -/
theorem eq_of_mem_lowercaseChar {letter c : Char} (hplain : IsPlain letter)
    (h : letter ∈ lowercaseChar c) : lowercaseChar c = [letter] ∧ c.toLower = letter := by
  unfold lowercaseChar at h ⊢
  split at h
  · -- The capital i with a dot leads to a letter that is not plain, and to no other.
    obtain ⟨-, hhigh, hi, -⟩ := hplain
    rcases List.mem_cons.mp h with rfl | h
    · exact absurd rfl hi
    · rw [List.mem_singleton.mp h] at hhigh
      exact absurd hhigh (by decide)
  · next hdot =>
    rw [if_neg hdot]
    split at h
    · next code hcode =>
      obtain rfl := List.mem_singleton.mp h
      obtain ⟨run, hrun, himage⟩ := List.exists_of_findSome?_eq_some hcode
      exact ⟨rfl, toLower_eq_of_image? hrun himage hplain⟩
    · obtain rfl := List.mem_singleton.mp h
      exact ⟨rfl, hplain.toLower_eq⟩

/-- What one character of a text contributes to its lowercase form. -/
theorem lowercaseAfter_cons (before : List Char) (c : Char) (rest : List Char) :
    ∃ image, lowercaseAfter before (c :: rest) = image ++ lowercaseAfter (c :: before) rest ∧
      image ≠ [] ∧
      ∀ letter ∈ image, IsPlain letter → image = [letter] ∧ c.toLower = letter := by
  rw [lowercaseAfter]
  refine ⟨_, rfl, ?_, ?_⟩
  · split
    · exact List.cons_ne_nil _ _
    · unfold lowercaseChar
      split
      · exact List.cons_ne_nil _ _
      · split <;> exact List.cons_ne_nil _ _
  · intro letter hletter hplain
    split at hletter
    · -- A sigma of either form is not a plain letter.
      have hsigma : ¬ IsPlain 'ς' ∧ ¬ IsPlain 'σ' := by decide
      split at hletter
      · exact absurd (List.mem_singleton.mp hletter ▸ hplain) hsigma.1
      · exact absurd (List.mem_singleton.mp hletter ▸ hplain) hsigma.2
    · next hsigma =>
      rw [if_neg hsigma]
      exact eq_of_mem_lowercaseChar hplain hletter

/-- Plain letters that a lowercased text starts with are those that the text starts
with, up to ASCII case. -/
theorem prefix_map_toLower {pattern before cs : List Char}
    (hplain : ∀ letter ∈ pattern, IsPlain letter) (h : pattern <+: lowercaseAfter before cs) :
    pattern <+: cs.map Char.toLower := by
  induction cs generalizing pattern before with
  | nil => exact h
  | cons c cs ih =>
    cases pattern with
    | nil => exact List.nil_prefix
    | cons letter pattern =>
      obtain ⟨hletter, hpattern⟩ := List.forall_mem_cons.mp hplain
      obtain ⟨image, himage, hne, hplain_image⟩ := lowercaseAfter_cons before c cs
      obtain ⟨first, others, rfl⟩ := List.exists_cons_of_ne_nil hne
      rw [himage, List.cons_append, List.cons_prefix_cons] at h
      obtain ⟨rfl, h⟩ := h
      obtain ⟨hothers, hlower⟩ := hplain_image letter List.mem_cons_self hletter
      obtain rfl : others = [] := (List.cons.inj hothers).2
      rw [List.map_cons, hlower, List.cons_prefix_cons]
      exact ⟨rfl, ih hpattern h⟩

/-- A stretch that starts with a letter which the first part does not have lies in the
second. -/
theorem infix_of_infix_append {letter : Char} {pattern image rest : List Char}
    (hletter : letter ∉ image) (h : letter :: pattern <:+: image ++ rest) :
    letter :: pattern <:+: rest := by
  induction image with
  | nil => exact h
  | cons first image ih =>
    obtain ⟨hfirst, himage⟩ := not_or.mp (mt List.mem_cons.mpr hletter)
    rcases List.infix_cons_iff.mp h with hprefix | hinfix
    · exact absurd (List.cons_prefix_cons.mp hprefix).1 hfirst
    · exact ih himage hinfix

/-- **Plain letters in a lowercased text were there before**, up to ASCII case. -/
theorem infix_map_toLower {letter : Char} {pattern before cs : List Char}
    (hplain : ∀ other ∈ letter :: pattern, IsPlain other)
    (h : letter :: pattern <:+: lowercaseAfter before cs) :
    letter :: pattern <:+: cs.map Char.toLower := by
  induction cs generalizing before with
  | nil => exact h
  | cons c cs ih =>
    obtain ⟨image, himage, -, hplain_image⟩ := lowercaseAfter_cons before c cs
    rw [List.map_cons, List.infix_cons_iff]
    by_cases hletter : letter ∈ image
    · -- The image is the letter alone, so that the stretch starts with it or after it.
      obtain ⟨rfl, -⟩ := hplain_image letter hletter (hplain letter List.mem_cons_self)
      rw [himage] at h
      rcases List.infix_cons_iff.mp h with hprefix | hinfix
      · have hstart : letter :: pattern <+: lowercaseAfter before (c :: cs) := by
          rw [himage]
          exact hprefix
        exact Or.inl (prefix_map_toLower hplain hstart)
      · exact Or.inr (ih hinfix)
    · rw [himage] at h
      exact Or.inr (ih (infix_of_infix_append hletter h))

end Text

/-- **The lowercase form of a text holds `stanford` only if the text names that group.** -/
theorem isStanfordGroup_of_infix_lowercase {text : String}
    (h : Vocabulary.stanford.toList <:+: (Text.lowercase text).toList) :
    isStanfordGroup text = true := by
  unfold Text.lowercase at h
  rw [String.toList_ofList] at h
  have hplain : ∀ letter ∈ ['s', 't', 'a', 'n', 'f', 'o', 'r', 'd'], Text.IsPlain letter := by
    simp [Text.IsPlain]
  exact Text.containsInfix_eq_true_iff.mpr (Text.infix_map_toLower hplain h)

end AccessRights
