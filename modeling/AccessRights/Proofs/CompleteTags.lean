import AccessRights.Proofs.SourcePieces

/-!
# Complete tags

A tag ends at a `>`, but not at one in quotes, and the machine that finds its end (`tagStep`)
keeps track of the quote that is open.  `KeepsOpen` describes the content of a tag without the
machine, quote by quote, and `split_startTag_iff` says that the machine ends a tag where this
description does.

What has an end has it whatever comes after.  Neither the end of markup nor its kind depends on
the text behind the closing `>` (`Kind.split_closed`, `Kind.of?_closed`), so that a part of a
text that ends with its markup can be read without the rest of the text.
-/

namespace AccessRights.Markup

/-! ## Tags that are complete -/

/-- The characters keep a tag open that is open: every `>` among them stands in quotes, and
every quote that opens is closed. -/
inductive KeepsOpen : List Char → Prop
  | nil : KeepsOpen []
  | plain {c : Char} {rest : List Char} : c ∉ ['>', '"', '\''] → KeepsOpen rest →
    KeepsOpen (c :: rest)
  | quoted {quote : Char} {inside rest : List Char} : quote ∈ ['"', '\''] → quote ∉ inside →
    KeepsOpen rest → KeepsOpen (quote :: (inside ++ quote :: rest))

/-- Outside of quotation marks other characters leave a tag open. -/
theorem tagStep_plain {c : Char} (h : c ∉ ['>', '"', '\'']) : tagStep none c = some none := by
  simp only [List.mem_cons, List.not_mem_nil, or_false, not_or] at h
  rw [tagStep, if_neg h.1, if_neg (not_or.mpr h.2)]

/-- A quotation mark opens a value. -/
theorem tagStep_quote {quote : Char} (h : quote ∈ ['"', '\'']) :
    tagStep none quote = some (some quote) := by
  rcases List.mem_pair.mp h with rfl | rfl
  · rfl
  · rfl

/-- Inside of a value nothing counts but the mark that closes it. -/
theorem foldlM_tagStep_inside {quote : Char} {inside : List Char} (h : quote ∉ inside)
    (rest : List Char) :
    (inside ++ quote :: rest).foldlM tagStep (some quote) = rest.foldlM tagStep none := by
  induction inside with
  | nil =>
    rw [List.nil_append, List.foldlM_cons, tagStep, if_pos rfl]
    rfl
  | cons c inside ih =>
    rw [List.mem_cons, not_or] at h
    rw [List.cons_append, List.foldlM_cons, tagStep, if_neg (Ne.symm h.1)]
    exact ih h.2

/-- A content that keeps the tag open leaves the machine where it was. -/
theorem KeepsOpen.foldlM_eq {cs : List Char} (h : KeepsOpen cs) :
    cs.foldlM tagStep none = some none := by
  induction h with
  | nil => rfl
  | plain hc _ ih =>
    rw [List.foldlM_cons, tagStep_plain hc]
    exact ih
  | quoted hquote hinside _ ih =>
    rw [List.foldlM_cons, tagStep_quote hquote]
    exact (foldlM_tagStep_inside hinside _).trans ih

/-- What the machine runs over keeps a tag open, or closes the quote that is open and then
keeps the tag open. -/
theorem keepsOpen_of_foldlM {cs : List Char} {quote : Option Char}
    (h : cs.foldlM tagStep quote = some none) :
    (quote = none → KeepsOpen cs) ∧ ∀ q, quote = some q →
      ∃ inside rest, cs = inside ++ q :: rest ∧ q ∉ inside ∧ KeepsOpen rest := by
  induction cs generalizing quote with
  | nil =>
    cases h
    exact ⟨fun _ => .nil, nofun⟩
  | cons c cs ih =>
    rw [List.foldlM_cons] at h
    obtain ⟨next, hstep, hrest⟩ := Option.bind_eq_some_iff.mp h
    obtain ⟨hopen, hinside⟩ := ih hrest
    constructor
    · rintro rfl
      by_cases hquote : c ∈ ['"', '\'']
      · rw [tagStep_quote hquote] at hstep
        obtain ⟨inside, rest, rfl, hnot, hkeeps⟩ := hinside c (Option.some.inj hstep).symm
        exact .quoted hquote hnot hkeeps
      · have hclose : c ≠ '>' := by
          rintro rfl
          cases hstep
        have hplain : c ∉ ['>', '"', '\''] := by
          rw [List.mem_cons, not_or]
          exact ⟨hclose, hquote⟩
        rw [tagStep_plain hplain] at hstep
        exact .plain hplain (hopen (Option.some.inj hstep).symm)
    · rintro q rfl
      rw [tagStep] at hstep
      split at hstep
      · next hc =>
        subst hc
        exact ⟨[], cs, rfl, List.not_mem_nil, hopen (Option.some.inj hstep).symm⟩
      · next hc =>
        obtain ⟨inside, rest, rfl, hnot, hkeeps⟩ := hinside q (Option.some.inj hstep).symm
        exact ⟨c :: inside, rest, rfl, List.not_mem_cons_of_ne_of_not_mem (Ne.symm hc) hnot, hkeeps⟩

/-- **A tag ends at the first `>` that does not keep it open.** -/
theorem split_startTag_iff {cs content after : List Char} :
    Kind.startTag.split cs = some (content, after) ↔
      cs = content ++ '>' :: after ∧ KeepsOpen content := by
  constructor
  · intro h
    refine ⟨Kind.eq_append_of_split h, ?_⟩
    obtain ⟨last, c, hlast, hclose⟩ := exists_foldlM_of_untilClose h
    have hnone : last = none := by
      cases last with
      | none => rfl
      | some q =>
        rw [tagStep] at hclose
        split at hclose <;> cases hclose
    subst hnone
    exact (keepsOpen_of_foldlM hlast).1 rfl
  · rintro ⟨rfl, hkeeps⟩
    exact untilClose_of_foldlM hkeeps.foldlM_eq rfl after

/-- The content of a start tag or an empty tag: not that of other markup, and up to the `>` that
closes it. -/
structure IsTagContent (content : List Char) : Prop where
  starts : ∀ c ∈ content.head?, c ∉ ['!', '?', '/']
  keepsOpen : KeepsOpen content

/-! ## Reading without what follows -/

/-- What follows the character that closes may be anything. -/
theorem untilClose_closed {σ : Type} {step : σ → Char → Option σ} {state : σ} {close : Char}
    {inside after : List Char}
    (h : untilClose step state (inside ++ close :: after) = some (inside, after))
    (other : List Char) :
    untilClose step state (inside ++ close :: other) = some (inside, other) := by
  induction inside generalizing state with
  | nil =>
    rw [List.nil_append, untilClose] at h ⊢
    cases hstep : step state close with
    | none => rfl
    | some next =>
      rw [hstep] at h
      obtain ⟨read, -, hread⟩ := Option.map_eq_some_iff.mp h
      cases hread
  | cons c inside ih =>
    rw [List.cons_append, untilClose] at h ⊢
    cases hstep : step state c with
    | none =>
      rw [hstep] at h
      cases h
    | some next =>
      rw [hstep] at h
      obtain ⟨⟨inside', after'⟩, hrest, hread⟩ := Option.map_eq_some_iff.mp h
      cases hread
      show Option.map _ (untilClose step next (inside ++ close :: other)) = _
      rw [ih hrest]
      rfl

namespace Kind

/-- Two characters tell what kind of markup it is. -/
theorem of?_cons_cons (c d : Char) (rest other : List Char) :
    of? (c :: d :: rest) = of? (c :: d :: other) := by
  by_cases hbang : c = '!'
  · subst hbang
    by_cases hknown : d ∈ ['[', '-', 'D', 'd']
    · simp only [List.mem_cons, List.not_mem_nil, or_false] at hknown
      rcases hknown with rfl | rfl | rfl | rfl <;> rfl
    · have hnone : ∀ more, of? ('!' :: d :: more) = none := by
        intro more
        unfold of?
        split <;> simp_all
      rw [hnone, hnone]
  · unfold of?
    split <;> simp_all

/-- What comes after the closing character plays no part in what kind of markup it is. -/
theorem of?_closed {content after : List Char} {kind : Kind}
    (h : of? (content ++ '>' :: after) = some kind) (other : List Char) :
    of? (content ++ '>' :: other) = some kind := by
  match content with
  | [] => exact h
  | [c] => exact (of?_cons_cons c '>' other after).trans h
  | c :: d :: rest => exact (of?_cons_cons c d (rest ++ '>' :: other) _).trans h

/-- Where a piece of markup ends at a bracket it ends there whatever follows. -/
theorem split_closed {kind : Kind} {content after : List Char}
    (h : kind.split (content ++ '>' :: after) = some (content, after)) (other : List Char) :
    kind.split (content ++ '>' :: other) = some (content, other) := by
  cases kind <;> exact untilClose_closed h other

/-- **Markup that is no comment, instruction and the like is a tag.** -/
theorem of?_eq_startTag_iff {content after : List Char} :
    of? (content ++ '>' :: after) = some .startTag ↔
      ∀ c ∈ content.head?, c ∉ ['!', '?', '/'] := by
  cases content with
  | nil => exact iff_of_true rfl nofun
  | cons c rest =>
    constructor
    · rintro h d hd hmem
      cases hd
      rw [List.cons_append] at h
      unfold of? at h
      split at h <;> simp_all
    · intro h
      have hc := h c rfl
      rw [List.cons_append]
      unfold of?
      split <;> simp_all

end Kind

end AccessRights.Markup
