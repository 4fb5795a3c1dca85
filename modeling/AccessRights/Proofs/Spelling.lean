import AccessRights.Proofs.ElementTrees

/-!
# Tokens that spell content

Building a document takes any tokens.  A strict reader takes balanced ones only: each end
tag names the innermost element that is open, and nothing is left open.  `Spells` is the
grammar of such a reader, which relates tokens to the content they stand for and makes no
use of `Builder`.

Balanced tokens are where the two readers meet.  The builder makes of them the content
that they spell, less the text outside of every element (`Spells.ofTokens_eq`).  As the
builder is a function, this shows too that the grammar is unambiguous (`Spells.unique`).

## What the grammar says of the tokens

An end tag closes the element whose start tag is the last one not closed before it
(`Spells.exists_start_of_stop`), so no end tag closes the document.  Elements come in the
order of the tags that start them (`Spells.map_tag_allElements`).
-/

namespace AccessRights

open AccessRights.Markup

/-! ## Content back to front and without its outer text -/

namespace Content

theorem reverse_reverseOnto (content after : Content) :
    (content.reverseOnto after).reverse = after.reverseOnto content := by
  induction content generalizing after with
  | nil => rfl
  | text value rest ih => exact ih (text value after)
  | element name attributes inner rest _ ih => exact ih (element name attributes inner after)

@[simp] theorem reverse_reverse (content : Content) : content.reverse.reverse = content :=
  reverse_reverseOnto content nil

/-- The elements at the top with all they hold, without the text between them. -/
def withoutOuterText : Content → Content
  | nil => nil
  | text _ rest => rest.withoutOuterText
  | element name attributes inner rest => element name attributes inner rest.withoutOuterText

theorem allElements_withoutOuterText (content : Content) :
    content.withoutOuterText.allElements = content.allElements := by
  induction content with
  | nil => rfl
  | text value rest ih => exact ih
  | element name attributes inner rest _ ihrest =>
    rw [withoutOuterText, allElements, allElements, ihrest]

theorem elementsFrom_withoutOuterText (k : Nat) (content : Content) :
    content.withoutOuterText.elementsFrom k = content.elementsFrom k := by
  induction content generalizing k with
  | nil => rfl
  | text value rest ih => exact ih k
  | element name attributes inner rest _ ihrest =>
    rw [withoutOuterText, elementsFrom, elementsFrom, ihrest]

theorem nodesFrom_withoutOuterText (k : Nat) (content : Content) :
    content.withoutOuterText.nodesFrom k = content.nodesFrom k := by
  induction content generalizing k with
  | nil => rfl
  | text value rest ih => exact ih k
  | element name attributes inner rest _ ihrest =>
    rw [withoutOuterText, nodesFrom, nodesFrom, ihrest]

end Content

/-! ## The grammar -/

namespace Markup.Token

/-- The token is an end tag. -/
def isStop : Token → Bool
  | stop _ => true
  | _ => false

/-- The name and the attributes of the element that the token starts, if any. -/
def opening? : Token → Option (String × List (String × String))
  | start name attributes => some (name, attributes)
  | empty name attributes => some (name, attributes)
  | _ => none

/-- An end tag starts nothing. -/
theorem opening?_of_isStop {token : Token} (h : token.isStop = true) : token.opening? = none := by
  cases token with
  | stop name => rfl
  | start name attributes => cases h
  | empty name attributes => cases h
  | text value => cases h

/-- End tags apart, the same tokens start the same elements. -/
theorem filterMap_opening?_of_filter_eq {tokens tokens' : List Token}
    (h : tokens.filter (!·.isStop) = tokens'.filter (!·.isStop)) :
    tokens.filterMap opening? = tokens'.filterMap opening? := by
  have hdrop : ∀ all : List Token,
      (all.filter (!·.isStop)).filterMap opening? = all.filterMap opening? := by
    intro all
    rw [List.filterMap_filter]
    refine List.filterMap_congr fun token _ => ?_
    cases hstop : token.isStop with
    | true => simpa using (opening?_of_isStop hstop).symm
    | false => rfl
  rw [← hdrop tokens, h, hdrop]

end Markup.Token

/-- The tokens are balanced and stand for the content: every end tag names the innermost
element that is open, and every element is closed. -/
inductive Spells : List Token → Content → Prop
  | nil : Spells [] .nil
  | text {tokens : List Token} {rest : Content} (value : String) :
    Spells tokens rest → Spells (.text value :: tokens) (.text value rest)
  | empty {tokens : List Token} {rest : Content} (name : String)
    (attributes : List (String × String)) :
    Spells tokens rest → Spells (.empty name attributes :: tokens)
      (.element name attributes .nil rest)
  | element {inside tokens : List Token} {inner rest : Content} (name : String)
    (attributes : List (String × String)) :
    Spells inside inner → Spells tokens rest →
      Spells (.start name attributes :: (inside ++ .stop name :: tokens))
        (.element name attributes inner rest)

/-- The tokens are those of a strict reader. -/
def Balanced (tokens : List Token) : Prop :=
  ∃ content, Spells tokens content

namespace Balanced

theorem nil : Balanced [] :=
  ⟨_, .nil⟩

/-- An element goes in front of balanced tokens. -/
theorem element {inside tokens : List Token} (name : String)
    (attributes : List (String × String)) (hinside : Balanced inside) (h : Balanced tokens) :
    Balanced (.start name attributes :: (inside ++ .stop name :: tokens)) := by
  obtain ⟨inner, hinner⟩ := hinside
  obtain ⟨rest, hrest⟩ := h
  exact ⟨_, .element name attributes hinner hrest⟩

/-- So does a token that opens and closes nothing. -/
theorem cons {token : Token} {tokens : List Token}
    (hstart : ∀ name attributes, token ≠ .start name attributes) (hstop : token.isStop = false)
    (h : Balanced tokens) : Balanced (token :: tokens) := by
  obtain ⟨rest, hrest⟩ := h
  cases token with
  | start name attributes => exact absurd rfl (hstart name attributes)
  | empty name attributes => exact ⟨_, .empty name attributes hrest⟩
  | text value => exact ⟨_, .text value hrest⟩
  | stop name => cases hstop

end Balanced

namespace Spells

variable {tokens : List Token} {content : Content}

/-- **An end tag closes the innermost element that is open**, which has its name: what stands
between the two tags of an element is balanced. -/
theorem exists_start_of_stop (h : Spells tokens content) {before after : List Token}
    {name : String} (hsplit : tokens = before ++ .stop name :: after) :
    ∃ earlier attributes inside,
      before = earlier ++ .start name attributes :: inside ∧ Balanced inside := by
  induction h generalizing before after with
  | nil => cases before <;> cases hsplit
  | text value _ ih | empty tag values _ ih =>
    cases before with
    | nil => cases hsplit
    | cons token before =>
      obtain ⟨rfl, hrest⟩ := List.cons.inj hsplit
      obtain ⟨earlier, attributes, inside, rfl, hinside⟩ := ih hrest
      exact ⟨_ :: earlier, attributes, inside, rfl, hinside⟩
  | @element inside tokens inner rest tag values hinside _ ihinside ihrest =>
    cases before with
    | nil => cases hsplit
    | cons token before =>
      obtain ⟨rfl, hrest⟩ := List.cons.inj hsplit
      -- The end tag is inside the element, the one that closes it, or after it.
      rcases List.append_eq_append_iff.mp hrest with
        ⟨between, hbefore, hstop⟩ | ⟨between, hin, hstop⟩
      · cases between with
        | nil =>
          cases (List.cons.inj hstop).1
          exact ⟨[], values, inside, by rw [hbefore, List.append_nil]; rfl, inner, hinside⟩
        | cons stop between =>
          obtain ⟨rfl, htail⟩ := List.cons.inj hstop
          obtain ⟨earlier, attributes, closed, rfl, hclosed⟩ := ihrest htail
          exact ⟨.start tag values :: (inside ++ .stop tag :: earlier), attributes, closed,
            by rw [hbefore]; simp, hclosed⟩
      · cases between with
        | nil =>
          cases (List.cons.inj hstop).1
          exact ⟨[], values, inside, by rw [hin, List.append_nil]; rfl, inner, hinside⟩
        | cons stop between =>
          obtain ⟨rfl, -⟩ := List.cons.inj hstop
          obtain ⟨earlier, attributes, closed, rfl, hclosed⟩ := ihinside hin
          exact ⟨.start tag values :: earlier, attributes, closed, rfl, hclosed⟩

/-- **Elements come in the order of the tags that start them.** -/
theorem map_tag_allElements (h : Spells tokens content) :
    (content.allElements.map fun element => (element.name, element.attributes)) =
      tokens.filterMap Token.opening? := by
  induction h with
  | nil => rfl
  | text value _ ih => exact ih
  | empty name attributes _ ih => exact congrArg ((name, attributes) :: ·) ih
  | @element inside tokens _ _ name attributes _ _ ihinside ihrest =>
    rw [Content.allElements, List.map_cons, List.map_append, ihinside, ihrest]
    show _ = (name, attributes) :: (inside ++ .stop name :: tokens).filterMap Token.opening?
    rw [List.filterMap_append, List.filterMap_cons_none rfl]

end Spells

/-! ## The builder on balanced tokens -/

namespace Builder

theorem closeAll_closeThrough (stop : String) (opened : List OpenElement) (done : Content) :
    closeAll (closeThrough stop opened done).opened (closeThrough stop opened done).done =
      closeAll opened done := by
  induction opened generalizing done with
  | nil => rfl
  | cons element outer ih =>
    rw [closeThrough]
    split
    · rfl
    · exact ih (closed element done)

/-- An end tag at the end closes nothing that would not be closed anyway. -/
theorem finish_push_stop (builder : Builder) (stop : String) :
    (builder.push (.stop stop)).finish = builder.finish := by
  rw [push]
  split
  · exact closeAll_closeThrough stop builder.opened builder.done
  · rfl

/-- The end tag of the innermost element closes it alone. -/
theorem push_stop_innermost (element : OpenElement) (outer : List OpenElement)
    (done : Content) :
    (⟨element :: outer, done⟩ : Builder).push (.stop element.name) =
      ⟨outer, closed element done⟩ := by
  rw [push, if_pos (by simp), closeThrough, if_pos rfl]

end Builder

namespace Spells

variable {tokens : List Token} {content : Content}

/-- Inside an element everything that is spelled is taken in. -/
theorem foldl_push_inside (h : Spells tokens content) (element : OpenElement)
    (outer : List OpenElement) (done : Content) :
    tokens.foldl Builder.push ⟨element :: outer, done⟩ =
      ⟨element :: outer, content.reverseOnto done⟩ := by
  induction h generalizing element outer done with
  | nil => rfl
  | text value _ ih => exact ih element outer (.text value done)
  | empty name attributes _ ih => exact ih element outer (.element name attributes .nil done)
  | @element inside tokens inner rest name attributes _ _ ihinside ihrest =>
    rw [List.foldl_cons, List.foldl_append, Builder.push, ihinside, List.foldl_cons,
      Builder.push_stop_innermost ⟨name, attributes, done⟩, ihrest, Builder.closed]
    show _ = Builder.mk _ (rest.reverseOnto (.element name attributes inner done))
    rw [← Content.reverse, Content.reverse_reverse]

/-- Outside of every element the text is dropped. -/
theorem foldl_push_outside (h : Spells tokens content) (done : Content) :
    tokens.foldl Builder.push ⟨[], done⟩ = ⟨[], content.withoutOuterText.reverseOnto done⟩ := by
  induction h generalizing done with
  | nil => rfl
  | text value _ ih => exact ih done
  | empty name attributes _ ih => exact ih (.element name attributes .nil done)
  | @element inside tokens inner rest name attributes hinside _ _ ihrest =>
    rw [List.foldl_cons, List.foldl_append, Builder.push, hinside.foldl_push_inside,
      List.foldl_cons, Builder.push_stop_innermost ⟨name, attributes, done⟩, ihrest, Builder.closed]
    show _ = Builder.mk _ (rest.withoutOuterText.reverseOnto (.element name attributes inner done))
    rw [← Content.reverse, Content.reverse_reverse]

/-- **The builder makes of balanced tokens what they spell.** -/
theorem ofTokens_eq (h : Spells tokens content) :
    Content.ofTokens tokens = content.withoutOuterText := by
  rw [Content.ofTokens, Builder.start, h.foldl_push_outside]
  exact Content.reverse_reverse _

/-- **The grammar is unambiguous.**  The builder, inside some element, finds the content. -/
theorem unique {other : Content} (h : Spells tokens content) (hother : Spells tokens other) :
    content = other := by
  have hsame := (h.foldl_push_inside ⟨"", [], .nil⟩ [] .nil).symm.trans
    (hother.foldl_push_inside ⟨"", [], .nil⟩ [] .nil)
  have hreverse : content.reverse = other.reverse := congrArg Builder.done hsame
  rw [← content.reverse_reverse, hreverse, Content.reverse_reverse]

end Spells

end AccessRights
