import AccessRights.Markup.Malformed
import AccessRights.Markup.Reference
import AccessRights.Text.Space
import AccessRights.Text.Utf8

/-!
# Attributes

What follows the name in a tag: keys and quoted values, with white space allowed
before a key and on both sides of the equals sign, and needed nowhere.

`readAttribute` reads one attribute and `readAttributes` all of them, in order, up to
the first that is malformed.  Places are byte offsets in the content of the tag, which
is what stands between its angle brackets.  Since only the rest of the content is at
hand, they are counted from its end: what remains to be read starts at the `size` of
the content less the length of the remainder.

A key that binds a namespace prefix is read and checked like any other, and then
dropped by `attributesOf`; of every other key the part after the prefix is kept.
-/

namespace AccessRights.Markup

open AccessRights.Text

/-- An attribute as it is written: where its key starts, the whole key, and what is
between the quotes. -/
structure RawAttribute where
  offset : Nat
  key : List Char
  value : List Char
  deriving DecidableEq

/-- What continues a key. -/
def isKeyChar (c : Char) : Bool :=
  !isMarkupSpace c && c != '='

/-- Reads the value of an attribute from what follows the equals sign, and gives the
rest after the closing quote. -/
def readValue (size : Nat) (cs : List Char) :
    Except AttributeProblem (List Char × List Char) :=
  match cs.dropWhile isMarkupSpace with
  | [] => .error (.noValue size)
  | q :: body =>
    if q = '"' ∨ q = '\'' then
      match body.dropWhile (· != q) with
      | [] => .error (.unclosedValue size q)
      | _ :: rest => .ok (body.takeWhile (· != q), rest)
    else
      .error (.unquotedValue (size - utf8Length (q :: body)))

/-- Reads the attribute whose key starts with `c`; its first character belongs to the
key whatever it is.  `earlier` holds the attributes read before it in the same tag. -/
def readAttribute (size : Nat) (earlier : List RawAttribute) (c : Char) (cs : List Char) :
    Except AttributeProblem (RawAttribute × List Char) :=
  let offset := size - utf8Length (c :: cs)
  let key := c :: cs.takeWhile isKeyChar
  match (cs.dropWhile isKeyChar).dropWhile isMarkupSpace with
  | '=' :: after =>
    match earlier.find? (·.key == key) with
    | some previous => .error (.duplicate offset previous.offset)
    | none => do
      let (value, rest) ← readValue size after
      pure (⟨offset, key, value⟩, rest)
  | rest => .error (.noEqualsSign (size - utf8Length rest))

/-- A value is not empty, with its quotation marks. -/
theorem length_lt_of_readValue {size : Nat} {cs value rest : List Char}
    (h : readValue size cs = .ok (value, rest)) : rest.length < cs.length := by
  unfold readValue at h
  have hspace := (cs.dropWhile_sublist isMarkupSpace).length_le
  split at h
  · cases h
  · next q body hbody =>
    rw [hbody] at hspace
    have hquote := (body.dropWhile_sublist (· != q)).length_le
    split at h
    · split at h
      · cases h
      · next hrest =>
        cases h
        simp only [hrest, List.length_cons] at hquote hspace
        omega
    · cases h

/-- Reading an attribute moves on, so that all of them are read in the end. -/
theorem length_lt_of_readAttribute {size : Nat} {earlier : List RawAttribute} {c : Char}
    {cs rest : List Char} {found : RawAttribute}
    (h : readAttribute size earlier c cs = .ok (found, rest)) :
    rest.length < (c :: cs).length := by
  unfold readAttribute at h
  have hkey := (cs.dropWhile_sublist isKeyChar).length_le
  have hspace := ((cs.dropWhile isKeyChar).dropWhile_sublist isMarkupSpace).length_le
  dsimp only at h
  split at h
  · next after hafter =>
    rw [hafter] at hspace
    split at h
    · cases h
    · cases hvalue : readValue size after with
      | error problem => simp [hvalue, bind, Except.bind] at h
      | ok read =>
        have := length_lt_of_readValue hvalue
        simp only [hvalue, bind, Except.bind, pure, Except.pure, Except.ok.injEq,
          Prod.mk.injEq] at h
        simp only [List.length_cons] at hspace ⊢
        rw [← h.2]
        omega
  · cases h

/-- Reads the attributes of a tag.  `size` is the length of the whole content of the
tag, `cs` the part of it that is still to be read. -/
def readAttributes (size : Nat) (earlier : List RawAttribute) (cs : List Char) :
    Except AttributeProblem (List RawAttribute) :=
  match _hcs : cs.dropWhile isMarkupSpace with
  | [] => .ok []
  | c :: after =>
    match _h : readAttribute size earlier c after with
    | .error problem => .error problem
    | .ok (found, rest) => (readAttributes size (found :: earlier) rest).map (found :: ·)
termination_by cs.length
decreasing_by
  have := length_lt_of_readAttribute _h
  have := (cs.dropWhile_sublist isMarkupSpace).length_le
  rw [_hcs] at this
  omega

/-- The part of a name after its prefix, which is the part before the first colon. -/
def localName (name : List Char) : List Char :=
  match name.dropWhile (· != ':') with
  | [] => name
  | _ :: rest => rest

/-- The key binds a namespace prefix, or the default namespace. -/
def bindsNamespace (key : List Char) : Bool :=
  key == "xmlns".toList || "xmlns:".toList.isPrefixOf key

/-- The attributes which a tag gives its element: local names and resolved values, in
the order of the tag. -/
def attributesOf (raw : List RawAttribute) : List (String × String) :=
  (raw.filter fun r => !bindsNamespace r.key).map fun r =>
    (String.ofList (localName r.key), resolved r.value)

end AccessRights.Markup
