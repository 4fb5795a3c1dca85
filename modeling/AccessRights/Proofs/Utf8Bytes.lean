import AccessRights.Text.Utf8
import Mathlib.Tactic.SplitIfs

/-!
# The bytes of a text

Places in a text are counted in bytes of UTF-8 (`Text.utf8Length`), and names are said to be
in the order of their bytes.  `utf8Bytes` has the bytes themselves, so that either can be
checked on them.

* A text takes as many bytes as its places count (`length_utf8Bytes`), and the byte after a
  front part is the first one of what follows (`getElem?_utf8Bytes_append`).
* Texts are in the order of their bytes exactly if they are in the order of their code points
  (`utf8Bytes_lt_iff`), which is the order of `String`.

The second law is a property of the encoding.  The first byte of a character says how many
bytes it has and increases with that number, and all bytes hold the digits of the code point,
the most significant ones first.  So two characters are told apart within the shorter one of
their encodings, and what comes after them is of no importance
(`utf8EncodeChar_append_lt`).
-/

namespace AccessRights.Text

/-- The bytes of a text in UTF-8. -/
def utf8Bytes (text : String) : List UInt8 :=
  text.toUTF8.data.toList

/-- The bytes of a text are those of its characters, one after the other. -/
theorem utf8Bytes_eq_flatMap (text : String) :
    utf8Bytes text = text.toList.flatMap String.utf8EncodeChar := by
  rw [utf8Bytes, String.toUTF8_eq_toByteArray, ← String.utf8Encode_toList, List.utf8Encode,
    List.data_toByteArray]

theorem utf8Bytes_append (front back : String) :
    utf8Bytes (front ++ back) = utf8Bytes front ++ utf8Bytes back := by
  rw [utf8Bytes_eq_flatMap, String.toList_append, List.flatMap_append, ← utf8Bytes_eq_flatMap,
    ← utf8Bytes_eq_flatMap]

/-- **Places count bytes.** -/
theorem length_utf8Bytes (text : String) : (utf8Bytes text).length = text.utf8ByteSize := by
  rw [utf8Bytes, Array.length_toList, String.toUTF8_eq_toByteArray]
  rfl

/-- The byte after a front part is the first byte of the rest. -/
theorem getElem?_utf8Bytes_append (front back : String) :
    (utf8Bytes (front ++ back))[front.utf8ByteSize]? = (utf8Bytes back).head? := by
  rw [utf8Bytes_append, ← length_utf8Bytes, List.getElem?_append_right (Nat.le_refl _),
    Nat.sub_self, List.head?_eq_getElem?]

/-! ## The order of bytes -/

/-- The code points end below this number. -/
theorem code_lt (c : Char) : c.val.toNat < 0x110000 := by
  rcases c.valid with h | h <;> omega

/-- **The smaller of two characters has the smaller bytes**, whatever follows them. -/
theorem utf8EncodeChar_append_lt {c d : Char} (h : c < d) (more others : List UInt8) :
    String.utf8EncodeChar c ++ more < String.utf8EncodeChar d ++ others := by
  have hlt : c.val.toNat < d.val.toNat := h
  have hc := code_lt c
  have hd := code_lt d
  unfold String.utf8EncodeChar
  dsimp only
  generalize c.val.toNat = m at *
  generalize d.val.toNat = n at *
  -- Written with single digits to the base 64, no division is lost to another one.
  have hthree : ∀ code, code / 0x40000 = code / 0x40 / 0x40 / 0x40 := by omega
  have htwo : ∀ code, code / 0x1000 = code / 0x40 / 0x40 := by omega
  -- One to four bytes on either side: in each case it is a matter of the digits.
  split_ifs
  all_goals
    simp only [List.cons_append, List.nil_append, List.cons_lt_cons_iff, UInt8.lt_iff_toNat_lt,
      ← UInt8.toNat_inj, UInt8.toNat_ofNat', Nat.reducePow, hthree, htwo]
    simp (disch := omega) only [Nat.mod_eq_of_lt]
    omega

/-- **The text that comes first has the bytes that come first.** -/
theorem flatMap_utf8EncodeChar_lt {cs ds : List Char} (h : cs < ds) :
    cs.flatMap String.utf8EncodeChar < ds.flatMap String.utf8EncodeChar := by
  induction cs generalizing ds with
  | nil =>
    cases ds with
    | nil => exact absurd h (List.lt_irrefl _)
    | cons d ds =>
      have hne : String.utf8EncodeChar d ≠ [] := String.utf8EncodeChar_ne_nil
      obtain ⟨byte, bytes, hbytes⟩ := List.exists_cons_of_ne_nil hne
      rw [List.flatMap_nil, List.flatMap_cons, hbytes]
      exact List.nil_lt_cons _ _
  | cons c cs ih =>
    cases ds with
    | nil => exact absurd h (List.not_lt_nil _)
    | cons d ds =>
      rw [List.flatMap_cons, List.flatMap_cons]
      rcases List.cons_lt_cons_iff.mp h with hlt | ⟨rfl, hlt⟩
      · exact utf8EncodeChar_append_lt hlt _ _
      · exact List.append_left_lt (ih hlt)

/-- **Texts in the order of their code points are in the order of their bytes**, and the other
way round. -/
theorem utf8Bytes_lt_iff {text other : String} :
    utf8Bytes text < utf8Bytes other ↔ text < other := by
  have hforward : ∀ {text other : String}, text < other → utf8Bytes text < utf8Bytes other := by
    intro text other h
    rw [utf8Bytes_eq_flatMap, utf8Bytes_eq_flatMap]
    exact flatMap_utf8EncodeChar_lt h
  constructor
  · intro h
    rcases Std.lt_trichotomy text other with hlt | rfl | hlt
    · exact hlt
    · exact absurd h (List.lt_irrefl _)
    · exact absurd (hforward hlt) (List.lt_asymm h)
  · exact hforward

end AccessRights.Text
