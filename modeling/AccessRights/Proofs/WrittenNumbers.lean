import AccessRights.Calendar.Timestamp
import Mathlib.Data.List.Induction
import Mathlib.Data.Nat.Digits.Defs

/-!
# Numbers in writing

What the readers of fields make of the digits of a number.  `Timestamp.padded` writes a
number with zeros in front, and it is the list of its last digits that connects this with the
readers (`padded_eq`): a reader takes digits from the front, the digits of a number are split
off at the end, and `numberOfDigits_lastDigits` and `lastDigits_numberOfDigits` say that the two
directions meet.

Digits are elements of `Fin 10` here, so that every list of them is a number in writing and
no law needs to ask what a digit is.  With it `takeDigits_append` holds for all texts that
follow: what is read of these is simply added.
-/

namespace AccessRights.Calendar

open AccessRights.Text Timestamp

/-! ## Digits -/

/-- Digits in writing. -/
def digitText (digits : List (Fin 10)) : List Char :=
  digits.map fun digit => Nat.digitChar digit.val

/-- The last digits of a number, `width` of them. -/
def lastDigits : Nat → Nat → List (Fin 10)
  | 0, _ => []
  | width + 1, n => lastDigits width (n / 10) ++ [Fin.ofNat 10 n]

/-- A digit in writing is read as itself. -/
theorem decimalDigit?_digitChar (digit : Fin 10) :
    decimalDigit? (Nat.digitChar digit) = some digit.val := by
  revert digit
  decide

/-- A digit in writing is none of the characters that are not digits. -/
theorem digitChar_ne {c : Char} (h : decimalDigit? c = none) (digit : Fin 10) :
    Nat.digitChar digit ≠ c := by
  rintro rfl
  rw [decimalDigit?_digitChar] at h
  cases h

theorem isUnicodeSpace_digitChar (digit : Fin 10) :
    isUnicodeSpace (Nat.digitChar digit) = false := by
  revert digit
  decide

theorem utf8Size_digitChar (digit : Fin 10) : (Nat.digitChar digit).utf8Size = 1 := by
  revert digit
  decide

/-- Later digits have later characters. -/
theorem digitChar_lt_digitChar {a b : Fin 10} : Nat.digitChar a < Nat.digitChar b ↔ a < b := by
  revert a b
  decide

/-- Every character that is a digit is one in writing. -/
theorem exists_eq_digitChar {c : Char} (h : c.isDigit = true) :
    ∃ digit : Fin 10, c = Nat.digitChar digit := by
  rw [Char.isDigit, Bool.and_eq_true, decide_eq_true_iff, decide_eq_true_iff] at h
  obtain ⟨hleast, hgreatest⟩ := h
  have hleast : 48 ≤ c.toNat := hleast
  have hgreatest : c.toNat ≤ 57 := hgreatest
  have hlt : c.toNat - 48 < 10 := by omega
  refine ⟨⟨c.toNat - 48, hlt⟩, Char.toNat_inj.mp ?_⟩
  rw [Nat.toNat_digitChar_of_lt_ten hlt]
  omega

@[simp] theorem digitText_append (digits more : List (Fin 10)) :
    digitText (digits ++ more) = digitText digits ++ digitText more :=
  List.map_append

/-- Digits take a byte each. -/
theorem utf8Length_digitText (digits : List (Fin 10)) :
    utf8Length (digitText digits) = digits.length := by
  induction digits with
  | nil => rfl
  | cons digit digits ih =>
    show (Nat.digitChar digit).utf8Size + utf8Length (digitText digits) = digits.length + 1
    rw [utf8Size_digitChar, ih, Nat.add_comm]

theorem isUnicodeSpace_of_mem_digitText {c : Char} {digits : List (Fin 10)}
    (h : c ∈ digitText digits) : isUnicodeSpace c = false := by
  obtain ⟨digit, -, rfl⟩ := List.mem_map.mp h
  exact isUnicodeSpace_digitChar digit

/-! ## The number of a list of digits -/

/-- The number that digits denote. -/
def numberOfDigits (digits : List (Fin 10)) : Nat :=
  FieldReader.numberOf (digits.map Fin.val)

/-- One more digit at the end counts for one, and all before it for ten times as much. -/
theorem numberOfDigits_append_singleton (digits : List (Fin 10)) (last : Fin 10) :
    numberOfDigits (digits ++ [last]) = 10 * numberOfDigits digits + last := by
  unfold numberOfDigits FieldReader.numberOf
  rw [List.map_append, List.foldl_append]
  rfl

@[simp] theorem length_lastDigits (width n : Nat) : (lastDigits width n).length = width := by
  induction width generalizing n with
  | zero => rfl
  | succ width ih => rw [lastDigits, List.length_append, ih, List.length_singleton]

theorem lastDigits_ne_nil {width : Nat} (h : 0 < width) (n : Nat) : lastDigits width n ≠ [] := by
  rw [ne_eq, ← List.length_eq_zero_iff, length_lastDigits]
  exact Nat.ne_of_gt h

theorem div_ten_lt {width n : Nat} (h : n < 10 ^ (width + 1)) : n / 10 < 10 ^ width := by
  rw [Nat.pow_succ, Nat.mul_comm] at h
  exact Nat.div_lt_of_lt_mul h

/-- A number is that of its digits, if there are not too many. -/
theorem numberOfDigits_lastDigits {width n : Nat} (h : n < 10 ^ width) :
    numberOfDigits (lastDigits width n) = n := by
  induction width generalizing n with
  | zero =>
    rw [Nat.pow_zero, Nat.lt_one_iff] at h
    rw [h]
    rfl
  | succ width ih =>
    rw [lastDigits, numberOfDigits_append_singleton, ih (div_ten_lt h), Fin.val_ofNat]
    exact Nat.div_add_mod n 10

/-- The number is the one that the library assigns to the digits from the last one on. -/
theorem numberOfDigits_eq_ofDigits (digits : List (Fin 10)) :
    numberOfDigits digits = Nat.ofDigits 10 (digits.map Fin.val).reverse := by
  induction digits using List.reverseRecOn with
  | nil => rfl
  | append_singleton digits last ih =>
    rw [numberOfDigits_append_singleton, ih, List.map_append, List.reverse_append]
    show _ = Nat.ofDigits 10 (last.val :: (digits.map Fin.val).reverse)
    rw [Nat.ofDigits_cons, Nat.add_comm]

/-- So many digits make up no greater number. -/
theorem numberOfDigits_lt (digits : List (Fin 10)) :
    numberOfDigits digits < 10 ^ digits.length := by
  induction digits using List.reverseRecOn with
  | nil => exact Nat.one_pos
  | append_singleton digits last ih =>
    rw [numberOfDigits_append_singleton, List.length_append, List.length_singleton, Nat.pow_succ]
    have hlast := last.isLt
    omega

/-- Digits are those of their number. -/
theorem lastDigits_numberOfDigits (digits : List (Fin 10)) :
    lastDigits digits.length (numberOfDigits digits) = digits := by
  induction digits using List.reverseRecOn with
  | nil => rfl
  | append_singleton digits last ih =>
    have hlast := last.isLt
    have htenth : (10 * numberOfDigits digits + last) / 10 = numberOfDigits digits := by omega
    have hdigit : Fin.ofNat 10 (10 * numberOfDigits digits + last) = last := by
      apply Fin.ext
      rw [Fin.val_ofNat]
      omega
    rw [numberOfDigits_append_singleton, List.length_append, List.length_singleton, lastDigits,
      htenth, ih, hdigit]

/-! ## Numbers with zeros in front -/

/-- The last digit of a number stands at the end of it. -/
theorem padded_succ {width : Nat} (n : Nat) (h : 0 < width) :
    padded (width + 1) n = padded width (n / 10) ++ [Nat.digitChar (n % 10)] := by
  unfold padded
  by_cases hsmall : n < 10
  · have hwidth : width + 1 - 1 = width - 1 + 1 := by omega
    rw [Nat.toDigits_of_lt_base hsmall, Nat.div_eq_of_lt hsmall, Nat.mod_eq_of_lt hsmall]
    show List.replicate (width + 1 - 1) '0' ++ [Nat.digitChar n] =
      List.replicate (width - 1) '0' ++ ['0'] ++ [Nat.digitChar n]
    rw [hwidth, List.replicate_succ']
  · rw [Nat.toDigits_of_base_le (by decide) (Nat.le_of_not_lt hsmall)]
    show List.replicate (width + 1 - (_ ++ [_]).length) '0' ++ (_ ++ [_]) = _
    rw [List.length_append, List.length_singleton, Nat.add_sub_add_right, List.append_assoc]

/-- **A number with zeros in front is the list of its last digits.** -/
theorem padded_eq {width n : Nat} (hwidth : 0 < width) (h : n < 10 ^ width) :
    padded width n = digitText (lastDigits width n) := by
  induction width generalizing n with
  | zero => cases hwidth
  | succ width ih =>
    rcases Nat.eq_zero_or_pos width with rfl | hpos
    · have hdigit : (Fin.ofNat 10 n).val = n := by
        rw [Fin.val_ofNat]
        exact Nat.mod_eq_of_lt h
      unfold padded
      rw [Nat.toDigits_of_lt_base (Nat.pow_one 10 ▸ h)]
      show [Nat.digitChar n] = [Nat.digitChar (Fin.ofNat 10 n).val]
      rw [hdigit]
    · rw [padded_succ n hpos, ih hpos (div_ten_lt h), lastDigits, digitText_append]
      rfl

/-- A number that is not too great is written in the width that is asked for. -/
theorem length_padded {width n : Nat} (hwidth : 0 < width) (h : n < 10 ^ width) :
    (padded width n).length = width := by
  rw [padded_eq hwidth h, digitText, List.length_map, length_lastDigits]

/-- Digits are their number, written as wide as they are. -/
theorem digitText_eq_padded {digits : List (Fin 10)} (h : 0 < digits.length) :
    digitText digits = padded digits.length (numberOfDigits digits) := by
  rw [padded_eq h (numberOfDigits_lt digits), lastDigits_numberOfDigits]

/-- Lists that begin alike in length are compared in front first. -/
theorem append_lt_append_iff {front front' back back' : List Char}
    (h : front.length = front'.length) :
    front ++ back < front' ++ back' ↔ front < front' ∨ front = front' ∧ back < back' := by
  induction front generalizing front' with
  | nil =>
    rw [List.length_nil] at h
    rw [List.length_eq_zero_iff.mp h.symm]
    simp
  | cons c front ih =>
    cases front' with
    | nil => cases h
    | cons c' front' =>
      rw [List.cons_append, List.cons_append, List.cons_lt_cons_iff, List.cons_lt_cons_iff,
        ih (Nat.succ.inj h), List.cons.injEq]
      tauto

/-- **Numbers of one width are in the order of their texts.** -/
theorem padded_lt_padded_iff {width m n : Nat} (hwidth : 0 < width) (hm : m < 10 ^ width)
    (hn : n < 10 ^ width) : padded width m < padded width n ↔ m < n := by
  rw [padded_eq hwidth hm, padded_eq hwidth hn]
  clear hwidth
  induction width generalizing m n with
  | zero =>
    rw [Nat.pow_zero, Nat.lt_one_iff] at hm hn
    rw [hm, hn]
    exact iff_of_false (List.lt_irrefl _) (Nat.lt_irrefl 0)
  | succ width ih =>
    have hlower := ih (div_ten_lt hm) (div_ten_lt hn)
    have hupper := ih (div_ten_lt hn) (div_ten_lt hm)
    have hsame : digitText (lastDigits width (m / 10)) = digitText (lastDigits width (n / 10)) ↔
        m / 10 = n / 10 := by
      constructor
      · -- Neither of two equal texts comes before the other, and so neither number does.
        intro heq
        rw [heq] at hlower hupper
        have hnot := List.lt_irrefl (digitText (lastDigits width (n / 10)))
        exact Nat.le_antisymm (Nat.le_of_not_lt (mt hupper.mpr hnot))
          (Nat.le_of_not_lt (mt hlower.mpr hnot))
      · intro heq
        rw [heq]
    have hlast : digitText [Fin.ofNat 10 m] < digitText [Fin.ofNat 10 n] ↔ m % 10 < n % 10 := by
      show [Nat.digitChar _] < [Nat.digitChar _] ↔ _
      rw [List.cons_lt_cons_iff, digitChar_lt_digitChar, Fin.lt_def, Fin.val_ofNat, Fin.val_ofNat]
      exact or_iff_left fun h => List.lt_irrefl [] h.2
    have hlength : (digitText (lastDigits width (m / 10))).length =
        (digitText (lastDigits width (n / 10))).length := by
      rw [digitText, digitText, List.length_map, List.length_map, length_lastDigits,
        length_lastDigits]
    rw [lastDigits, lastDigits, digitText_append, digitText_append, append_lt_append_iff hlength,
      hlower, hsame, hlast]
    omega

/-- A written number starts with a digit. -/
theorem exists_padded_eq_cons {width n : Nat} (hwidth : 0 < width) (h : n < 10 ^ width) :
    ∃ (first : Fin 10) (digits : List Char), padded width n = Nat.digitChar first :: digits := by
  obtain ⟨first, digits, hdigits⟩ := List.exists_cons_of_ne_nil (lastDigits_ne_nil hwidth n)
  rw [padded_eq hwidth h, hdigits]
  exact ⟨first, digitText digits, rfl⟩

/-! ## Reading numbers -/

namespace FieldReader

section Sequence

variable {α β : Type} {reader : FieldReader α} {cs rest : List Char} {a : α} {failure : Failure}

/-- A reader that succeeds hands on the value and the rest. -/
theorem bind_of_ok (h : reader cs = .ok (a, rest)) (next : α → FieldReader β) :
    (reader >>= next) cs = next a rest := by
  show (reader cs >>= fun result => next result.1 result.2) = next a rest
  rw [h]
  rfl

/-- A reader that fails ends it all. -/
theorem bind_of_error (h : reader cs = .error failure) (next : α → FieldReader β) :
    (reader >>= next) cs = .error failure := by
  show (reader cs >>= fun result => next result.1 result.2) = .error failure
  rw [h]
  rfl

/-- A check at the end of one reader decides about all that comes after it. -/
theorem bind_of_ite {condition : Prop} [Decidable condition]
    (h : reader cs = if condition then .ok (a, rest) else .error failure)
    (next : α → FieldReader β) :
    (reader >>= next) cs = if condition then next a rest else .error failure := by
  split_ifs at h ⊢
  · exact bind_of_ok h next
  · exact bind_of_error h next

end Sequence

theorem oneOf_cons (accepted : Char → Bool) (c : Char) (rest : List Char) :
    oneOf accepted (c :: rest) =
      if accepted c then .ok ((), rest) else .error .otherForm := by
  show require (accepted c) rest = _
  unfold require
  split <;> rfl

theorem within_eq (condition : Bool) (cs : List Char) :
    within condition cs = if condition then .ok ((), cs) else .error .outOfRange := by
  unfold within
  split <;> rfl

/-- Nothing may be left at the end. -/
theorem finish_eq (cs : List Char) :
    finish cs = if cs = [] then .ok ((), []) else .error .otherForm := by
  cases cs <;> rfl

theorem digit_digitChar (digit : Fin 10) (rest : List Char) :
    FieldReader.digit (Nat.digitChar digit :: rest) = .ok (digit.val, rest) := by
  have hnext : next (Nat.digitChar digit :: rest) = .ok (Nat.digitChar digit, rest) := rfl
  rw [FieldReader.digit, bind_of_ok hnext, decimalDigit?_digitChar]
  rfl

/-- As many digits as fit are taken, and the limit for what follows is what they leave. -/
theorem takeDigits_append (digits : List (Fin 10)) (more : Nat) (rest : List Char) :
    takeDigits (digits.length + more) (digitText digits ++ rest) =
      (digits.map Fin.val ++ (takeDigits more rest).1, (takeDigits more rest).2) := by
  induction digits with
  | nil => rw [List.length_nil, Nat.zero_add]; rfl
  | cons digit digits ih =>
    have hlength : (digit :: digits).length + more = digits.length + more + 1 := by
      rw [List.length_cons]
      omega
    rw [hlength]
    show takeDigits (digits.length + more + 1)
      (Nat.digitChar digit :: (digitText digits ++ rest)) = _
    rw [takeDigits, decimalDigit?_digitChar]
    simp only [ih]
    rfl

/-- Where no digit stands in front none is taken. -/
theorem takeDigits_eq_nil (most : Nat) {cs : List Char}
    (h : ∀ c ∈ cs.head?, decimalDigit? c = none) : takeDigits most cs = ([], cs) := by
  cases most with
  | zero => rw [takeDigits]
  | succ most =>
    cases cs with
    | nil => rfl
    | cons c rest => rw [takeDigits, h c rfl]

theorem twoDigits_digitText (tens ones : Fin 10) (rest : List Char) :
    twoDigits (digitText [tens, ones] ++ rest) = .ok (10 * tens + ones, rest) := by
  show twoDigits (Nat.digitChar tens :: Nat.digitChar ones :: rest) = _
  rw [twoDigits, bind_of_ok (digit_digitChar tens _), bind_of_ok (digit_digitChar ones _)]
  rfl

section Padded

variable {width n : Nat} (rest : List Char)

/-- A reader of numbers takes the whole of a number that is as long as it allows. -/
theorem number_padded (hwidth : 0 < width) (h : n < 10 ^ width) :
    number width (padded width n ++ rest) = .ok (n, rest) := by
  have htake : takeDigits width (padded width n ++ rest) =
      ((lastDigits width n).map Fin.val, rest) := by
    have hall := takeDigits_append (lastDigits width n) 0 rest
    rw [length_lastDigits, Nat.add_zero, takeDigits, List.append_nil] at hall
    rw [padded_eq hwidth h, hall]
  have hne : (lastDigits width n).map Fin.val ≠ [] :=
    mt List.map_eq_nil_iff.mp (lastDigits_ne_nil hwidth n)
  rw [number, htake]
  split
  · next heq => exact absurd (Prod.mk.inj heq).1 hne
  · next digits _ _ heq =>
    obtain ⟨rfl, rfl⟩ := Prod.mk.inj heq
    show Except.ok (numberOfDigits (lastDigits width n), rest) = .ok (n, rest)
    rw [numberOfDigits_lastDigits h]

/-- Numbers below a hundred are read from two digits. -/
theorem twoDigits_padded (h : n < 100) : twoDigits (padded 2 n ++ rest) = .ok (n, rest) := by
  have hvalue : 10 * (n / 10 % 10) + n % 10 = n := by omega
  rw [padded_eq (by decide) h]
  show twoDigits (digitText [Fin.ofNat 10 (n / 10), Fin.ofNat 10 n] ++ rest) = _
  rw [twoDigits_digitText, Fin.val_ofNat, Fin.val_ofNat, hvalue]

/-- And numbers below ten thousand from four. -/
theorem fourDigits_padded (h : n < 10000) : fourDigits (padded 4 n ++ rest) = .ok (n, rest) := by
  have hvalue : 100 * (10 * (n / 10 / 10 / 10 % 10) + n / 10 / 10 % 10) +
      (10 * (n / 10 % 10) + n % 10) = n := by omega
  rw [padded_eq (by decide) h]
  show fourDigits (digitText [Fin.ofNat 10 (n / 10 / 10 / 10), Fin.ofNat 10 (n / 10 / 10)] ++
    (digitText [Fin.ofNat 10 (n / 10), Fin.ofNat 10 n] ++ rest)) = _
  rw [fourDigits, bind_of_ok (twoDigits_digitText _ _ _), bind_of_ok (twoDigits_digitText _ _ _)]
  simp only [Fin.val_ofNat, hvalue]
  rfl

/-- There is no white space to pass over in front of a number. -/
theorem skipSpace_padded (hwidth : 0 < width) (h : n < 10 ^ width) :
    skipSpace (padded width n ++ rest) = .ok ((), padded width n ++ rest) := by
  obtain ⟨first, digits, hdigits⟩ := exists_padded_eq_cons hwidth h
  rw [hdigits, skipSpace, List.cons_append,
    List.dropWhile_cons_of_neg (by rw [isUnicodeSpace_digitChar]; exact Bool.false_ne_true)]

end Padded

end FieldReader

/-! ## The fraction of a second -/

/-- A fraction in writing: nothing, or a point and digits. -/
def fractionText : List (Fin 10) → List Char
  | [] => []
  | first :: digits => '.' :: digitText (first :: digits)

namespace FieldReader

/-- Zeros at the end count for ten times as much each. -/
theorem numberOf_append_zeros (digits : List Nat) (count : Nat) :
    numberOf (digits ++ List.replicate count 0) = numberOf digits * 10 ^ count := by
  induction count with
  | zero => simp
  | succ count ih =>
    rw [List.replicate_succ', ← List.append_assoc, numberOf, List.foldl_append]
    show 10 * numberOf (digits ++ List.replicate count 0) + 0 = _
    rw [ih, Nat.pow_succ]
    ring

/-- A fraction of up to nine digits is filled up with zeros to nanoseconds. -/
theorem nanosOf_eq {digits : List (Fin 10)} (h : digits.length ≤ 9) :
    nanosOf (digits.map Fin.val) = numberOfDigits digits * 10 ^ (9 - digits.length) := by
  have hzeros : List.replicate 9 0 =
      List.replicate (9 - digits.length) 0 ++ List.replicate digits.length 0 := by
    rw [List.replicate_append_replicate, Nat.sub_add_cancel h]
  have hlength : (digits.map Fin.val ++ List.replicate (9 - digits.length) 0).length = 9 := by
    rw [List.length_append, List.length_map, List.length_replicate, Nat.add_sub_of_le h]
  rw [nanosOf, hzeros, ← List.append_assoc, List.take_left' hlength, numberOf_append_zeros]
  rfl

/-- A fraction is read to its end, unless the text goes on as a fraction does. -/
theorem fraction_fractionText (digits : List (Fin 10)) {rest : List Char}
    (h : ∀ c ∈ rest.head?, c ≠ '.' ∧ decimalDigit? c = none) :
    fraction (fractionText digits ++ rest) = .ok (nanosOf (digits.map Fin.val), rest) := by
  cases digits with
  | nil =>
    show fraction rest = .ok (0, rest)
    unfold fraction
    split
    · next rest => exact absurd rfl (h '.' rfl).1
    · rfl
  | cons first digits =>
    have htake := takeDigits_append (first :: digits) rest.length rest
    rw [takeDigits_eq_nil _ fun c hc => (h c hc).2, List.append_nil] at htake
    have hlength : (digitText (first :: digits) ++ rest).length =
        (first :: digits).length + rest.length := by
      rw [List.length_append, digitText, List.length_map]
    show fraction ('.' :: (digitText (first :: digits) ++ rest)) = _
    rw [fraction, hlength, htake]
    rfl

end FieldReader

end AccessRights.Calendar
