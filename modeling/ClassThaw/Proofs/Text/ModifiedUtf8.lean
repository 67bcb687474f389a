import ClassThaw.Text.ModifiedUtf8
import Mathlib.Algebra.Ring.Nat

namespace ClassThaw.ModifiedUtf8

variable {read : List UInt16} {rest : Bytes}

section sequences

/-- The low six bits of a byte that continues a sequence. -/
theorem continuation_facts : ∀ low < 64, isContinuation (UInt8.ofNat (0x80 + low)) = true ∧
    (UInt8.ofNat (0x80 + low)).toUInt16 &&& 0x3F = UInt16.ofNat low := by
  decide

theorem lead_one_facts : ∀ value < 0x80, (UInt8.ofNat value &&& 0x80 == 0) = true ∧
    (UInt8.ofNat value).toUInt16 = UInt16.ofNat value := by
  decide

theorem lead_two_facts : ∀ high < 32, (UInt8.ofNat (0xC0 + high) &&& 0x80 == 0) = false ∧
    (UInt8.ofNat (0xC0 + high) &&& 0xE0 == 0xC0) = true ∧
    (UInt8.ofNat (0xC0 + high)).toUInt16 &&& 0x1F = UInt16.ofNat high := by
  decide

theorem lead_three_facts : ∀ high < 16, (UInt8.ofNat (0xE0 + high) &&& 0x80 == 0) = false ∧
    (UInt8.ofNat (0xE0 + high) &&& 0xE0 == 0xC0) = false ∧
    (UInt8.ofNat (0xE0 + high) &&& 0xF0 == 0xE0) = true ∧
    (UInt8.ofNat (0xE0 + high)).toUInt16 &&& 0x0F = UInt16.ofNat high := by
  decide

/-- The byte starts no sequence of one, two or three bytes. -/
def StartsNone (lead : UInt8) : Prop :=
  (lead &&& 0x80 == 0) = false ∧ (lead &&& 0xE0 == 0xC0) = false ∧ (lead &&& 0xF0 == 0xE0) = false

theorem startsNone_continuation : ∀ low < 64, StartsNone (UInt8.ofNat (0x80 + low)) := by
  unfold StartsNone
  decide

theorem startsNone_lead_four : ∀ high < 8, StartsNone (UInt8.ofNat (0xF0 + high)) := by
  unfold StartsNone
  decide

theorem toNat_ofNat {value : Nat} (hvalue : value < 0x10000) :
    (UInt16.ofNat value).toNat = value :=
  UInt16.toNat_ofNat_of_lt hvalue

/-- Bits that are put below others are added to them. -/
theorem join {shift high low : Nat} (hshift : shift < 16) (hlow : low < 2 ^ shift)
    (hfits : high * 2 ^ shift + low < 0x10000) :
    (UInt16.ofNat high <<< UInt16.ofNat shift) ||| UInt16.ofNat low =
      UInt16.ofNat (high * 2 ^ shift + low) := by
  have hpos : 0 < 2 ^ shift := Nat.two_pow_pos shift
  have hhigh : high ≤ high * 2 ^ shift := Nat.le_mul_of_pos_right high hpos
  have hshifted : high <<< shift = high * 2 ^ shift := Nat.shiftLeft_eq high shift
  apply UInt16.toNat_inj.mp
  rw [UInt16.toNat_or, UInt16.toNat_shiftLeft, toNat_ofNat hfits, toNat_ofNat (by omega),
    toNat_ofNat (by omega), toNat_ofNat (by omega), Nat.mod_eq_of_lt hshift, hshifted,
    Nat.mod_eq_of_lt (by omega), ← hshifted, Nat.shiftLeft_add_eq_or_of_lt hlow]

theorem join_six {high low : Nat} (hhigh : high < 0x400) (hlow : low < 64) :
    (UInt16.ofNat high <<< 6) ||| UInt16.ofNat low = UInt16.ofNat (high * 64 + low) := by
  have hfits : high * 2 ^ 6 + low < 0x10000 := by omega
  exact @join 6 high low (by decide) hlow hfits

theorem join_twelve {high low : Nat} (hhigh : high < 16) (hlow : low < 0x1000) :
    (UInt16.ofNat high <<< 12) ||| UInt16.ofNat low = UInt16.ofNat (high * 4096 + low) := by
  have hfits : high * 2 ^ 12 + low < 0x10000 := by omega
  exact @join 12 high low (by decide) hlow hfits

theorem unitsOnto_one {value : Nat} (hvalue : value < 0x80) :
    unitsOnto read (UInt8.ofNat value :: rest) = unitsOnto (UInt16.ofNat value :: read) rest := by
  obtain ⟨hone, hbits⟩ := lead_one_facts value hvalue
  rw [unitsOnto.eq_def]
  simp only [hone, if_true, hbits]

theorem unitsOnto_two {high low : Nat} (hhigh : high < 32) (hlow : low < 64) :
    unitsOnto read (UInt8.ofNat (0xC0 + high) :: UInt8.ofNat (0x80 + low) :: rest) =
      unitsOnto (UInt16.ofNat (high * 64 + low) :: read) rest := by
  obtain ⟨hone, htwo, hhighBits⟩ := lead_two_facts high hhigh
  obtain ⟨hcontinues, hlowBits⟩ := continuation_facts low hlow
  have hunit : unitOfTwo (UInt8.ofNat (0xC0 + high)) (UInt8.ofNat (0x80 + low)) =
      UInt16.ofNat (high * 64 + low) := by
    rw [unitOfTwo, if_pos hcontinues, hhighBits, hlowBits, join_six (by omega) hlow]
  rw [unitsOnto.eq_def]
  simp only [hone, htwo, if_true, Bool.false_eq_true, if_false, hunit]

theorem unitsOnto_three {high middle low : Nat} (hhigh : high < 16) (hmiddle : middle < 64)
    (hlow : low < 64) :
    unitsOnto read (UInt8.ofNat (0xE0 + high) :: UInt8.ofNat (0x80 + middle) ::
        UInt8.ofNat (0x80 + low) :: rest) =
      unitsOnto (UInt16.ofNat (high * 4096 + (middle * 64 + low)) :: read) rest := by
  obtain ⟨hone, htwo, hthree, hhighBits⟩ := lead_three_facts high hhigh
  obtain ⟨hcontinues, hmiddleBits⟩ := continuation_facts middle hmiddle
  obtain ⟨hcontinues', hlowBits⟩ := continuation_facts low hlow
  have hunit : unitOfThree (UInt8.ofNat (0xE0 + high)) (UInt8.ofNat (0x80 + middle))
      (UInt8.ofNat (0x80 + low)) = UInt16.ofNat (high * 4096 + (middle * 64 + low)) := by
    have hboth := Bool.and_eq_true_iff.mpr ⟨hcontinues, hcontinues'⟩
    rw [unitOfThree, if_pos hboth, hhighBits, hmiddleBits, hlowBits, UInt16.or_assoc,
      join_six (by omega) hlow, join_twelve hhigh (by omega)]
  rw [unitsOnto.eq_def]
  simp only [hone, htwo, hthree, if_true, Bool.false_eq_true, if_false, hunit]

theorem unitsOnto_none {lead : UInt8} (h : StartsNone lead) :
    unitsOnto read (lead :: rest) = unitsOnto (replacementUnit :: read) rest := by
  obtain ⟨hone, htwo, hthree⟩ := h
  rw [unitsOnto.eq_def]
  simp only [hone, htwo, hthree, Bool.false_eq_true, if_false]

/-- A sequence of four bytes is replaced byte by byte. -/
theorem unitsOnto_four {first second third fourth : Nat} (hfirst : first < 8)
    (hsecond : second < 64) (hthird : third < 64) (hfourth : fourth < 64) :
    unitsOnto read (UInt8.ofNat (0xF0 + first) :: UInt8.ofNat (0x80 + second) ::
        UInt8.ofNat (0x80 + third) :: UInt8.ofNat (0x80 + fourth) :: rest) =
      unitsOnto (List.replicate 4 replacementUnit ++ read) rest := by
  rw [unitsOnto_none (startsNone_lead_four first hfirst),
    unitsOnto_none (startsNone_continuation second hsecond),
    unitsOnto_none (startsNone_continuation third hthird),
    unitsOnto_none (startsNone_continuation fourth hfourth)]
  rfl

/-- A code unit is written in the digits to the base 64 of its number. -/
theorem encodeUnit_eq (unit : UInt16) : encodeUnit unit =
    if 0 < unit.toNat ∧ unit.toNat < 0x80 then [UInt8.ofNat unit.toNat]
    else if unit.toNat < 0x800 then
      [UInt8.ofNat (0xC0 + unit.toNat / 64), UInt8.ofNat (0x80 + unit.toNat % 64)]
    else
      [UInt8.ofNat (0xE0 + unit.toNat / 4096), UInt8.ofNat (0x80 + unit.toNat / 64 % 64),
        UInt8.ofNat (0x80 + unit.toNat % 64)] := by
  have hlow (number : UInt16) : (number &&& 0x3F).toUInt8 = UInt8.ofNat (number.toNat % 64) := by
    apply UInt8.toNat_inj.mp
    have hmask : number.toNat &&& 63 = number.toNat % 64 :=
      Nat.and_two_pow_sub_one_eq_mod number.toNat 6
    rw [UInt16.toNat_toUInt8, UInt16.toNat_and, UInt8.toNat_ofNat']
    change (number.toNat &&& 63) % 256 = _
    rw [hmask]
  have hsix : (unit >>> 6).toNat = unit.toNat / 64 := by
    rw [UInt16.toNat_shiftRight]
    exact Nat.shiftRight_eq_div_pow unit.toNat 6
  have htwelve : (unit >>> 12).toNat = unit.toNat / 4096 := by
    rw [UInt16.toNat_shiftRight]
    exact Nat.shiftRight_eq_div_pow unit.toNat 12
  have hnarrow (number : UInt16) : number.toUInt8 = UInt8.ofNat number.toNat := rfl
  have hcontinue : ∀ low < 64, (0x80 : UInt8) ||| UInt8.ofNat low = UInt8.ofNat (0x80 + low) := by
    decide
  have hleadTwo : ∀ high < 32, (0xC0 : UInt8) ||| UInt8.ofNat high = UInt8.ofNat (0xC0 + high) := by
    decide
  have hleadThree : ∀ high < 16,
      (0xE0 : UInt8) ||| UInt8.ofNat high = UInt8.ofNat (0xE0 + high) := by
    decide
  have hlt := unit.toNat_lt
  unfold encodeUnit
  simp only [UInt16.lt_iff_toNat_lt]
  change (if 0 < unit.toNat ∧ unit.toNat < 0x80 then _ else if unit.toNat < 0x800 then _ else _) = _
  split
  · rfl
  · split
    · rw [hlow, hnarrow, hsix, hleadTwo _ (by omega), hcontinue _ (by omega)]
    · rw [hlow, hlow, hnarrow, hsix, htwelve, hleadThree _ (by omega), hcontinue _ (by omega),
        hcontinue _ (by omega)]

theorem unitsOnto_encodeUnit (unit : UInt16) :
    unitsOnto read (encodeUnit unit ++ rest) = unitsOnto (unit :: read) rest := by
  have hlt := unit.toNat_lt
  have hunit : UInt16.ofNat unit.toNat = unit := UInt16.ofNat_toNat
  rw [encodeUnit_eq]
  split
  case isTrue hone =>
    rw [List.singleton_append, unitsOnto_one hone.2, hunit]
  case isFalse =>
    split
    case isTrue htwo =>
      have hsum : unit.toNat / 64 * 64 + unit.toNat % 64 = unit.toNat := by omega
      rw [List.cons_append, List.singleton_append, unitsOnto_two (by omega) (by omega), hsum, hunit]
    case isFalse =>
      have hsum : unit.toNat / 4096 * 4096 + (unit.toNat / 64 % 64 * 64 + unit.toNat % 64) =
          unit.toNat := by omega
      rw [List.cons_append, List.cons_append, List.singleton_append,
        unitsOnto_three (by omega) (by omega) (by omega), hsum, hunit]

/-- Other than NUL, a character below U+10000 is written as in standard UTF-8. -/
theorem utf8EncodeChar_eq {char : Char} (hzero : char.toNat ≠ 0) (hchar : char.toNat < 0x10000) :
    String.utf8EncodeChar char = encodeUnit (UInt16.ofNat char.toNat) := by
  have hvalue : char.toNat = char.val.toNat := rfl
  rw [encodeUnit_eq, toNat_ofNat hchar, hvalue]
  rw [hvalue] at hzero hchar
  unfold String.utf8EncodeChar
  by_cases hone : char.val.toNat ≤ 0x7F
  · have hone' : 0 < char.val.toNat ∧ char.val.toNat < 0x80 := by omega
    simp only [hone, hone', if_true, and_self]
  · have hone' : ¬ (0 < char.val.toNat ∧ char.val.toNat < 0x80) := by omega
    by_cases htwo : char.val.toNat ≤ 0x7FF
    · have htwo' : char.val.toNat < 0x800 := by omega
      have hhigh : char.val.toNat / 64 % 32 = char.val.toNat / 64 := by omega
      simp only [hone, hone', htwo, htwo', if_true, if_false, hhigh, Nat.add_comm]
    · have htwo' : ¬ char.val.toNat < 0x800 := by omega
      have hthree : char.val.toNat ≤ 0xFFFF := by omega
      have hhigh : char.val.toNat / 4096 % 16 = char.val.toNat / 4096 := by omega
      simp only [hone, hone', htwo, htwo', hthree, if_true, if_false, hhigh, Nat.add_comm]

/-- Standard UTF-8 writes a character below U+10000 in a sequence that is read as its one unit. -/
theorem unitsOnto_utf8EncodeChar {char : Char} (hchar : char.toNat < 0x10000) :
    unitsOnto read (String.utf8EncodeChar char ++ rest) =
      unitsOnto (UInt16.ofNat char.toNat :: read) rest := by
  by_cases hzero : char.toNat = 0
  · -- NUL has a form of its own, but its one byte is read in the same way.
    obtain rfl : char = '\x00' := by rw [← Char.ofNat_toNat char, hzero]
    exact unitsOnto_one (by decide)
  · rw [utf8EncodeChar_eq hzero hchar, unitsOnto_encodeUnit]

theorem unitsOnto_utf8EncodeChar_of_le {char : Char} (hchar : 0x10000 ≤ char.toNat) :
    unitsOnto read (String.utf8EncodeChar char ++ rest) =
      unitsOnto (List.replicate 4 replacementUnit ++ read) rest := by
  change 0x10000 ≤ char.val.toNat at hchar
  have hone : ¬ char.val.toNat ≤ 0x7F := by omega
  have htwo : ¬ char.val.toNat ≤ 0x7FF := by omega
  have hthree : ¬ char.val.toNat ≤ 0xFFFF := by omega
  unfold String.utf8EncodeChar
  simp only [hone, htwo, hthree, if_false]
  rw [Nat.add_comm _ 0xF0, Nat.add_comm _ 0x80, Nat.add_comm _ 0x80, Nat.add_comm _ 0x80]
  exact unitsOnto_four (by omega) (by omega) (by omega) (by omega)

end sequences

/-- What has been read before stays behind what is read now. -/
theorem unitsOnto_append (read earlier : List UInt16) (bytes : Bytes) :
    unitsOnto (read ++ earlier) bytes = unitsOnto read bytes ++ earlier := by
  fun_induction unitsOnto read bytes
  case case1 => rfl
  all_goals
    rw [unitsOnto.eq_def]
    simp_all

/-- Sequences of characters, each read as certain units, are read as all these units. -/
theorem units_flatMap_append {α : Type} {spell : α → Bytes} {unitsOf : α → List UInt16}
    {items : List α} (h : ∀ item ∈ items, ∀ (read : List UInt16) (rest : Bytes),
      unitsOnto read (spell item ++ rest) = unitsOnto ((unitsOf item).reverse ++ read) rest)
    (rest : Bytes) : units (items.flatMap spell ++ rest) = items.flatMap unitsOf ++ units rest := by
  have hitems (read : List UInt16) : unitsOnto read (items.flatMap spell ++ rest) =
      unitsOnto ((items.flatMap unitsOf).reverse ++ read) rest := by
    induction items generalizing read with
    | nil => rfl
    | cons item items ih =>
      obtain ⟨hitem, hitems⟩ := List.forall_mem_cons.mp h
      rw [List.flatMap_cons, List.append_assoc, hitem, ih hitems, List.flatMap_cons,
        List.reverse_append, List.append_assoc]
  have hrest : unitsOnto (items.flatMap unitsOf).reverse rest =
      unitsOnto [] rest ++ (items.flatMap unitsOf).reverse := unitsOnto_append [] _ rest
  rw [units, hitems, List.append_nil, hrest, List.reverse_append, List.reverse_reverse, units]

theorem units_flatMap_encodeUnit (sequence : List UInt16) :
    units (sequence.flatMap encodeUnit) = sequence := by
  have h := @units_flatMap_append UInt16 encodeUnit (fun unit => [unit]) sequence
    (fun unit _ _ _ => unitsOnto_encodeUnit unit) []
  have hnil : units [] = [] := rfl
  rw [List.append_nil, List.flatMap_singleton', hnil, List.append_nil] at h
  exact h

section characters

variable {chars : List Char}

/-- The numbers of characters leave out those of surrogates. -/
theorem toNat_cases (char : Char) :
    char.toNat < 0xD800 ∨ 0xDFFF < char.toNat ∧ char.toNat < 0x110000 :=
  char.valid

theorem ofUnit_of_char {char : Char} (hchar : char.toNat < 0x10000) :
    isHighSurrogate (UInt16.ofNat char.toNat) = false ∧
      ofUnit (UInt16.ofNat char.toNat) = char := by
  have hvalid := toNat_cases char
  have hnumber : (UInt16.ofNat char.toNat).toNat = char.toNat := toNat_ofNat hchar
  have hhigh : isHighSurrogate (UInt16.ofNat char.toNat) = false := by
    simp only [isHighSurrogate, Bool.and_eq_false_iff, decide_eq_false_iff_not,
      UInt16.le_iff_toNat_le, UInt16.lt_iff_toNat_lt, hnumber]
    change ¬ 0xD800 ≤ char.toNat ∨ ¬ char.toNat < 0xDC00
    omega
  have hlow : isLowSurrogate (UInt16.ofNat char.toNat) = false := by
    simp only [isLowSurrogate, Bool.and_eq_false_iff, decide_eq_false_iff_not,
      UInt16.le_iff_toNat_le, UInt16.lt_iff_toNat_lt, hnumber]
    change ¬ 0xDC00 ≤ char.toNat ∨ ¬ char.toNat < 0xE000
    omega
  refine ⟨hhigh, ?_⟩
  rw [ofUnit, hhigh, hlow, Bool.or_self, if_neg Bool.false_ne_true, hnumber, Char.ofNat_toNat]

/-- The two surrogates of a character above U+FFFF make up that character again. -/
theorem ofSurrogates_of_char {char : Char} (hchar : 0x10000 ≤ char.toNat) :
    let high := UInt16.ofNat (0xD800 + (char.toNat - 0x10000) / 0x400)
    let low := UInt16.ofNat (0xDC00 + (char.toNat - 0x10000) % 0x400)
    isHighSurrogate high = true ∧ isLowSurrogate low = true ∧ ofSurrogates high low = char := by
  intro high low
  have hvalid := toNat_cases char
  have hhigh : high.toNat = 0xD800 + (char.toNat - 0x10000) / 0x400 := toNat_ofNat (by omega)
  have hlow : low.toNat = 0xDC00 + (char.toNat - 0x10000) % 0x400 := toNat_ofNat (by omega)
  refine ⟨?_, ?_, ?_⟩
  · simp only [isHighSurrogate, Bool.and_eq_true, decide_eq_true_eq, UInt16.le_iff_toNat_le,
      UInt16.lt_iff_toNat_lt]
    change 0xD800 ≤ high.toNat ∧ high.toNat < 0xDC00
    omega
  · simp only [isLowSurrogate, Bool.and_eq_true, decide_eq_true_eq, UInt16.le_iff_toNat_le,
      UInt16.lt_iff_toNat_lt]
    change 0xDC00 ≤ low.toNat ∧ low.toNat < 0xE000
    omega
  · have hsum : 0x10000 + (high.toNat - 0xD800) * 0x400 + (low.toNat - 0xDC00) = char.toNat := by
      omega
    rw [ofSurrogates, hsum, Char.ofNat_toNat]

theorem ofUnitsOnto_charUnits (char : Char) (read : List Char) (rest : List UInt16) :
    ofUnitsOnto read (charUnits char ++ rest) = ofUnitsOnto (char :: read) rest := by
  by_cases hchar : char.toNat < 0x10000
  · have hunits : charUnits char = [UInt16.ofNat char.toNat] := if_pos hchar
    obtain ⟨hhigh, hunit⟩ := ofUnit_of_char hchar
    rw [hunits]
    cases rest with
    | nil => simp only [List.append_nil, ofUnitsOnto, hunit]
    | cons next rest =>
      rw [List.singleton_append, ofUnitsOnto, hhigh, Bool.false_and, if_neg Bool.false_ne_true,
        hunit]
  · have hunits : charUnits char = [UInt16.ofNat (0xD800 + (char.toNat - 0x10000) / 0x400),
        UInt16.ofNat (0xDC00 + (char.toNat - 0x10000) % 0x400)] := if_neg hchar
    obtain ⟨hhigh, hlow, hboth⟩ := ofSurrogates_of_char (Nat.not_lt.mp hchar)
    rw [hunits, List.cons_append, List.singleton_append, ofUnitsOnto, hhigh, hlow, Bool.and_self,
      if_pos rfl, hboth]

theorem ofUnitsOnto_append (read earlier : List Char) (sequence : List UInt16) :
    ofUnitsOnto (read ++ earlier) sequence = ofUnitsOnto read sequence ++ earlier := by
  fun_induction ofUnitsOnto read sequence <;> grind [ofUnitsOnto]

theorem ofUnits_flatMap_append (chars : List Char) (rest : List UInt16) :
    ofUnits (chars.flatMap charUnits ++ rest) = chars ++ ofUnits rest := by
  have h (read : List Char) : ofUnitsOnto read (chars.flatMap charUnits ++ rest) =
      ofUnitsOnto (chars.reverse ++ read) rest := by
    induction chars generalizing read with
    | nil => rfl
    | cons char chars ih =>
      rw [List.flatMap_cons, List.append_assoc, ofUnitsOnto_charUnits, ih, List.reverse_cons,
        List.append_assoc, List.singleton_append]
  have hrest : ofUnitsOnto chars.reverse rest = ofUnitsOnto [] rest ++ chars.reverse :=
    ofUnitsOnto_append [] _ rest
  rw [ofUnits, h, List.append_nil, hrest, List.reverse_append, List.reverse_reverse, ofUnits]

theorem ofUnits_flatMap_charUnits (chars : List Char) :
    ofUnits (chars.flatMap charUnits) = chars := by
  have h := ofUnits_flatMap_append chars []
  have hnil : ofUnits [] = [] := rfl
  rw [List.append_nil, hnil, List.append_nil] at h
  exact h

/-- The stored form of a character. -/
def encodeChar (char : Char) : Bytes := (charUnits char).flatMap encodeUnit

theorem encodeChar_of_lt {char : Char} (hchar : char.toNat < 0x10000) :
    encodeChar char = encodeUnit (UInt16.ofNat char.toNat) := by
  have hunits : charUnits char = [UInt16.ofNat char.toNat] := if_pos hchar
  rw [encodeChar, hunits, List.flatMap_singleton]

/-- A text is stored character by character. Where no character needs a special form, taking the
text as it is in standard UTF-8 comes to the same. -/
theorem encode_eq_flatMap (text : String) : encode text = text.toList.flatMap encodeChar := by
  unfold encode
  split
  case isFalse => rfl
  case isTrue hshared =>
    have hstored : text.toUTF8.data.toList = text.toList.flatMap String.utf8EncodeChar := by
      rw [String.toUTF8_eq_toByteArray, ← String.utf8Encode_toList]
      exact List.toList_data_toByteArray
    rw [hstored, List.flatMap_def, List.flatMap_def]
    congr 1
    apply List.map_congr_left
    intro char hmem
    have hchar := List.all_eq_true.mp hshared char hmem
    simp only [isShared, Bool.and_eq_true, decide_eq_true_eq] at hchar
    have hzero : char.toNat ≠ 0 := by
      intro hzero
      apply hchar.1
      rw [← Char.ofNat_toNat char, hzero]
    rw [encodeChar_of_lt hchar.2, utf8EncodeChar_eq hzero hchar.2]

/-- Unit by unit, any text is read back. -/
theorem decodeUnits_encode (text : String) : decodeUnits (encode text) = text := by
  have hunits : text.toList.flatMap encodeChar =
      (text.toList.flatMap charUnits).flatMap encodeUnit :=
    List.flatMap_assoc.symm
  rw [encode_eq_flatMap, decodeUnits, hunits, units_flatMap_encodeUnit, ofUnits_flatMap_charUnits,
    String.ofList_toList]

/-- What standard UTF-8 writes for a character, read unit by unit. -/
def unitwise (char : Char) : List Char :=
  if char.toNat < 0x10000 then [char] else List.replicate 4 replacement

theorem unitsOnto_unitwise (char : Char) (read : List UInt16) (rest : Bytes) :
    unitsOnto read (String.utf8EncodeChar char ++ rest) =
      unitsOnto (((unitwise char).flatMap charUnits).reverse ++ read) rest := by
  by_cases hchar : char.toNat < 0x10000
  · have hunits : charUnits char = [UInt16.ofNat char.toNat] := if_pos hchar
    rw [unitsOnto_utf8EncodeChar hchar, unitwise, if_pos hchar, List.flatMap_singleton, hunits]
    rfl
  · rw [unitsOnto_utf8EncodeChar_of_le (Nat.not_lt.mp hchar), unitwise, if_neg hchar]
    rfl

/-- Unit by unit, a text in standard UTF-8 is read apart from what stands behind it. -/
theorem decodeUnits_utf8_append (text : String) (rest : Bytes) :
    decodeUnits (text.toList.flatMap String.utf8EncodeChar ++ rest) =
      String.ofList (text.toList.flatMap unitwise) ++ decodeUnits rest := by
  have hunits := @units_flatMap_append Char String.utf8EncodeChar
    (fun char => (unitwise char).flatMap charUnits) text.toList
    (fun char _ => unitsOnto_unitwise char) rest
  rw [← List.flatMap_assoc] at hunits
  rw [decodeUnits, hunits, ofUnits_flatMap_append, String.ofList_append, decodeUnits]

theorem flatMap_unitwise (h : ∀ char ∈ chars, char.toNat < 0x10000) :
    chars.flatMap unitwise = chars := by
  induction chars with
  | nil => rfl
  | cons char chars ih =>
    obtain ⟨hchar, hchars⟩ := List.forall_mem_cons.mp h
    rw [List.flatMap_cons, unitwise, if_pos hchar, ih hchars, List.singleton_append]

/-- Unit by unit, standard UTF-8 is read correctly up to U+FFFF. -/
theorem decodeUnits_utf8 {text : String} (htext : ∀ char ∈ text.toList, char.toNat < 0x10000) :
    decodeUnits (text.toList.flatMap String.utf8EncodeChar) = text := by
  have h := decodeUnits_utf8_append text []
  have hnil : decodeUnits [] = "" := rfl
  rw [List.append_nil, flatMap_unitwise htext, String.ofList_toList, hnil, String.append_empty] at h
  exact h

end characters

section standard

/-- Standard UTF-8 accepts the bytes that it would write for a text, and no others. -/
theorem standard?_eq_some_iff {bytes : Bytes} {text : String} :
    standard? bytes = some text ↔ text.toList.flatMap String.utf8EncodeChar = bytes := by
  have hstored : text.toByteArray = (text.toList.flatMap String.utf8EncodeChar).toByteArray :=
    String.utf8Encode_toList.symm
  have hbytes : (⟨bytes.toArray⟩ : ByteArray) = bytes.toByteArray :=
    ByteArray.ext List.data_toByteArray.symm
  rw [standard?, hbytes, ← List.toByteArray_inj, ← hstored, String.fromUTF8?]
  constructor
  · intro h
    split at h
    · rw [← Option.some.inj h]
      rfl
    · cases h
  · intro h
    -- The bytes of a text are always well formed.
    have hvalid : bytes.toByteArray.IsValidUTF8 := h ▸ text.isValidUTF8
    rw [dif_pos hvalid, Option.some.injEq, ← String.toByteArray_inj, h]
    rfl

theorem encodeUnit_lt (unit : UInt16) : ∀ byte ∈ encodeUnit unit, byte < 0xF0 := by
  -- Every byte that is written is a small number, a lead of two or three, or continues one.
  have hone : ∀ value < 0x80, UInt8.ofNat value < 0xF0 := by decide
  have hcontinue : ∀ low < 64, UInt8.ofNat (0x80 + low) < 0xF0 := by decide
  have htwo : ∀ high < 32, UInt8.ofNat (0xC0 + high) < 0xF0 := by decide
  have hthree : ∀ high < 16, UInt8.ofNat (0xE0 + high) < 0xF0 := by decide
  have hlt := unit.toNat_lt
  rw [encodeUnit_eq]
  split
  case isTrue hsmall => exact List.forall_mem_singleton.mpr (hone _ hsmall.2)
  case isFalse =>
    split
    case isTrue hmiddle =>
      exact List.forall_mem_cons.mpr ⟨htwo _ (by omega),
        List.forall_mem_singleton.mpr (hcontinue _ (by omega))⟩
    case isFalse =>
      exact List.forall_mem_cons.mpr ⟨hthree _ (by omega), List.forall_mem_cons.mpr
        ⟨hcontinue _ (by omega), List.forall_mem_singleton.mpr (hcontinue _ (by omega))⟩⟩

/-- Standard UTF-8 starts a character above U+FFFF with a byte that modified UTF-8 never writes. -/
theorem toNat_lt_of_utf8 {char : Char}
    (h : ∀ byte ∈ String.utf8EncodeChar char, byte < 0xF0) : char.toNat < 0x10000 := by
  apply Nat.not_le.mp
  intro hlarge
  have hvalid := toNat_cases char
  change 0x10000 ≤ char.val.toNat at hlarge
  change char.val.toNat < 0xD800 ∨ 0xDFFF < char.val.toNat ∧ char.val.toNat < 0x110000 at hvalid
  have hone : ¬ char.val.toNat ≤ 0x7F := by omega
  have htwo : ¬ char.val.toNat ≤ 0x7FF := by omega
  have hthree : ¬ char.val.toNat ≤ 0xFFFF := by omega
  -- What is left is a sequence of four bytes, whose first one is too large.
  have hlead : ∀ high < 8, ¬ UInt8.ofNat (high + 0xF0) < 0xF0 := by decide
  apply hlead (char.val.toNat / 262144 % 8) (by omega)
  apply h
  unfold String.utf8EncodeChar
  simp only [hone, htwo, hthree, if_false]
  exact List.mem_cons_self

theorem encode_lt (text : String) : ∀ byte ∈ encode text, byte < 0xF0 := by
  intro byte hbyte
  rw [encode_eq_flatMap] at hbyte
  obtain ⟨char, -, hchar⟩ := List.mem_flatMap.mp hbyte
  obtain ⟨unit, -, hunit⟩ := List.mem_flatMap.mp hchar
  exact encodeUnit_lt unit byte hunit

/-- A stored text reads as the text that was stored. -/
theorem decode_encode (text : String) : decode (encode text) = text := by
  have hunits := decodeUnits_encode text
  rw [decode]
  -- If standard UTF-8 accepts the bytes as well, it agrees with what they spell unit by unit.
  cases hstandard : standard? (encode text) with
  | none => exact hunits
  | some found =>
    have hfound := standard?_eq_some_iff.mp hstandard
    -- Such bytes have no sequences of four bytes, so the text that they spell has no surrogates.
    have hsmall (char : Char) (hchar : char ∈ found.toList) : char.toNat < 0x10000 := by
      apply toNat_lt_of_utf8
      intro byte hbyte
      have hmem : byte ∈ found.toList.flatMap String.utf8EncodeChar :=
        List.mem_flatMap.mpr ⟨char, hchar, hbyte⟩
      rw [hfound] at hmem
      exact encode_lt text byte hmem
    have hagree := decodeUnits_utf8 hsmall
    rw [hfound, hunits] at hagree
    exact hagree.symm

end standard

/-- The bytes that are stored for the text that some bytes are read as. -/
def restored (bytes : Bytes) : Bytes := encode (decode bytes)

theorem restored_eq_self_iff {bytes : Bytes} :
    restored bytes = bytes ↔ ∃ text, encode text = bytes := by
  constructor
  · intro h
    exact ⟨decode bytes, h⟩
  · rintro ⟨text, rfl⟩
    rw [restored, decode_encode]

end ClassThaw.ModifiedUtf8
