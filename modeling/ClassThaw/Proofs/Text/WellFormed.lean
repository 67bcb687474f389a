import ClassThaw.Proofs.Text.ModifiedUtf8

namespace ClassThaw.ModifiedUtf8

/-- The byte can stand behind the first one of a sequence. -/
def Continues (byte : UInt8) : Prop := 0x80 ≤ byte ∧ byte ≤ 0xBF

/-- The bytes are the shortest form of one character. -/
inductive IsSequence : Bytes → Prop
  | one {a : UInt8} : 0x01 ≤ a → a ≤ 0x7F → IsSequence [a]
  | zero : IsSequence [0xC0, 0x80]
  | two {a b : UInt8} : 0xC2 ≤ a → a ≤ 0xDF → Continues b → IsSequence [a, b]
  -- `E0` must not start what two bytes can hold, and `ED` no surrogate.
  | three {a b c : UInt8} : 0xE0 ≤ a → a ≤ 0xEF → Continues b → Continues c →
      (a = 0xE0 → 0xA0 ≤ b) → (a = 0xED → b ≤ 0x9F) → IsSequence [a, b, c]
  -- A high surrogate and a low one.
  | pair {b c b' c' : UInt8} : 0xA0 ≤ b → b ≤ 0xAF → Continues c →
      0xB0 ≤ b' → b' ≤ 0xBF → Continues c' → IsSequence [0xED, b, c, 0xED, b', c']

/-- The bytes are one shortest form after the other. -/
inductive IsWellFormed : Bytes → Prop
  | nil : IsWellFormed []
  | append {front rest : Bytes} : IsSequence front → IsWellFormed rest →
      IsWellFormed (front ++ rest)

section sequences

variable {value : Nat}

theorem encodeUnit_one (hpos : 0 < value) (hlt : value < 0x80) :
    encodeUnit (UInt16.ofNat value) = [UInt8.ofNat value] := by
  rw [encodeUnit_eq, toNat_ofNat (by omega), if_pos ⟨hpos, hlt⟩]

theorem encodeUnit_two (hlarge : value = 0 ∨ 0x80 ≤ value) (hlt : value < 0x800) :
    encodeUnit (UInt16.ofNat value) =
      [UInt8.ofNat (0xC0 + value / 64), UInt8.ofNat (0x80 + value % 64)] := by
  rw [encodeUnit_eq, toNat_ofNat (by omega), if_neg (by omega), if_pos hlt]

theorem encodeUnit_three (hlarge : 0x800 ≤ value) (hlt : value < 0x10000) :
    encodeUnit (UInt16.ofNat value) = [UInt8.ofNat (0xE0 + value / 4096),
      UInt8.ofNat (0x80 + value / 64 % 64), UInt8.ofNat (0x80 + value % 64)] := by
  rw [encodeUnit_eq, toNat_ofNat hlt, if_neg (by omega), if_neg (by omega)]

theorem ofNat_eq {byte : UInt8} (h : value = byte.toNat) : UInt8.ofNat value = byte := by
  rw [h, UInt8.ofNat_toNat]

/-- Every number outside the range of surrogates belongs to a character. -/
theorem exists_char (h : value < 0xD800 ∨ 0xDFFF < value ∧ value < 0x110000) :
    ∃ char : Char, char.toNat = value := by
  have hvalid : value.isValidChar := h
  refine ⟨Char.ofNat value, ?_⟩
  rw [Char.ofNat, dif_pos hvalid]
  rfl

/-- A code unit that is no surrogate is a character of its own. -/
theorem exists_encodeChar_eq_encodeUnit (h : value < 0xD800 ∨ 0xDFFF < value)
    (hlt : value < 0x10000) : ∃ char, encodeChar char = encodeUnit (UInt16.ofNat value) := by
  obtain ⟨char, rfl⟩ := @exists_char value (by omega)
  exact ⟨char, encodeChar_of_lt hlt⟩

/-- A high surrogate and a low one make up a character. -/
theorem exists_encodeChar_eq_pair {high low : Nat} (hhigh : high < 0x400) (hlow : low < 0x400) :
    ∃ char, encodeChar char =
      encodeUnit (UInt16.ofNat (0xD800 + high)) ++ encodeUnit (UInt16.ofNat (0xDC00 + low)) := by
  obtain ⟨char, hchar⟩ := @exists_char (0x10000 + high * 0x400 + low) (by omega)
  have hlarge : ¬ char.toNat < 0x10000 := by omega
  have hquotient : (char.toNat - 0x10000) / 0x400 = high := by omega
  have hremainder : (char.toNat - 0x10000) % 0x400 = low := by omega
  refine ⟨char, ?_⟩
  rw [encodeChar, charUnits]
  simp only [if_neg hlarge, hquotient, hremainder, List.flatMap_cons, List.flatMap_nil,
    List.append_nil]

theorem toNat_of_continues {byte : UInt8} (h : Continues byte) :
    0x80 ≤ byte.toNat ∧ byte.toNat ≤ 0xBF := h

/-- Every shortest form is the stored form of a character. -/
theorem IsSequence.exists_encodeChar {bytes : Bytes} (h : IsSequence bytes) :
    ∃ char, encodeChar char = bytes := by
  cases h with
  | @one a hleast hgreatest =>
    have hleast' : 0x01 ≤ a.toNat := hleast
    have hgreatest' : a.toNat ≤ 0x7F := hgreatest
    obtain ⟨char, hchar⟩ := @exists_encodeChar_eq_encodeUnit a.toNat (by omega) (by omega)
    refine ⟨char, ?_⟩
    rw [hchar, encodeUnit_one (by omega) (by omega), ofNat_eq rfl]
  | zero => exact ⟨'\x00', by decide⟩
  | @two a b hleast hgreatest hb =>
    have hleast' : 0xC2 ≤ a.toNat := hleast
    have hgreatest' : a.toNat ≤ 0xDF := hgreatest
    have hb' := toNat_of_continues hb
    obtain ⟨char, hchar⟩ := @exists_encodeChar_eq_encodeUnit
      ((a.toNat - 0xC0) * 64 + (b.toNat - 0x80)) (by omega) (by omega)
    refine ⟨char, ?_⟩
    rw [hchar, encodeUnit_two (by omega) (by omega), @ofNat_eq _ a (by omega),
      @ofNat_eq _ b (by omega)]
  | @three a b c hleast hgreatest hb hc hshortest hplain =>
    have hleast' : 0xE0 ≤ a.toNat := hleast
    have hgreatest' : a.toNat ≤ 0xEF := hgreatest
    have hb' := toNat_of_continues hb
    have hc' := toNat_of_continues hc
    have hshortest' (heq : a.toNat = 0xE0) : 0xA0 ≤ b.toNat := hshortest (UInt8.toNat_inj.mp heq)
    have hplain' (heq : a.toNat = 0xED) : b.toNat ≤ 0x9F := hplain (UInt8.toNat_inj.mp heq)
    obtain ⟨char, hchar⟩ := @exists_encodeChar_eq_encodeUnit
      ((a.toNat - 0xE0) * 4096 + (b.toNat - 0x80) * 64 + (c.toNat - 0x80)) (by omega) (by omega)
    refine ⟨char, ?_⟩
    rw [hchar, encodeUnit_three (by omega) (by omega), @ofNat_eq _ a (by omega),
      @ofNat_eq _ b (by omega), @ofNat_eq _ c (by omega)]
  | @pair b c b' c' hleast hgreatest hc hleast' hgreatest' hc' =>
    have hb : 0xA0 ≤ b.toNat ∧ b.toNat ≤ 0xAF := ⟨hleast, hgreatest⟩
    have hb' : 0xB0 ≤ b'.toNat ∧ b'.toNat ≤ 0xBF := ⟨hleast', hgreatest'⟩
    have hc := toNat_of_continues hc
    have hc' := toNat_of_continues hc'
    obtain ⟨char, hchar⟩ := @exists_encodeChar_eq_pair
      ((b.toNat - 0xA0) * 64 + (c.toNat - 0x80)) ((b'.toNat - 0xB0) * 64 + (c'.toNat - 0x80))
      (by omega) (by omega)
    refine ⟨char, ?_⟩
    rw [hchar, encodeUnit_three (by omega) (by omega), encodeUnit_three (by omega) (by omega),
      @ofNat_eq _ 0xED (by change _ = 0xED; omega), @ofNat_eq _ b (by omega),
      @ofNat_eq _ c (by omega), @ofNat_eq _ 0xED (by change _ = 0xED; omega),
      @ofNat_eq _ b' (by omega), @ofNat_eq _ c' (by omega)]
    rfl

theorem toNat_byte (h : value < 0x100) : (UInt8.ofNat value).toNat = value :=
  UInt8.toNat_ofNat_of_lt h

theorem le_ofNat {least : UInt8} (hlt : value < 0x100) (h : least.toNat ≤ value) :
    least ≤ UInt8.ofNat value := by
  rwa [UInt8.le_iff_toNat_le, toNat_byte hlt]

theorem ofNat_le {greatest : UInt8} (hlt : value < 0x100) (h : value ≤ greatest.toNat) :
    UInt8.ofNat value ≤ greatest := by
  rwa [UInt8.le_iff_toNat_le, toNat_byte hlt]

theorem continues_ofNat {low : Nat} (h : low < 64) : Continues (UInt8.ofNat (0x80 + low)) := by
  have hgreatest : 0x80 + low ≤ 0xBF := by omega
  exact ⟨le_ofNat (by omega) (Nat.le_add_right 0x80 low), ofNat_le (by omega) hgreatest⟩

/-- A code unit that is no surrogate is written in its shortest form. -/
theorem isSequence_encodeUnit (h : value < 0xD800 ∨ 0xDFFF < value) (hlt : value < 0x10000) :
    IsSequence (encodeUnit (UInt16.ofNat value)) := by
  rcases Nat.eq_zero_or_pos value with rfl | hpos
  · exact IsSequence.zero
  rcases Nat.lt_or_ge value 0x80 with hone | hone
  · have hgreatest : value ≤ 0x7F := by omega
    rw [encodeUnit_one hpos hone]
    exact .one (le_ofNat (by omega) hpos) (ofNat_le (by omega) hgreatest)
  rcases Nat.lt_or_ge value 0x800 with htwo | htwo
  · have hleast : 0xC2 ≤ 0xC0 + value / 64 := by omega
    have hgreatest : 0xC0 + value / 64 ≤ 0xDF := by omega
    rw [encodeUnit_two (.inr hone) htwo]
    exact .two (le_ofNat (by omega) hleast) (ofNat_le (by omega) hgreatest)
      (continues_ofNat (by omega))
  · have hgreatest : 0xE0 + value / 4096 ≤ 0xEF := by omega
    have hlead : (UInt8.ofNat (0xE0 + value / 4096)).toNat = 0xE0 + value / 4096 :=
      toNat_byte (by omega)
    rw [encodeUnit_three htwo hlt]
    refine .three (le_ofNat (by omega) (Nat.le_add_right 0xE0 _)) (ofNat_le (by omega) hgreatest)
      (continues_ofNat (by omega)) (continues_ofNat (by omega)) ?_ ?_
    · intro heq
      have hleast : 0xA0 ≤ 0x80 + value / 64 % 64 := by
        rw [heq] at hlead
        change 0xE0 = _ at hlead
        omega
      exact le_ofNat (by omega) hleast
    · intro heq
      have hgreatest : 0x80 + value / 64 % 64 ≤ 0x9F := by
        rw [heq] at hlead
        change 0xED = _ at hlead
        omega
      exact ofNat_le (by omega) hgreatest

theorem isSequence_pair {high low : Nat} (hhigh : high < 0x400) (hlow : low < 0x400) :
    IsSequence (encodeUnit (UInt16.ofNat (0xD800 + high)) ++
      encodeUnit (UInt16.ofNat (0xDC00 + low))) := by
  have hlead : (0xD800 + high) / 4096 = 13 := by omega
  have hlead' : (0xDC00 + low) / 4096 = 13 := by omega
  have hmiddle : 0x80 + (0xD800 + high) / 64 % 64 = 0xA0 + high / 64 := by omega
  have hmiddle' : 0x80 + (0xDC00 + low) / 64 % 64 = 0xB0 + low / 64 := by omega
  have hgreatest : 0xA0 + high / 64 ≤ 0xAF := by omega
  have hgreatest' : 0xB0 + low / 64 ≤ 0xBF := by omega
  rw [encodeUnit_three (by omega) (by omega), encodeUnit_three (by omega) (by omega), hlead, hlead',
    hmiddle, hmiddle']
  exact .pair (le_ofNat (by omega) (Nat.le_add_right 0xA0 _)) (ofNat_le (by omega) hgreatest)
    (continues_ofNat (by omega)) (le_ofNat (by omega) (Nat.le_add_right 0xB0 _))
    (ofNat_le (by omega) hgreatest') (continues_ofNat (by omega))

theorem isSequence_encodeChar (char : Char) : IsSequence (encodeChar char) := by
  have hvalid := toNat_cases char
  by_cases hchar : char.toNat < 0x10000
  · rw [encodeChar_of_lt hchar]
    exact isSequence_encodeUnit (by omega) hchar
  · have hpair := @isSequence_pair ((char.toNat - 0x10000) / 0x400)
      ((char.toNat - 0x10000) % 0x400) (by omega) (by omega)
    rw [encodeChar, charUnits]
    simpa only [if_neg hchar, List.flatMap_cons, List.flatMap_nil, List.append_nil] using hpair

/-- The shortest forms are the stored forms of characters. -/
theorem isSequence_iff {bytes : Bytes} : IsSequence bytes ↔ ∃ char, encodeChar char = bytes := by
  constructor
  · exact IsSequence.exists_encodeChar
  · rintro ⟨char, rfl⟩
    exact isSequence_encodeChar char

end sequences

theorem encode_append (first second : String) :
    encode (first ++ second) = encode first ++ encode second := by
  simp only [encode_eq_flatMap, String.toList_append, List.flatMap_append]

/-- The well formed byte strings are the stored forms of texts. -/
theorem isWellFormed_iff {bytes : Bytes} : IsWellFormed bytes ↔ ∃ text, encode text = bytes := by
  constructor
  · intro h
    induction h with
    | nil => exact ⟨"", encode_eq_flatMap ""⟩
    | append hfront _ ih =>
      obtain ⟨char, rfl⟩ := isSequence_iff.mp hfront
      obtain ⟨text, rfl⟩ := ih
      refine ⟨String.ofList (char :: text.toList), ?_⟩
      rw [encode_eq_flatMap, encode_eq_flatMap, String.toList_ofList, List.flatMap_cons]
  · rintro ⟨text, rfl⟩
    rw [encode_eq_flatMap]
    induction text.toList with
    | nil => exact .nil
    | cons char chars ih =>
      rw [List.flatMap_cons]
      exact .append (isSequence_encodeChar char) ih

/-- Zero is none of the bytes that can stand in a sequence. -/
theorem IsSequence.zero_not_mem {bytes : Bytes} (h : IsSequence bytes) : (0 : UInt8) ∉ bytes := by
  have hcontinues : ¬ Continues 0 := by
    rintro ⟨hleast, -⟩
    exact absurd hleast (by decide)
  cases h with
  | one hleast =>
    simp only [List.mem_cons, List.not_mem_nil, or_false]
    rintro rfl
    exact absurd hleast (by decide)
  | zero => decide
  | two hleast _ hb =>
    simp only [List.mem_cons, List.not_mem_nil, or_false]
    rintro (rfl | rfl)
    · exact absurd hleast (by decide)
    · exact hcontinues hb
  | three hleast _ hb hc =>
    simp only [List.mem_cons, List.not_mem_nil, or_false]
    rintro (rfl | rfl | rfl)
    · exact absurd hleast (by decide)
    · exact hcontinues hb
    · exact hcontinues hc
  | pair hleast _ hc hleast' _ hc' =>
    simp only [List.mem_cons, List.not_mem_nil, or_false]
    rintro (hlead | rfl | rfl | hlead | rfl | rfl)
    · cases hlead
    · exact absurd hleast (by decide)
    · exact hcontinues hc
    · cases hlead
    · exact absurd hleast' (by decide)
    · exact hcontinues hc'

theorem zero_not_mem_encode (text : String) : (0 : UInt8) ∉ encode text := by
  rw [encode_eq_flatMap]
  intro hmem
  obtain ⟨char, -, hchar⟩ := List.mem_flatMap.mp hmem
  exact (isSequence_encodeChar char).zero_not_mem hchar

/-- Any text survives being stored, without a zero byte or one that only standard UTF-8 uses, and
character by character, so that the shortcut for texts without special forms changes nothing. Any
bytes survive being read and stored again exactly if they are well formed. -/
theorem encode_laws :
    (∀ text, decode (encode text) = text) ∧
    (∀ text, (0 : UInt8) ∉ encode text ∧ ∀ byte ∈ encode text, byte < 0xF0) ∧
    (∀ text, encode text =
      text.toList.flatMap fun char => (charUnits char).flatMap encodeUnit) ∧
    (∀ first second, encode (first ++ second) = encode first ++ encode second) ∧
    ∀ bytes, encode (decode bytes) = bytes ↔ IsWellFormed bytes := by
  refine ⟨decode_encode, ?_, encode_eq_flatMap, encode_append, ?_⟩
  · intro text
    exact ⟨zero_not_mem_encode text, encode_lt text⟩
  · intro bytes
    exact restored_eq_self_iff.trans isWellFormed_iff.symm

theorem encode_laws_samples :
    ((0xED : UInt8) ∈ encode "a\x00😀" ∧ (0xED : UInt8) < 0xF0) ∧
    IsWellFormed [0xC0, 0x80, 0x45] ∧ encode (decode [0xC0, 0x80, 0x45]) = [0xC0, 0x80, 0x45] := by
  have hmem : (0xED : UInt8) ∈ encode "a\x00😀" := by decide +kernel
  have hwellFormed : IsWellFormed [0xC0, 0x80, 0x45] :=
    .append .zero (.append (.one (by decide) (by decide)) .nil)
  obtain ⟨-, hbytes, -, -, hrestored⟩ := encode_laws
  exact ⟨⟨hmem, (hbytes _).2 _ hmem⟩, hwellFormed, (hrestored _).mpr hwellFormed⟩

end ClassThaw.ModifiedUtf8
