import ClassThaw.Proofs.Text.ModifiedUtf8

namespace ClassThaw.ModifiedUtf8

/-- No sequence of standard UTF-8 is the start of another one. -/
theorem utf8_cancel {chars found : List Char} {rest : Bytes}
    (h : found.flatMap String.utf8EncodeChar = chars.flatMap String.utf8EncodeChar ++ rest) :
    ∃ more : List Char, more.flatMap String.utf8EncodeChar = rest := by
  induction chars generalizing found with
  | nil => exact ⟨found, h⟩
  | cons char chars ih =>
    -- The first character of any bytes is found by looking at them alone.
    have hfirst (next : Char) (behind : Bytes) :
        (String.utf8EncodeChar next ++ behind).toByteArray.utf8DecodeChar? 0 = some next := by
      rw [List.toByteArray_append, ByteArray.utf8DecodeChar?_utf8EncodeChar_append]
    rw [List.flatMap_cons, List.append_assoc] at h
    cases found with
    | nil =>
      have hdecode := hfirst char (chars.flatMap String.utf8EncodeChar ++ rest)
      rw [← h] at hdecode
      cases hdecode
    | cons next found =>
      rw [List.flatMap_cons] at h
      have hdecode := hfirst char (chars.flatMap String.utf8EncodeChar ++ rest)
      rw [← h, hfirst] at hdecode
      obtain rfl := Option.some.inj hdecode
      exact ih (List.append_cancel_left h)

/-- Behind a text in standard UTF-8, standard UTF-8 accepts what it accepts alone. -/
theorem standard?_append {front : Bytes} {text : String} (h : standard? front = some text)
    (rest : Bytes) : standard? (front ++ rest) = (standard? rest).map (text ++ ·) := by
  have hfront := standard?_eq_some_iff.mp h
  cases hrest : standard? rest with
  | some more =>
    have hmore := standard?_eq_some_iff.mp hrest
    apply standard?_eq_some_iff.mpr
    rw [String.toList_append, List.flatMap_append, hfront, hmore]
  | none =>
    cases hboth : standard? (front ++ rest) with
    | none => rfl
    | some found =>
      have hfound := standard?_eq_some_iff.mp hboth
      rw [← hfront] at hfound
      obtain ⟨more, hmore⟩ := utf8_cancel hfound
      have hsome : standard? rest = some (String.ofList more) := by
        rw [standard?_eq_some_iff, String.toList_ofList, hmore]
      rw [hrest] at hsome
      cases hsome

theorem toNat_lt_of_mem_unitwise {char found : Char} (h : found ∈ unitwise char) :
    found.toNat < 0x10000 := by
  unfold unitwise at h
  split at h
  case isTrue hchar => rwa [List.mem_singleton.mp h]
  case isFalse =>
    rw [List.eq_of_mem_replicate h]
    decide

/-- Unit by unit, a text is read from standard UTF-8 exactly if it has no character above
U+FFFF. -/
theorem ofList_flatMap_unitwise_iff {text : String} :
    text = String.ofList (text.toList.flatMap unitwise) ↔
      ∀ char ∈ text.toList, char.toNat < 0x10000 := by
  constructor
  · intro h char hchar
    rw [h, String.toList_ofList] at hchar
    obtain ⟨_, -, hmem⟩ := List.mem_flatMap.mp hchar
    exact toNat_lt_of_mem_unitwise hmem
  · intro h
    rw [flatMap_unitwise h, String.ofList_toList]

/-- What standard UTF-8 accepts is read as it says. Unit by unit, each character above U+FFFF would
become four replacements, so that both ways agree exactly where there is none; and which way is
taken depends on whether what stands behind is standard UTF-8 as well. -/
theorem decode_of_standard {bytes : Bytes} {text : String} (h : standard? bytes = some text) :
    decode bytes = text ∧
    decodeUnits bytes = String.ofList (text.toList.flatMap unitwise) ∧
    (decode bytes = decodeUnits bytes ↔ ∀ char ∈ text.toList, char.toNat < 0x10000) ∧
    ∀ rest, decode (bytes ++ rest) =
      (if (standard? rest).isSome then decode bytes else decodeUnits bytes) ++ decode rest := by
  have hdecode : decode bytes = text := by rw [decode, h, Option.getD_some]
  have hbytes := standard?_eq_some_iff.mp h
  have hunits (rest : Bytes) : decodeUnits (bytes ++ rest) =
      String.ofList (text.toList.flatMap unitwise) ++ decodeUnits rest := by
    rw [← hbytes, decodeUnits_utf8_append]
  have hloop : decodeUnits bytes = String.ofList (text.toList.flatMap unitwise) := by
    have hnil := hunits []
    have hempty : decodeUnits [] = "" := rfl
    rw [List.append_nil, hempty, String.append_empty] at hnil
    exact hnil
  refine ⟨hdecode, hloop, ?_, ?_⟩
  · rw [hdecode, hloop]
    exact ofList_flatMap_unitwise_iff
  · intro rest
    rw [decode, standard?_append h]
    cases hrest : standard? rest with
    | some more =>
      have hmore : decode rest = more := by rw [decode, hrest, Option.getD_some]
      rw [Option.map_some, Option.getD_some, Option.isSome_some, if_pos rfl, hdecode, hmore]
    | none =>
      have hmore : decode rest = decodeUnits rest := by rw [decode, hrest, Option.getD_none]
      rw [Option.map_none, Option.getD_none, Option.isSome_none, if_neg Bool.false_ne_true, hunits,
        hloop, hmore]

/-- The same four bytes are one character alone, and four replacements in front of a NUL. -/
theorem decode_of_standard_samples :
    standard? [0xF0, 0x9F, 0x98, 0x80] = some "😀" ∧
    decode [0xF0, 0x9F, 0x98, 0x80] = "😀" ∧
    decodeUnits [0xF0, 0x9F, 0x98, 0x80] = "\uFFFD\uFFFD\uFFFD\uFFFD" ∧
    decode [0xF0, 0x9F, 0x98, 0x80] ≠ decodeUnits [0xF0, 0x9F, 0x98, 0x80] ∧
    decode [0xF0, 0x9F, 0x98, 0x80, 0xC0, 0x80] = "\uFFFD\uFFFD\uFFFD\uFFFD\x00" := by
  have hstandard : standard? [0xF0, 0x9F, 0x98, 0x80] = some "😀" := by decide +kernel
  obtain ⟨hdecode, hloop, hagree, hbehind⟩ := decode_of_standard hstandard
  have hlarge : ¬ ∀ char ∈ "😀".toList, char.toNat < 0x10000 := by
    intro hall
    have hchar := hall '😀' (by decide +kernel)
    exact absurd hchar (by decide)
  refine ⟨hstandard, hdecode, hloop.trans (by decide +kernel), mt hagree.mp hlarge, ?_⟩
  refine (hbehind [0xC0, 0x80]).trans ?_
  rw [hloop]
  decide +kernel

end ClassThaw.ModifiedUtf8
