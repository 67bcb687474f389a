import ClassThaw.Bytes
import Mathlib.Algebra.Ring.Nat
import Mathlib.Data.List.Induction

namespace ClassThaw.BigEndian

theorem decode_concat (bytes : Bytes) (byte : UInt8) :
    decode (bytes ++ [byte]) = decode bytes * 256 + byte.toNat := by
  simp [decode]

/-- Reading a number of some width back keeps what fits the width. -/
theorem decode_encode (width value : Nat) :
    decode (encode width value) = value % 256 ^ width := by
  induction width generalizing value with
  | zero => simp [encode, decode, Nat.mod_one]
  | succ width ih =>
    -- The last byte holds the lowest eight bits, and the others hold the rest of the number.
    have hbyte : (UInt8.ofNat value).toNat = value % 256 := UInt8.toNat_ofNat'
    rw [encode, decode_concat, ih, hbyte, Nat.pow_succ', Nat.mod_mul]
    omega

/-- Writing what has been read gives the same bytes. -/
theorem encode_decode (bytes : Bytes) : encode bytes.length (decode bytes) = bytes := by
  -- Numbers are written from their last byte on, so bytes are taken off at the end.
  induction bytes using List.reverseRecOn with
  | nil => rfl
  | append_singleton bytes byte ih =>
    have hbyte := byte.toNat_lt
    have hhigh : (decode bytes * 256 + byte.toNat) / 256 = decode bytes := by omega
    have hlow : UInt8.ofNat (decode bytes * 256 + byte.toNat) = byte := by
      apply UInt8.toNat_inj.mp
      rw [UInt8.toNat_ofNat']
      omega
    rw [List.length_append, List.length_singleton, decode_concat, encode, hhigh, ih, hlow]

theorem decode_lt (bytes : Bytes) : decode bytes < 256 ^ bytes.length := by
  have h := decode_encode bytes.length (decode bytes)
  rw [encode_decode] at h
  have hpos : 0 < 256 ^ bytes.length := Nat.pow_pos (by omega)
  exact h ▸ Nat.mod_lt _ hpos

/-- The byte strings of a width are the forms of the numbers that fit it. -/
theorem eq_encode_iff {width value : Nat} (hvalue : value < 256 ^ width) (bytes : Bytes) :
    bytes = encode width value ↔ bytes.length = width ∧ decode bytes = value := by
  constructor
  · rintro rfl
    exact ⟨length_encode width value, by rw [decode_encode, Nat.mod_eq_of_lt hvalue]⟩
  · rintro ⟨rfl, rfl⟩
    exact (encode_decode bytes).symm

theorem word16_inj {value value' : UInt16} : word16 value = word16 value' ↔ value = value' := by
  constructor
  · intro h
    have hdecode := congrArg decode h
    rw [word16, word16, decode_encode, decode_encode] at hdecode
    have hlt := value.toNat_lt
    have hlt' := value'.toNat_lt
    apply UInt16.toNat_inj.mp
    omega
  · rintro rfl
    rfl

end ClassThaw.BigEndian
