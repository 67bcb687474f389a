namespace ClassThaw

abbrev Bytes := List UInt8

namespace BigEndian

/-- The number a byte string spells, most significant byte first. -/
def decode (bytes : Bytes) : Nat :=
  bytes.foldl (fun value byte => value * 256 + byte.toNat) 0

/-- The `width` low-order bytes of a number, most significant byte first. -/
def encode : (width : Nat) → (value : Nat) → Bytes
  | 0, _ => []
  | width + 1, value => encode width (value / 256) ++ [UInt8.ofNat value]

def word16 (value : UInt16) : Bytes := encode 2 value.toNat

def word32 (value : UInt32) : Bytes := encode 4 value.toNat

def word64 (value : UInt64) : Bytes := encode 8 value.toNat

theorem length_encode (width value : Nat) : (encode width value).length = width := by
  induction width generalizing value with
  | zero => rfl
  | succ width ih => simp [encode, ih]

end BigEndian

end ClassThaw
