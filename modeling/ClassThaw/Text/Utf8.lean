import ClassThaw.Bytes

namespace ClassThaw.Utf8

/-- What the first byte of a character announces. -/
structure Lead where
  -- The bits of the character that the byte itself holds.
  bits : Nat
  -- The number of bytes that follow.
  following : Nat
  -- The least that the second byte may be.
  least : UInt8 := 0x80
  -- The greatest that the second byte may be.
  greatest : UInt8 := 0xBF

/-- What a byte announces, if a character can begin with it. The bounds on the second byte leave out
longer forms of shorter characters, surrogates, and numbers beyond the last character. -/
def lead? (byte : UInt8) : Option Lead :=
  let code := byte.toNat
  if byte < 0x80 then some { bits := code, following := 0 }
  else if byte < 0xC2 then none
  else if byte < 0xE0 then some { bits := code - 0xC0, following := 1 }
  else if byte = 0xE0 then some { bits := 0, following := 2, least := 0xA0 }
  else if byte = 0xED then some { bits := code - 0xE0, following := 2, greatest := 0x9F }
  else if byte < 0xF0 then some { bits := code - 0xE0, following := 2 }
  else if byte = 0xF0 then some { bits := 0, following := 3, least := 0x90 }
  else if byte < 0xF4 then some { bits := code - 0xF0, following := 3 }
  else if byte = 0xF4 then some { bits := code - 0xF0, following := 3, greatest := 0x8F }
  else none

/-- The bytes in front that continue a character, at most `count` of them, if the first of them has
to lie between two bounds. -/
def continuation : (count : Nat) → (least greatest : UInt8) → Bytes → Bytes
  | count + 1, least, greatest, byte :: rest =>
    if least ≤ byte ∧ byte ≤ greatest then byte :: continuation count 0x80 0xBF rest else []
  | _, _, _, _ => []

/-- The character that begins with a byte, and the number of bytes that it takes of the rest. -/
def charAt (first : UInt8) (rest : Bytes) : Char × Nat :=
  match lead? first with
  | none => ('\uFFFD', 0)
  | some lead =>
    let more := continuation lead.following lead.least lead.greatest rest
    let code := more.foldl (fun code byte => 64 * code + (byte.toNat - 0x80)) lead.bits
    (if more.length = lead.following then Char.ofNat code else '\uFFFD', more.length)

def decodeChars : Bytes → List Char
  | [] => []
  | first :: rest =>
    let (char, taken) := charAt first rest
    char :: decodeChars (rest.drop taken)
termination_by bytes => bytes.length
decreasing_by
  simp only [List.length_drop, List.length_cons]
  omega

def decode (bytes : Bytes) : String := String.ofList (decodeChars bytes)

end ClassThaw.Utf8
