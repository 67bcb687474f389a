import ClassThaw.Bytes

/-! Modified UTF-8, the form in which a class file stores its texts: NUL takes the two bytes `C0
80`, and a character above U+FFFF is written as its two UTF-16 surrogates of three bytes each. -/

namespace ClassThaw.ModifiedUtf8

def replacement : Char := '\uFFFD'

/-- A UTF-16 code unit in its shortest form, except that zero takes two bytes. -/
def encodeUnit (unit : UInt16) : Bytes :=
  if 0 < unit ∧ unit < 0x80 then
    [unit.toUInt8]
  else if unit < 0x800 then
    [(0xC0 : UInt8) ||| (unit >>> 6).toUInt8, (0x80 : UInt8) ||| (unit &&& 0x3F).toUInt8]
  else
    [(0xE0 : UInt8) ||| (unit >>> 12).toUInt8, (0x80 : UInt8) ||| ((unit >>> 6) &&& 0x3F).toUInt8,
      (0x80 : UInt8) ||| (unit &&& 0x3F).toUInt8]

/-- The UTF-16 code units of a character: one, or a pair of surrogates above U+FFFF. -/
def charUnits (char : Char) : List UInt16 :=
  let code := char.toNat
  if code < 0x10000 then
    [UInt16.ofNat code]
  else
    [UInt16.ofNat (0xD800 + (code - 0x10000) / 0x400),
      UInt16.ofNat (0xDC00 + (code - 0x10000) % 0x400)]

/-- A character that standard UTF-8 writes in the same way. -/
def isShared (char : Char) : Bool := char ≠ '\x00' && char.toNat < 0x10000

/-- The stored form of a text. Where no character needs a special form, that is standard UTF-8. -/
def encode (text : String) : Bytes :=
  if text.toList.all isShared then
    text.toUTF8.data.toList
  else
    text.toList.flatMap fun char => (charUnits char).flatMap encodeUnit

def isContinuation (byte : UInt8) : Bool := byte &&& 0xC0 == 0x80

def replacementUnit : UInt16 := 0xFFFD

/-- The unit of a two-byte sequence, if its second byte continues the first. -/
def unitOfTwo (a b : UInt8) : UInt16 :=
  if isContinuation b then
    ((a.toUInt16 &&& 0x1F) <<< 6) ||| (b.toUInt16 &&& 0x3F)
  else
    replacementUnit

def unitOfThree (a b c : UInt8) : UInt16 :=
  if isContinuation b && isContinuation c then
    ((a.toUInt16 &&& 0x0F) <<< 12) ||| ((b.toUInt16 &&& 0x3F) <<< 6) ||| (c.toUInt16 &&& 0x3F)
  else
    replacementUnit

/-- Puts the code units that a byte string spells in front of `read`, the last one first. -/
def unitsOnto (read : List UInt16) : Bytes → List UInt16
  | [] => read
  | a :: rest =>
    if a &&& 0x80 == 0 then
      unitsOnto (a.toUInt16 :: read) rest
    else if a &&& 0xE0 == 0xC0 then
      match rest with
      | [] => replacementUnit :: read
      | b :: rest => unitsOnto (unitOfTwo a b :: read) rest
    else if a &&& 0xF0 == 0xE0 then
      match rest with
      | [] | [_] => replacementUnit :: read
      | b :: c :: rest => unitsOnto (unitOfThree a b c :: read) rest
    else
      unitsOnto (replacementUnit :: read) rest

/-- The UTF-16 code units that a stored text spells. The first byte of a sequence decides how many
bytes it takes; when one of the others does not continue it, the whole sequence is replaced. -/
def units (bytes : Bytes) : List UInt16 := (unitsOnto [] bytes).reverse

def isHighSurrogate (unit : UInt16) : Bool := 0xD800 ≤ unit && unit < 0xDC00

def isLowSurrogate (unit : UInt16) : Bool := 0xDC00 ≤ unit && unit < 0xE000

def ofSurrogates (high low : UInt16) : Char :=
  Char.ofNat (0x10000 + (high.toNat - 0xD800) * 0x400 + (low.toNat - 0xDC00))

/-- The character of a code unit that is not half of a pair. -/
def ofUnit (unit : UInt16) : Char :=
  if isHighSurrogate unit || isLowSurrogate unit then replacement else Char.ofNat unit.toNat

/-- Puts the characters that code units spell in front of `read`, the last one first. -/
def ofUnitsOnto (read : List Char) : List UInt16 → List Char
  | [] => read
  | [unit] => ofUnit unit :: read
  | unit :: next :: rest =>
    if isHighSurrogate unit && isLowSurrogate next then
      ofUnitsOnto (ofSurrogates unit next :: read) rest
    else
      ofUnitsOnto (ofUnit unit :: read) (next :: rest)

/-- The characters that UTF-16 code units spell, a surrogate without its other half being
replaced. -/
def ofUnits (units : List UInt16) : List Char := (ofUnitsOnto [] units).reverse

def decodeUnits (bytes : Bytes) : String := String.ofList (ofUnits (units bytes))

def standard? (bytes : Bytes) : Option String := String.fromUTF8? ⟨bytes.toArray⟩

/-- The text of a stored byte string: as standard UTF-8 where that accepts the bytes, and unit by
unit otherwise. -/
def decode (bytes : Bytes) : String := (standard? bytes).getD (decodeUnits bytes)

end ClassThaw.ModifiedUtf8
