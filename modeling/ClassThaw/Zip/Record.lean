import ClassThaw.Zip.Field
import ClassThaw.Zip.Text
import ClassThaw.Zip.Timestamp

namespace ClassThaw.Zip

/-- What the directory says of a member, apart from its name. -/
structure Header where
  -- The version and the system that the member was made by.
  madeBy : Nat
  flags : Nat
  method : Nat
  changed : Timestamp
  crc : UInt32
  -- The size of the packed content. The archive may end before that.
  packedSize : Nat
  -- The size of the content.
  size : Nat
  -- The attributes that the member's system gives it.
  attributes : Nat
  deriving DecidableEq, Repr

namespace Header

/-- The mode bits that the member's system gives it, if it knows any. A system without mode bits
has one bit for directories and one for what must not be written. -/
def mode? (header : Header) : Option Nat :=
  match header.attributes, header.madeBy / 256 with
  | 0, _ => none
  | attributes, 3 => some (attributes >>> 16)
  | attributes, 0 =>
    let mode := if attributes.testBit 4 then 0o040775 else 0o100664
    some (if attributes.testBit 0 then mode &&& 0o555 else mode)
  | _, _ => none

def isLink (header : Header) : Bool :=
  header.mode?.any fun mode => mode &&& 0o120000 = 0o120000

end Header

structure Record where
  name : String
  -- The bytes that the name was read from.
  nameBytes : ByteArray
  comment : String
  header : Header
  -- Where the data starts with a header of its own, counted from the start of the archive.
  offset : Nat
  -- The data is locked in a way that the flags need not tell of.
  isLocked : Bool := false

/-- The number of the method that locks the data and packs it by another method. -/
def lockedMethod : Nat := 99

/-- The parts of a directory entry that follow one another. -/
structure RecordParts where
  record : Record
  -- Fields in forms of their own.
  extra : ByteArray
  -- The place after the entry.
  next : Nat

/-- The directory entry at a place, before its extra fields are looked at. -/
def RecordParts.read? (data : ByteArray) (place : Nat) : Option RecordParts := do
  let number (offset width : Nat) := number? data (place + offset) width
  if !Signature.record.standsAt data place then
    none
  let flags ← number 8 2
  let nameLength ← number 28 2
  let extraLength ← number 30 2
  let commentLength ← number 32 2
  let header : Header :=
    { madeBy := ← number 4 2
      flags
      method := ← number 10 2
      changed := { time := ← number 12 2, date := ← number 14 2 }
      crc := UInt32.ofNat (← number 16 4)
      packedSize := ← number 20 4
      size := ← number 24 4
      attributes := ← number 38 4 }
  let offset ← number 42 4
  let nameBytes ← slice? data (place + 46) nameLength
  let extra ← slice? data (place + 46 + nameLength) extraLength
  let comment ← slice? data (place + 46 + nameLength + extraLength) commentLength
  return {
    record :=
      { name := decodeText flags nameBytes, nameBytes, comment := decodeText flags comment,
        header, offset }
    extra
    next := place + 46 + nameLength + extraLength + commentLength }

end ClassThaw.Zip
