import ClassThaw.Zip.Crc32
import ClassThaw.Zip.Record

namespace ClassThaw.Zip

/-- Why no more extra fields are read. -/
inductive ExtraStop where
  -- A field is wrong in itself.
  | refused
  -- A field breaks off, and the entry is as it is up to there.
  | brokenOff (record : Record)

/-- The wide number at a place and the place after it, if it is given there, or the number that is
known already. -/
def widened (extra : ByteArray) (isGiven : Bool) (place number : Nat) : Option (Nat × Nat) :=
  if isGiven || number == narrowLimit then
    (number? extra place 8).map fun wide => (wide, place + 8)
  else
    some (number, place)

def Record.unlessBroken (record : Record) (extra : ByteArray) (place length : Nat) :
    Except ExtraStop Record :=
  if place + length ≤ extra.size then .ok record else .error (.brokenOff record)

namespace Record

/-- Wide sizes and a wide offset. A field of at least 24 bytes has all of them, a shorter one those
that have no room in their usual fields. -/
def withWideNumbers (extra : ByteArray) (place length : Nat) (record : Record) :
    Except ExtraStop Record := do
  let hasAll := decide (24 ≤ length)
  let some (size, next) := widened extra hasAll place record.header.size
    | throw (.brokenOff record)
  let record := { record with header := { record.header with size } }
  let some (packedSize, next) := widened extra hasAll next record.header.packedSize
    | throw (.brokenOff record)
  let record := { record with header := { record.header with packedSize } }
  let some (offset, next) := widened extra hasAll next record.offset
    | throw (.brokenOff record)
  let record := { record with offset }
  if place + length < next then
    throw .refused
  record.unlessBroken extra place length

/-- Times as a file system keeps them: a reserved number, and one attribute of 24 bytes. -/
def withFileTimes (extra : ByteArray) (place length : Nat) (record : Record) :
    Except ExtraStop Record := do
  if length ≠ 32 then
    throw .refused
  let some tag := number? extra (place + 4) 2
    | throw (.brokenOff record)
  if tag ≠ 1 then
    throw .refused
  let some size := number? extra (place + 6) 2
    | throw (.brokenOff record)
  if size ≠ 24 then
    throw .refused
  record.unlessBroken extra place length

/-- Times in seconds: a byte tells which of three times are given. A field with room for one time
may stand for more of them. -/
def withTimes (extra : ByteArray) (place length : Nat) (record : Record) :
    Except ExtraStop Record := do
  let some given := number? extra place 1
    | throw (.brokenOff record)
  let count := (List.range 8).countP given.testBit
  if (length ≠ 5 ∧ length ≠ 1 + 4 * count) ∨ 8 ≤ given then
    throw .refused
  record.unlessBroken extra place length

/-- How the data is locked, and by which method it is packed. -/
def withLock (extra : ByteArray) (place length : Nat) (record : Record) :
    Except ExtraStop Record := do
  if length ≠ 7 then
    throw .refused
  let record ← record.unlessBroken extra place length
  let number (offset width : Nat) := (number? extra (place + offset) width).getD 0
  if number 0 2 ∉ [1, 2] ∨ number 2 2 ≠ 0x4541 ∨ number 4 1 ∉ [1, 2, 3] then
    throw .refused
  return { record with header := { record.header with method := number 5 2 }, isLocked := true }

end Record

/-- A text in UTF-8 in place of one of the entry's texts, which is given by its checksum. -/
def otherText (extra : ByteArray) (place length : Nat) (record : Record) (text : ByteArray) :
    Except ExtraStop ByteArray := do
  let some checksum := number? extra (place + 1) 4
    | throw (.brokenOff record)
  if length < 5 then
    throw .refused
  let some other := slice? extra (place + 5) (length - 5)
    | throw (.brokenOff record)
  if checksum ≠ (Crc32.checksum text).toNat ∨ (String.fromUTF8? other).isNone then
    throw .refused
  return other

namespace Record

def withOtherComment (extra : ByteArray) (place length : Nat) (record : Record) :
    Except ExtraStop Record := do
  let comment ← otherText extra place length record record.comment.toUTF8
  return { record with comment := Utf8.decode comment.data.toList }

def withOtherName (extra : ByteArray) (place length : Nat) (record : Record) :
    Except ExtraStop Record := do
  let nameBytes ← otherText extra place length record record.nameBytes
  return { record with name := Utf8.decode nameBytes.data.toList, nameBytes }

/-- What an extra field of a kind says. A field of any other kind says nothing. -/
def withExtra (extra : ByteArray) (kind place length : Nat) (record : Record) :
    Except ExtraStop Record :=
  match kind with
  | 0x0001 => record.withWideNumbers extra place length
  | 0x000A => record.withFileTimes extra place length
  | 0x5455 => record.withTimes extra place length
  | 0x6375 => record.withOtherComment extra place length
  | 0x7075 => record.withOtherName extra place length
  | 0x9901 => record.withLock extra place length
  | _ => record.unlessBroken extra place length

/-- What the extra fields from a place on say, at most `fuel` of them. -/
def withExtras? (extra : ByteArray) : (fuel : Nat) → (place : Nat) → Record → Option Record
  | 0, _, record => some record
  | fuel + 1, place, record =>
    match number? extra place 2, number? extra (place + 2) 2 with
    | some kind, some length =>
      match record.withExtra extra kind (place + 4) length with
      | .ok record => withExtras? extra fuel (place + 4 + length) record
      | .error .refused => none
      | .error (.brokenOff record) => some record
    | _, _ => some record

end Record

/-- The entry with what its extra fields say. The data is locked by the method for that only if a
field says how. -/
def RecordParts.whole? (parts : RecordParts) : Option Record := do
  let record ← parts.record.withExtras? parts.extra parts.extra.size 0
  if record.header.method = lockedMethod ∧ !record.isLocked then
    none
  return record

end ClassThaw.Zip
