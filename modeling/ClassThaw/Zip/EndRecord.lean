import ClassThaw.Zip.Fault
import ClassThaw.Zip.Field

/-! Offsets count from the start of the archive, which need not be the start of the data. So the
directory is looked for from the place that the end record names on, and the first entry found there
tells how many bytes are in front of the archive. -/

namespace ClassThaw.Zip

/-- Where the directory of an archive lies. -/
structure DirectoryPlace where
  -- The number of bytes in front of the archive.
  shift : Nat
  -- The place of the first entry.
  start : Nat
  -- The number of entries.
  count : Nat
  -- The end record does not contradict itself.
  isConsistent : Bool

structure EndRecord where
  disk : Nat
  -- The disk on which the directory starts.
  directoryDisk : Nat
  -- The number of entries on this disk.
  countHere : Nat
  -- The number of entries on all disks.
  count : Nat
  -- Where the directory starts.
  offset : Nat
  commentLength : Nat

/-- An end record with wide fields. -/
structure WideEndRecord where
  -- The number of bytes after this field.
  size : Nat
  -- The version that the archive was made by.
  madeBy : Nat
  -- The version that is needed to read the archive.
  needed : Nat
  disk : Nat
  directoryDisk : Nat
  countHere : Nat
  count : Nat
  offset : Nat

/-- Where the end record with wide fields is. -/
structure Locator where
  -- The disk on which the directory starts.
  directoryDisk : Nat
  -- Where the record starts.
  offset : Nat
  -- The number of disks.
  disks : Nat
  -- The place of the locator itself.
  place : Nat

def EndRecord.read? (data : ByteArray) (place : Nat) : Option EndRecord := do
  let number (offset width : Nat) := number? data (place + offset) width
  return {
    disk := ← number 4 2
    directoryDisk := ← number 6 2
    countHere := ← number 8 2
    count := ← number 10 2
    offset := ← number 16 4
    commentLength := ← number 20 2 }

def WideEndRecord.read? (data : ByteArray) (place : Nat) : Option WideEndRecord := do
  let number (offset width : Nat) := number? data (place + offset) width
  return {
    size := ← number 4 8
    madeBy := ← number 12 2
    needed := ← number 14 2
    disk := ← number 16 4
    directoryDisk := ← number 20 4
    countHere := ← number 24 8
    count := ← number 32 8
    offset := ← number 48 8 }

/-- The locator in front of the end record at a place. -/
def Locator.read? (data : ByteArray) (endPlace : Nat) : Option Locator := do
  let place := endPlace - 20
  let number (offset width : Nat) := number? data (place + offset) width
  if endPlace < 20 ∨ !Signature.locator.standsAt data place then
    none
  return {
    directoryDisk := ← number 4 4
    offset := ← number 8 8
    disks := ← number 16 4
    place }

/-- A field of the end record is full, so that there may be one with wide fields. -/
def EndRecord.isFull (record : EndRecord) : Bool :=
  record.count == 0xFFFF || record.offset == 0xFFFFFFFF

/-- The directory by the end record at a place. Without entries nothing is looked for. -/
def EndRecord.directoryPlace (record : EndRecord) (data : ByteArray) (place : Nat) :
    Except Fault DirectoryPlace :=
  let found (start : Nat) : DirectoryPlace :=
    { shift := start - record.offset, start, count := record.countHere,
      isConsistent := record.disk == record.directoryDisk }
  if record.count = 0 then
    .ok (found (max place record.offset))
  else if place ≤ record.offset then
    .error .directoryAfterEnd
  else
    match Signature.record.first? data (place - record.offset) record.offset with
    | none => .error .noDirectory
    | some start => .ok (found start)

def WideEndRecord.directoryPlace (locator : Locator) (data : ByteArray) (place : Nat) :
    Except Fault DirectoryPlace := do
  let some record := WideEndRecord.read? data place
    | throw .unexpectedEnd
  let length := locator.place - place
  if record.size < 44 then
    throw .wideTooShort
  if length < record.size + 12 then
    throw .wideTooLong
  if record.directoryDisk ≠ locator.directoryDisk then
    throw .wideDisk
  if record.size + 12 ≠ length then
    throw .wideLength
  if place < 46 * record.count + record.offset then
    throw .wideCount
  let shift := place - locator.offset
  return {
    shift
    start := record.offset + shift
    count := record.count
    isConsistent := record.disk == record.directoryDisk && decide (record.countHere ≤ record.count)
      && decide (record.needed ≤ record.madeBy) }

/-- The directory by the first sound end record with wide fields at one of `count` places from a
place on. If there is none, the fault is that of the last one. -/
def Locator.directoryFrom (locator : Locator) (data : ByteArray) :
    (count : Nat) → (place : Nat) → (fault : Fault) → Except Fault DirectoryPlace
  | 0, _, fault => .error fault
  | count + 1, place, fault =>
    if Signature.wideEndRecord.standsAt data place then
      match WideEndRecord.directoryPlace locator data place with
      | .ok directory => .ok directory
      | .error fault => locator.directoryFrom data count (place + 1) fault
    else
      locator.directoryFrom data count (place + 1) fault

/-- The directory by an end record with wide fields between the place that a locator names and the
locator. -/
def Locator.directoryPlace (locator : Locator) (data : ByteArray) : Except Fault DirectoryPlace :=
  if locator.place ≤ locator.offset then
    .error .wideAfterLocator
  else if 1 < locator.disks then
    .error .severalDisks
  else
    locator.directoryFrom data (locator.place - locator.offset) locator.offset .noWideEndRecord

namespace EndRecord

/-- The end record at a place, unless it or its comment breaks off. -/
def fetch (data : ByteArray) (place : Nat) : Except Fault EndRecord := do
  let some record := read? data place
    | throw .unexpectedEnd
  if data.size < place + 22 + record.commentLength then
    throw .longComment
  return record

/-- The directory by the end record at a place, or by the one with wide fields in front of it. -/
def findDirectory (record : EndRecord) (data : ByteArray) (place : Nat) :
    Except Fault DirectoryPlace :=
  match if record.isFull then Locator.read? data place else none with
  | some locator => locator.directoryPlace data
  | none => record.directoryPlace data place

end EndRecord

end ClassThaw.Zip
