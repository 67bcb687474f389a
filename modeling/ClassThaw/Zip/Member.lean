import ClassThaw.Archive.Entry
import ClassThaw.Zip.Crc32
import ClassThaw.Zip.Deflate
import ClassThaw.Zip.Fault
import ClassThaw.Zip.Inflate
import ClassThaw.Zip.Record

namespace ClassThaw.Zip

structure Member where
  name : String
  header : Header
  -- The content, packed by the header's method, as far as the archive has it.
  packed : ByteArray

/-- The member that an entry of the directory speaks of. Its data starts with a header that may be
longer than the directory says, and goes on to the end of the archive at the most. -/
def Record.fetch (data : ByteArray) (record : Record) : Except Fault Member := do
  if record.header.flags % 2 = 1 then
    throw .encrypted
  let some header := slice? data record.offset 30
    | throw .unexpectedEnd
  if !Signature.data.standsAt header 0 then
    throw .noHeader
  if record.header.method ≠ 0 ∧ record.header.method ≠ 8 then
    throw .unknownMethod
  if record.isLocked then
    throw .wrongPassword
  let length (place : Nat) := (number? header place 2).getD 0
  return {
    name := record.name
    header := record.header
    packed :=
      slice data (record.offset + 30 + length 26 + length 28) record.header.packedSize }

namespace Member

def fileAttributes (permissions : Nat) : Nat := (0o100000 + permissions) <<< 16

/-- The version and the system that the members of a new archive are made by. -/
def madeByVersion : Nat := 0x032D

def file (name : String) (content : ByteArray) : Member where
  name
  header :=
    { madeBy := madeByVersion, flags := 0, method := 0, changed := .first,
      crc := Crc32.checksum content, packedSize := content.size, size := content.size,
      attributes := fileAttributes 0o644 }
  packed := content

def packedFile (name : String) (content : ByteArray) : Member :=
  let plain := file name content
  let packed := Deflate.pack content
  { plain with header := { plain.header with method := 8, packedSize := packed.size }, packed }

def content (member : Member) : Except Damage ByteArray := do
  let content ←
    match member.header.method with
    | 0 => pure member.packed
    | _ => Inflate.unpack member.packed
  if Crc32.checksum content ≠ member.header.crc then
    throw .checksum
  return content

/-- The member as a copy of its archive has it: a file with the member's permissions. Its sizes are
kept, even if the archive has less of the content. -/
def copied (member : Member) : Member :=
  { member with header := { member.header with
      madeBy := madeByVersion
      changed := member.header.changed.repaired
      attributes := fileAttributes (member.header.mode?.getD 0o644 &&& 0o777) } }

def toEntry (member : Member) : Entry :=
  { name := member.name
    isLink := member.header.isLink
    content := member.content.mapError .damaged }

end Member

def Record.toEntry (data : ByteArray) (record : Record) : Entry :=
  match record.fetch data with
  | .ok member => member.toEntry
  | .error fault =>
    { name := record.name, isLink := record.header.isLink, content := .error (.closed fault) }

end ClassThaw.Zip
