import ClassThaw.Zip.Directory
import ClassThaw.Zip.Member

/-! An archive ends with a directory of its members, which says where the data of each member
starts. A size that has no room in its field is left out: wide fields follow, and they are 0. -/

namespace ClassThaw.Zip

namespace Member

/-- A size of the member has no room in its field. -/
def isWide (member : Member) : Bool :=
  decide (narrowLimit < max member.header.packedSize member.header.size)

def versionNeeded (member : Member) : Nat :=
  if member.isWide then 45 else if member.header.method = 0 then 10 else 20

def extra (member : Member) : ByteArray :=
  if member.isWide then Zip.fields [(2, 1), (2, 16), (8, 0), (8, 0)] else ByteArray.empty

/-- The fields that the header of the data and the entry in the directory share, with the sizes as
they stand there. -/
def fields (member : Member) (packedSize size : Nat) : List (Nat × Nat) :=
  let utf8 := if member.name.toList.all (·.toNat < 128) then 0 else utf8Flag
  [(2, member.versionNeeded), (2, utf8), (2, member.header.method),
    (2, member.header.changed.time), (2, member.header.changed.date),
    (4, member.header.crc.toNat), (4, packedSize), (4, size),
    (2, member.name.utf8ByteSize), (2, member.extra.size)]

/-- The header in front of the data. It has both sizes or none. -/
def dataHeader (member : Member) : ByteArray :=
  let narrow (size : Nat) := if member.isWide then narrowLimit else size
  Zip.fields ((4, Signature.data.value) ::
      member.fields (narrow member.header.packedSize) (narrow member.header.size)) ++
    member.name.toUTF8 ++ member.extra

def record (member : Member) (offset : Nat) : ByteArray :=
  let narrow (size : Nat) := min size narrowLimit
  Zip.fields ([(4, Signature.record.value), (2, member.header.madeBy)] ++
      member.fields (narrow member.header.packedSize) (narrow member.header.size) ++
      [(2, 0), (2, 0), (2, 0), (4, member.header.attributes), (4, offset)]) ++
    member.name.toUTF8 ++ member.extra

end Member

/-- Appends a member to the data and to the directory of an archive. -/
def append (archive : ByteArray × ByteArray) (member : Member) : ByteArray × ByteArray :=
  let (data, directory) := archive
  let directory := directory ++ member.record data.size
  (data ++ member.dataHeader ++ member.packed, directory)

/-- What ends an archive with `count` members whose directory starts at an offset. The end record
stands alone if its fields have room for everything. -/
def ending (count directorySize offset : Nat) : ByteArray :=
  let wide :=
    if 0xFFFF < count ∨ narrowLimit < max directorySize offset then
      fields [(4, Signature.wideEndRecord.value), (8, 44), (2, 45), (2, 45), (4, 0), (4, 0),
        (8, count), (8, count), (8, directorySize), (8, offset),
        (4, Signature.locator.value), (4, 0), (8, offset + directorySize), (4, 1)]
    else
      ByteArray.empty
  let count := min count 0xFFFF
  wide ++ fields [(4, Signature.endRecord.value), (2, 0), (2, 0), (2, count), (2, count),
    (4, min directorySize narrowLimit), (4, min offset narrowLimit), (2, 0)]

def encode (members : List Member) : ByteArray :=
  let (data, directory) := members.foldl append (ByteArray.empty, ByteArray.empty)
  data ++ directory ++ ending members.length directory.size data.size

end ClassThaw.Zip
