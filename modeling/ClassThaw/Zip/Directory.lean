import ClassThaw.Zip.EndRecord
import ClassThaw.Zip.ExtraField
import Std.Data.HashMap

namespace ClassThaw.Zip

/-- The entries of a directory from a place on, `count` of them, after those in `read`. The data of
a member starts in front of the directory. -/
def DirectoryPlace.readFrom? (directory : DirectoryPlace) (data : ByteArray) :
    (count : Nat) → (place : Nat) → (read : Array Record) → Option (Array Record)
  | 0, _, read => some read
  | count + 1, place, read => do
    let parts ← RecordParts.read? data place
    let record ← parts.whole?
    let record := { record with offset := record.offset + directory.shift }
    if directory.start ≤ record.offset then
      none
    directory.readFrom? data count parts.next (read.push record)

/-- Entries no two of which have the same name, and where the entry of a name is. -/
structure RecordTable where
  records : Array Record := #[]
  index : Std.HashMap String Nat := {}

/-- Adds an entry. One of the same name gives way to it and leaves its place to it. -/
def RecordTable.put (table : RecordTable) (record : Record) : RecordTable :=
  match table.index[record.name]? with
  | some index => { table with records := table.records.setIfInBounds index record }
  | none =>
    let last := table.records.size
    { records := table.records.push record, index := table.index.insert record.name last }

def DirectoryPlace.records? (directory : DirectoryPlace) (data : ByteArray) :
    Option (List Record) := do
  if !directory.isConsistent then
    none
  let records ← directory.readFrom? data directory.count directory.start #[]
  return (records.foldl RecordTable.put {}).records.toList

/-- The entries by the last sound end record that starts in front of a place. -/
def directoryBefore (data : ByteArray) :
    (place : Nat) → (fault? : Option Fault) → Except Fault (List Record)
  | 0, fault? => .error (fault?.getD .noEndRecord)
  | place + 1, fault? =>
    if Signature.endRecord.standsAt data place then
      match EndRecord.fetch data place with
      | .error fault => directoryBefore data place (some (fault?.getD fault))
      | .ok record =>
        match record.findDirectory data place with
        | .error fault => directoryBefore data place (some fault)
        | .ok directory =>
          match directory.records? data with
          | some records => .ok records
          | none => directoryBefore data place none
    else
      directoryBefore data place fault?

def directory (data : ByteArray) : Except Fault (List Record) :=
  directoryBefore data data.size none

end ClassThaw.Zip
