import ClassThaw.Archive.Damage
import ClassThaw.Archive.EntryName
import ClassThaw.Zip.Fault

namespace ClassThaw

/-- Why the content of an entry cannot be read. -/
inductive EntryFault where
  -- The entry cannot be opened.
  | closed (fault : Zip.Fault)
  -- The entry can be opened, but its content cannot be unpacked.
  | damaged (damage : Damage)
  deriving DecidableEq, Repr

/-- An entry of an archive. -/
structure Entry where
  name : String
  -- The archive has the entry as a symbolic link.
  isLink : Bool
  content : Except EntryFault ByteArray

namespace Entry

/-- An entry is a directory by its name. -/
def isDirectory (entry : Entry) : Bool :=
  let last := entry.name.toList.getLast?
  last == some '/' || last == some '\\'

def isFile (entry : Entry) : Bool := !entry.isDirectory && !entry.isLink

def file (name : String) (content : ByteArray) : Entry :=
  { name, isLink := false, content := .ok content }

/-- The copy of the entry in another archive. The copy of a link is a file with the link's target
as its content. -/
def copied (entry : Entry) : Entry := { entry with isLink := false }

/-- The dotted name of the class that an entry holds, if it is a file. -/
def className? (entry : Entry) : Option String :=
  if entry.isFile then entryClassName? entry.name else none

/-- The dotted name and the bytes of the class that an entry holds, if it holds one. Every entry
has to be opened, but only a class is unpacked. -/
def heldClass (entry : Entry) : Except EntryFault (Option (String × ByteArray)) :=
  match entry.className?, entry.content with
  | _, .error (.closed fault) => .error (.closed fault)
  | none, _ => .ok none
  | some className, content => content.map fun content => some (className, content)

end Entry

end ClassThaw
