import ClassThaw.ClassFile

namespace ClassThaw

def withoutEnding? (ending text : List Char) : Option (List Char) :=
  if ending.isSuffixOf text then some (text.take (text.length - ending.length)) else none

def withoutBeginning? (beginning text : List Char) : Option (List Char) :=
  if beginning.isPrefixOf text then some (text.drop beginning.length) else none

def afterSlash? : List Char → Option (List Char)
  | [] => none
  | char :: rest => if char = '/' then some rest else afterSlash? rest

/-- What follows the last slash, or the whole text if it has none. -/
def lastSegment (text : List Char) : List Char :=
  (text.reverse.takeWhile (· ≠ '/')).reverse

/-- The folder of the classes that only some versions of the platform load. -/
def versionsFolder : String := "META-INF/versions/"

/-- The internal name of the class that an entry holds. A class for some versions of the platform
has the name of the class it takes the place of. Descriptions of modules are no classes. -/
def entryClass? (entry : List Char) : Option (List Char) := do
  let stem ← withoutEnding? ".class".toList entry
  let name ←
    match withoutBeginning? versionsFolder.toList stem with
    | none => some stem
    | some versioned => afterSlash? versioned
  let last := lastSegment name
  if last.isEmpty ∨ last = "module-info".toList then none else some name

def entryClassName? (entry : String) : Option String :=
  (entryClass? entry.toList).map fun name => dottedName (String.ofList name)

end ClassThaw
