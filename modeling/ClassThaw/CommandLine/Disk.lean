import ClassThaw.CommandLine.Script

namespace ClassThaw

/-- The files below a working directory, by the parts of their paths. There are just the directories
that some file lies in. What lies above the working directory cannot be seen. -/
structure Disk where
  files : List (List String × ByteArray)

inductive Folder where
  | inside (parts : List String)
  -- A directory above the working directory.
  | above
  deriving DecidableEq, Repr

namespace Disk

/-- The parts of a relative path. -/
def parts (path : String) : List String :=
  (path.splitOn "/").filter fun part => part ≠ "" ∧ part ≠ "."

def find? (disk : Disk) (parts : List String) : Option ByteArray :=
  disk.files.lookup parts

def isDirectory (disk : Disk) (parts : List String) : Bool :=
  parts.isEmpty ||
    disk.files.any fun (file, _) => parts.isPrefixOf file && parts.length < file.length

/-- The greatest number of bytes in the name of a file. -/
def longestName : Nat := 255

/-- The greatest number of bytes in a path. -/
def longestPath : Nat := 4095

/-- The directory that a part of a path leads to from a directory. -/
def enter (disk : Disk) (folder : Folder) (part : String) : Except FileError Folder :=
  if part = "." then
    .ok folder
  else if part = ".." then
    match folder with
    | .inside [] | .above => .ok .above
    | .inside parts => .ok (.inside parts.dropLast)
  else if longestName < part.utf8ByteSize then
    .error .nameTooLong
  else
    match folder with
    | .above => .error .notFound
    | .inside parts =>
      let parts := parts ++ [part]
      if disk.isDirectory parts then .ok (.inside parts)
      else .error (if (disk.find? parts).isSome then .notDirectory else .notFound)

/-- What a name stands for in a directory. The file need not be there. -/
inductive Target where
  | directory
  | file (parts : List String)
  -- A file above the working directory.
  | unseen

def target (disk : Disk) (folder : Folder) (name : String) : Except FileError Target :=
  if longestName < name.utf8ByteSize then
    .error .nameTooLong
  else
    match folder with
    | .above => .ok .unseen
    | .inside parts =>
      .ok (if disk.isDirectory (parts ++ [name]) then .directory else .file (parts ++ [name]))

/-- A path: the directories that it leads through, and the name at its end. -/
structure Route where
  -- The directory in which the path starts.
  origin : Folder
  steps : List String
  -- The name, unless the path ends with one dot or two.
  name? : Option String
  -- A slash follows the name.
  isSlashed : Bool

def Route.ofPath (path : String) : Route :=
  let steps := (path.splitOn "/").filter (· ≠ "")
  let origin := if path.startsWith "/" then Folder.above else .inside []
  match steps.getLast? with
  | none | some "." | some ".." => { origin, steps, name? := none, isSlashed := false }
  | some name =>
    { origin, steps := steps.dropLast, name? := some name, isSlashed := path.endsWith "/" }

/-- Follows a path up to the name at its end. -/
def follow (disk : Disk) (path : String) : Except FileError (Route × Folder) := do
  if path = "" then
    throw .notFound
  if longestPath < path.utf8ByteSize then
    throw .nameTooLong
  let route := Route.ofPath path
  return (route, ← route.steps.foldlM disk.enter route.origin)

def read (disk : Disk) (path : String) : Except FileError ByteArray := do
  let (route, folder) ← disk.follow path
  let some name := route.name?
    | throw .isDirectory
  if route.isSlashed then
    let _ ← disk.enter folder name
    throw .isDirectory
  match ← disk.target folder name with
  | .directory => throw .isDirectory
  | .unseen => throw .notFound
  | .file parts =>
    match disk.find? parts with
    | none => throw .notFound
    | some content => return content

/-- The directory after a file has been given a content. A name with a slash behind it counts as
that of a directory, whether there is one or not. -/
def write (disk : Disk) (path : String) (content : ByteArray) : Except FileError Disk := do
  let (route, folder) ← disk.follow path
  let some name := route.name?
    | throw .isDirectory
  if route.isSlashed then
    throw .isDirectory
  match ← disk.target folder name with
  | .directory => throw .isDirectory
  | .unseen => return disk
  | .file parts => return ⟨disk.files.filter (·.1 ≠ parts) ++ [(parts, content)]⟩

end Disk

structure Run where
  disk : Disk
  printed : String := ""
  log : Array Event := #[]
  progress : Array ProgressEvent := #[]

/-- Carries a script out on a directory held in memory. -/
def Script.run {α : Type} : Script α → Run → Except Failure α × Run
  | .done value, run => (.ok value, run)
  | .fail failure, run => (.error failure, run)
  | .read path next, run => (next (run.disk.read path)).run run
  | .create path next, run =>
    match run.disk.write path ByteArray.empty with
    | .ok disk => (next (.ok ())).run { run with disk }
    | .error error => (next (.error error)).run run
  | .write path content next, run =>
    match run.disk.write path content with
    | .ok disk => (next (.ok ())).run { run with disk }
    | .error error => (next (.error error)).run run
  | .print text next, run => next.run { run with printed := run.printed ++ text }
  | .report event next, run => next.run { run with log := run.log.push event }
  | .advance event next, run => next.run { run with progress := run.progress.push event }

end ClassThaw
