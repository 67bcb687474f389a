import ClassThaw.Archive.Entry
import ClassThaw.Archive.Progress
import ClassThaw.Archive.Report
import ClassThaw.Revision

namespace ClassThaw

/-- What stands in a new archive. -/
inductive Written where
  -- A copy of an entry, whose content stays packed as it is.
  | copied (entry : Entry)
  -- A file whose content is packed anew.
  | packed (name : String) (content : ByteArray)

/-- The entry as which it can be read again. -/
def Written.entry : Written → Entry
  | .copied entry => entry.copied
  | .packed name content => .file name content

/-- What has been done so far. -/
structure ArchivePass where
  report : ArchiveReport := {}
  log : Array Event := #[]
  progress : Array ProgressEvent := #[]
  -- The new archive.
  output : Array Written := #[]

namespace ArchivePass

def advance (pass : ArchivePass) (stage : Stage) (progress : Progress) : ArchivePass :=
  { pass with progress := pass.progress.push { stage, progress } }

/-- A pass over an archive of `total` entries before the first of them. -/
def start (total : Nat) : ArchivePass :=
  let pass : ArchivePass := { report := { entries := total } }
  (pass.advance .loadingEntries .unknown).advance .transformingClasses (.fraction 0 total)

def copy (pass : ArchivePass) (entry : Entry) : ArchivePass :=
  { pass with output := pass.output.push (.copied entry) }

def reviseClass (settings : Settings) (entry : Entry) (className : String) (content : ByteArray)
    (pass : ArchivePass) : ArchivePass :=
  let (result, log) := (settings.revise className content.data.toList).run.run pass.log
  let report := { pass.report with classesSeen := pass.report.classesSeen + 1 }
  match result with
  | .ok .unchanged => copy { pass with report, log } entry
  | .ok (.modified bytes mutations) =>
    { pass with
      report := report.record entry.name mutations
      log := if settings.debug then log.push (.entryPatched entry.name) else log
      output := pass.output.push (.packed entry.name ⟨bytes.toArray⟩) }
  | .error error =>
    let report := { report with classesFailed := report.classesFailed + 1 }
    copy { pass with report, log := log.push (.failed entry.name className error) } entry

/-- Visits an entry that holds this class, or none. -/
def visit (settings : Settings) (entry : Entry) (heldClass? : Option (String × ByteArray))
    (pass : ArchivePass) : ArchivePass :=
  match heldClass? with
  | none => pass.copy entry
  | some (className, content) => pass.reviseClass settings entry className content

def tick (index total : Nat) (pass : ArchivePass) : ArchivePass :=
  if index % progressInterval = 0 then
    pass.advance .transformingClasses (.fraction index total)
  else
    pass

/-- An entry at which a pass ends. -/
structure Unreadable where
  name : String
  fault : EntryFault
  deriving DecidableEq, Repr

/-- Visits the entries from an index on. A pass ends at an entry that cannot be opened, and at a
class that cannot be unpacked. -/
def visitAll (settings : Settings) (total : Nat) :
    (index : Nat) → List Entry → ArchivePass → ArchivePass × Option Unreadable
  | _, [], pass => (pass, none)
  | index, entry :: entries, pass =>
    match entry.heldClass with
    | .error fault => (pass, some { name := entry.name, fault })
    | .ok heldClass? =>
      visitAll settings total (index + 1) entries
        ((pass.visit settings entry heldClass?).tick index total)

/-- Reports that all entries have been visited and the new archive has been written. -/
def finish (pass : ArchivePass) : ArchivePass :=
  ((pass.advance .transformingClasses .finished).advance .writingArchive .unknown).advance
    .writingArchive .finished

def run (settings : Settings) (entries : List Entry) : ArchivePass × Option Unreadable :=
  match visitAll settings entries.length 0 entries (start entries.length) with
  | (pass, none) => (pass.finish, none)
  | (pass, some unreadable) => (pass, some unreadable)

end ArchivePass

end ClassThaw
