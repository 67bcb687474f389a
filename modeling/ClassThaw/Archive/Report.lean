import ClassThaw.Json.Basic
import ClassThaw.Mutation
import Std.Data.ExtTreeMap

namespace ClassThaw

/-- The number of edits of each kind of which there are any. -/
abbrev MutationCounts := Std.ExtTreeMap Mutation Nat

namespace MutationCounts

def add (counts : MutationCounts) : Mutation × Nat → MutationCounts
  | (kind, count) => counts.alter kind fun count? => some (count?.getD 0 + count)

def total (counts : MutationCounts) : Nat := counts.foldl (fun total _ count => total + count) 0

end MutationCounts

/-- The totals of an archive. -/
structure ArchiveReport where
  entries : Nat := 0
  classesSeen : Nat := 0
  classesModified : Nat := 0
  -- The classes that could not be revised and were copied as they were.
  classesFailed : Nat := 0
  mutations : MutationCounts := ∅
  -- The names of the entries that were revised, in their order in the archive.
  modified : Array String := #[]
  deriving DecidableEq

namespace ArchiveReport

def record (report : ArchiveReport) (entry : String) (mutations : Mutations) : ArchiveReport :=
  { report with
    classesModified := report.classesModified + 1
    mutations := mutations.toList.foldl MutationCounts.add report.mutations
    modified := report.modified.push entry }

def mutationsJson (counts : List (Mutation × Nat)) : Json :=
  .object (counts.map fun (kind, count) => (kind.label, .number count))

def toJson (report : ArchiveReport) : Json :=
  .object
    [("entries", .number report.entries),
      ("classes_seen", .number report.classesSeen),
      ("classes_modified", .number report.classesModified),
      ("classes_failed", .number report.classesFailed),
      ("mutations", mutationsJson report.mutations.toList),
      ("modified", .strings report.modified.toList)]

end ArchiveReport

end ClassThaw
