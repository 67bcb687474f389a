namespace ClassThaw

/-- The stages of revising an archive. -/
inductive Stage where
  | loadingEntries
  | transformingClasses
  | writingArchive
  deriving DecidableEq, Repr

def Stage.text : Stage → String
  | .loadingEntries => "Loading Entries"
  | .transformingClasses => "Transforming Classes"
  | .writingArchive => "Writing JAR"

/-- How much of a stage is done. -/
inductive Progress where
  | unknown
  -- `part` of `whole` entries.
  | fraction (part whole : Nat)
  | finished
  deriving DecidableEq, Repr

/-- A fraction as a number, zero for no entries at all. -/
def Progress.ratio (part whole : Nat) : Float32 :=
  if part = 0 then 0 else Float32.ofNat part / Float32.ofNat whole

structure ProgressEvent where
  stage : Stage
  progress : Progress
  deriving DecidableEq, Repr

/-- Progress is reported after the first of so many entries. -/
def progressInterval : Nat := 200

end ClassThaw
