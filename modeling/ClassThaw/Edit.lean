import ClassThaw.ClassFile
import ClassThaw.ConstantPool.Intern
import ClassThaw.Event

namespace ClassThaw

/-- A class that is being changed, and the events so far. -/
structure Workpiece where
  file : ClassFile
  log : Array Event := #[]

/-- A change of a class. -/
abbrev Edit := ExceptT RevisionError (StateM Workpiece)

namespace Edit

variable {α : Type}

def file : Edit ClassFile := return (← get).file

def change (f : ClassFile → ClassFile) : Edit Unit :=
  modify fun work => { work with file := f work.file }

def report (event : Event) : Edit Unit :=
  modify fun work => { work with log := work.log.push event }

/-- Looks something up, where a failure means that the class is malformed. -/
def lookUp (result : Except FormatError α) : Edit α :=
  match result with
  | .ok value => return value
  | .error error => throw (.malformed error)

def changePool (change : PoolChange α) : Edit α := do
  let work ← get
  let (result, pool) := change.run work.file.pool
  set { work with file := { work.file with pool } }
  lookUp result

/-- Reports events about the class, where a failure means that the class is malformed. -/
def logged (action : Logged FormatError α) : Edit α := do
  let work ← get
  let (result, log) := action.run work.log
  set { work with log }
  lookUp result

/-- The outcome of an edit together with the class and the events it leaves. -/
def on (edit : Edit α) (file : ClassFile) (log : Array Event) :
    Except RevisionError α × Workpiece :=
  edit.run { file, log }

end Edit

end ClassThaw
