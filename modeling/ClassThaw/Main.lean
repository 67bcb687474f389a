import ClassThaw.CommandLine.Tool

namespace ClassThaw

/-- The number of a system error. Some operations give it negated. -/
def errorNumber (code : UInt32) : UInt32 := min code (0 - code)

def fileError (error : IO.Error) : FileError :=
  match error with
  | .noFileOrDirectory _ _ _ => .notFound
  | .inappropriateType _ code _ | .invalidArgument _ code _ =>
    match errorNumber code with
    | 20 => .notDirectory
    | 21 => .isDirectory
    | 36 => .nameTooLong
    | _ => .other (toString error)
  | error => .other (toString error)

def attempt {α : Type} (action : IO α) : IO (Except FileError α) := do
  match ← action.toBaseIO with
  | .ok value => return .ok value
  | .error error => return .error (fileError error)

/-- Carries a script out on the file system. Events go to the standard error stream. -/
def Script.perform {α : Type} : Script α → IO (Except Failure α)
  | .done value => return .ok value
  | .fail failure => return .error failure
  | .read path next => do (next (← attempt (IO.FS.readBinFile path))).perform
  | .create path next => do
    (next (← attempt (IO.FS.writeBinFile path ByteArray.empty))).perform
  | .write path content next => do (next (← attempt (IO.FS.writeBinFile path content))).perform
  | .print text next => do
    IO.print text
    next.perform
  | .report event next => do
    IO.eprintln s!"{event.level.label} {event.message}"
    next.perform
  | .advance _ next => next.perform

/-- Runs a tool and returns its exit code. -/
def Tool.main (tool : Tool) (arguments : List String) : IO UInt8 := do
  match tool.grammar.request arguments with
  | .misuse => do
    IO.eprint tool.helpText
    return misuseCode
  | .help => do
    IO.print tool.helpText
    return 0
  | .version => do
    IO.print versionText
    return 0
  | .run arguments => do
    match ← (tool.script arguments).perform with
    | .ok () => return 0
    | .error failure => do
      IO.eprint failure.report
      return failureCode

end ClassThaw

open ClassThaw in
def main (arguments : List String) : IO UInt32 := do
  match arguments.head?.bind Tool.ofName? with
  | some tool => return (← tool.main arguments.tail).toUInt32
  | none => do
    IO.eprintln ("The first argument names a tool: " ++ ", ".intercalate (Tool.all.map Tool.name))
    return Tool.misuseCode.toUInt32
