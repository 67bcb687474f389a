import ClassThaw.Archive.Progress
import ClassThaw.Event

/-! What a command does to its surroundings, as a value. A script can be carried out on a directory
held in memory (`Disk`) or on the file system. -/

namespace ClassThaw

inductive FileError where
  | notFound
  | notDirectory
  | isDirectory
  | nameTooLong
  | notText
  | other (message : String)
  deriving DecidableEq, Repr

def FileError.message : FileError → String
  | .notFound => "No such file or directory (os error 2)"
  | .notDirectory => "Not a directory (os error 20)"
  | .isDirectory => "Is a directory (os error 21)"
  | .nameTooLong => "File name too long (os error 36)"
  | .notText => "stream did not contain valid UTF-8"
  | .other message => message

/-- Why a command fails: what it could not do, and the errors behind that. -/
structure Failure where
  message : String
  causes : List String := []
  deriving DecidableEq, Repr

/-- A text whose lines after the first are indented. -/
def indented (indentation : Nat) (text : String) : String :=
  String.ofList <| text.toList.flatMap fun char =>
    if char = '\n' then char :: List.replicate indentation ' ' else [char]

/-- The report on a failure. Several causes are numbered. -/
def Failure.report (failure : Failure) : String :=
  let causes :=
    match failure.causes with
    | [] => ""
    | [cause] => "\n\nCaused by:\n    " ++ indented 4 cause
    | causes =>
      let lines := causes.zipIdx.map fun (cause, index) =>
        let number := toString index
        "\n" ++ String.ofList (List.replicate (5 - number.length) ' ') ++ number ++ ": " ++
          indented 7 cause
      "\n\nCaused by:" ++ String.join lines
  "Error: " ++ failure.message ++ causes ++ "\n"

/-- A script that ends with a value of type `α`. -/
inductive Script (α : Type) where
  | done (value : α)
  | fail (failure : Failure)
  | read (path : String) (next : Except FileError ByteArray → Script α)
  -- Makes a file empty, which need not have been there.
  | create (path : String) (next : Except FileError Unit → Script α)
  | write (path : String) (content : ByteArray) (next : Except FileError Unit → Script α)
  | print (text : String) (next : Script α)
  | report (event : Event) (next : Script α)
  | advance (event : ProgressEvent) (next : Script α)

namespace Script

variable {α β : Type}

def andThen : Script α → (α → Script β) → Script β
  | .done value, next => next value
  | .fail failure, _ => .fail failure
  | .read path rest, next => .read path fun answer => (rest answer).andThen next
  | .create path rest, next => .create path fun answer => (rest answer).andThen next
  | .write path content rest, next => .write path content fun answer => (rest answer).andThen next
  | .print text rest, next => .print text (rest.andThen next)
  | .report event rest, next => .report event (rest.andThen next)
  | .advance event rest, next => .advance event (rest.andThen next)

instance : Monad Script where
  pure := .done
  bind := andThen

/-- Fails with a message and the message of the error behind it. -/
def failWith (message cause : String) : Script α := .fail { message, causes := [cause] }

/-- The content of a file, or a failure for the error. -/
def readOr (failure : FileError → Failure) (path : String) : Script ByteArray :=
  .read path fun
    | .ok content => .done content
    | .error error => .fail (failure error)

def createOr (failure : FileError → Failure) (path : String) : Script Unit :=
  .create path fun
    | .ok () => .done ()
    | .error error => .fail (failure error)

def writeOr (failure : FileError → Failure) (path : String) (content : ByteArray) : Script Unit :=
  .write path content fun
    | .ok () => .done ()
    | .error error => .fail (failure error)

def line (text : String) : Script Unit := .print (text ++ "\n") (.done ())

def reportAll : List Event → Script Unit
  | [] => .done ()
  | event :: events => .report event (reportAll events)

def advanceAll : List ProgressEvent → Script Unit
  | [] => .done ()
  | event :: events => .advance event (advanceAll events)

end Script

end ClassThaw
