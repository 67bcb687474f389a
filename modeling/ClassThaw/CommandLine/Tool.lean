import ClassThaw.Archive.Pass
import ClassThaw.CommandLine.Arguments
import ClassThaw.CommandLine.Script
import ClassThaw.Configuration.Parse
import ClassThaw.Digest.Md5
import ClassThaw.Summary
import ClassThaw.Zip.Archive

namespace ClassThaw

inductive Tool where
  | revise
  | dump
  | integrity
  deriving DecidableEq, Repr

namespace Tool

def all : List Tool := [.revise, .dump, .integrity]

def name : Tool → String
  | .revise => "main"
  | .dump => "dump"
  | .integrity => "patch-integrity"

def ofName? (name : String) : Option Tool := all.find? (·.name == name)

def grammar : Tool → Grammar
  | .revise =>
    { minOperands := 2
      maxOperands := 2
      values :=
        [⟨"config", Grammar.isPath⟩, ⟨"match-mode", fun word => (Matching.ofLabel? word).isSome⟩,
          ⟨"report", Grammar.isPath⟩]
      switches := [{ name := "no-enums" }, { name := "quiet", short? := some 'q' }] }
  | .dump =>
    { minOperands := 1
      maxOperands := 2
      values := [⟨"config", Grammar.isPath⟩]
      switches := [] }
  | .integrity =>
    { minOperands := 1
      maxOperands := 1
      values := [⟨"name", fun _ => true⟩, ⟨"config", Grammar.isPath⟩]
      switches := [] }

def versionText : String := "unfinalize 0.1.0\n"

def helpText (tool : Tool) : String :=
  String.join ((lines tool).map (· ++ "\n"))
where
  -- The lines of the answer.
  lines : Tool → List String
    | .revise =>
      ["Unfinalize holder fields and open up enums in a jar or a single class",
        "",
        "Usage: main [OPTIONS] <INPUT> <OUTPUT>",
        "",
        "Arguments:",
        "  <INPUT>   Input JAR or .class file",
        "  <OUTPUT>  Output path",
        "",
        "Options:",
        "      --config <CONFIG>          Transformer config (JSON)",
        "      --match-mode <MATCH_MODE>  Override the annotation matching mode",
        "      --no-enums                 Leave enum classes alone",
        "      --report <REPORT>          Write the jar report as JSON here",
        "  -q, --quiet                    Hide the progress bar",
        "  -h, --help                     Print help",
        "  -V, --version                  Print version"]
    | .dump =>
      ["Print a JSON overview of a class file",
        "",
        "Usage: dump [OPTIONS] <CLASS> [OUTPUT]",
        "",
        "Arguments:",
        "  <CLASS>   Input .class file",
        "  [OUTPUT]  Output JSON, stdout when omitted",
        "",
        "Options:",
        "      --config <CONFIG>  Transformer config (JSON) used to resolve holder markers",
        "  -h, --help             Print help",
        "  -V, --version          Print version"]
    | .integrity =>
      ["Transform a class and check the result is sound: it parses, validates, and a second " ++
          "pass leaves it alone",
        "",
        "Usage: patch-integrity [OPTIONS] <CLASS>",
        "",
        "Arguments:",
        "  <CLASS>  Input .class file",
        "",
        "Options:",
        "      --name <NAME>      Dotted class name to match on, taken from the class itself " ++
          "when omitted",
        "      --config <CONFIG>  Transformer config (JSON)",
        "  -h, --help             Print help",
        "  -V, --version          Print version"]

def listOf (content : ByteArray) : Bytes := content.data.toList

def arrayOf (bytes : Bytes) : ByteArray := ⟨bytes.toArray⟩

/-- Fails for a file that cannot be dealt with. -/
def failure (action path : String) (error : FileError) : Failure :=
  { message := action ++ " " ++ path, causes := [error.message] }

/-- Ends a script with a value or with a failure for the error. -/
def orFail {ε α : Type} (failure : ε → Failure) : Except ε α → Script α
  | .ok value => .done value
  | .error error => .fail (failure error)

/-- A failure without errors behind it. -/
def plain (error : FormatError) : Failure := { message := error.message }

def ofRevisionError (error : RevisionError) : Failure :=
  { message := error.message, causes := error.cause?.toList }

/-- The settings in the file that the arguments name, or the default. -/
def configuration (arguments : Arguments) : Script Configuration :=
  match arguments.value? "config" with
  | none => .done {}
  | some path => do
    let unreadable (error : FileError) : Failure :=
      { message := "failed to read " ++ path ++ ": " ++ error.message,
        causes := [error.message] }
    let content ← Script.readOr unreadable path
    match String.fromUTF8? content with
    | none => .fail (unreadable .notText)
    | some text =>
      match Configuration.parse? text with
      | some config => .done config
      | none =>
        Script.failWith "invalid transformer config: not a valid configuration"
          "not a valid configuration"

/-- The tools report nothing below the level of information. -/
def settingsOf (config : Configuration) : Settings := config.settings false

def readClass (path : String) : Script (Bytes × ClassFile) := do
  let bytes := listOf (← Script.readOr (failure "failed to read" path) path)
  let file ← orFail
    (fun error => { message := path ++ " is not a class file", causes := [error.message] })
    (ClassFile.parse bytes)
  return (bytes, file)

/-- The ending of a file's name after its last dot, unless the name has no other part. -/
def extension? (path : String) : Option String :=
  let parts := (path.splitOn "/").filter fun part => part ≠ "" ∧ part ≠ "."
  match parts.getLast? with
  | none | some ".." => none
  | some name =>
    let ending := (name.toList.reverse.takeWhile (· ≠ '.')).reverse
    if ending.length + 1 < name.length then some (String.ofList ending) else none

def countLines (counts : List (Mutation × Nat)) : List String :=
  counts.map fun (kind, count) => s!"  {kind.label}: {count}"

def ofFault (fault : Zip.Fault) : Failure :=
  { message := fault.message, causes := fault.cause?.toList }

def ofUnreadable (unreadable : ArchivePass.Unreadable) : Failure :=
  match unreadable.fault with
  | .closed fault => ofFault fault
  | .damaged damage =>
    { message := "failed to read " ++ unreadable.name, causes := [damage.message] }

/-- The member of a new archive that has the place of a record. A copy keeps the packed data. -/
def newMember? (data : ByteArray) (record : Zip.Record) : Written → Option Zip.Member
  | .copied _ => (record.fetch data).toOption.map Zip.Member.copied
  | .packed name content => some (.packedFile name content)

def newMembers (data : ByteArray) (records : List Zip.Record) (output : List Written) :
    List Zip.Member :=
  (records.zip output).filterMap fun (record, written) => newMember? data record written

/-- Revises an archive. The directory is read before the new archive is created, and the members
after that. A pass that ends early leaves the entries before that in the new archive. -/
def reviseArchive (settings : Settings) (source target : String) : Script ArchiveReport := do
  let notReadable (cause : String) (causes : List String) : Failure :=
    { message := source ++ " is not a readable jar", causes := cause :: causes }
  let data ← Script.readOr
    (fun error => match error with
      | .isDirectory => notReadable Zip.Fault.unexpectedEnd.message [error.message]
      | _ => failure "failed to open" source error) source
  let records ← orFail (fun fault => notReadable fault.message fault.cause?.toList)
    (Zip.directory data)
  Script.createOr (failure "failed to create" target) target
  let data ← Script.readOr (failure "failed to open" source) source
  let (pass, unreadable?) := ArchivePass.run settings (records.map (·.toEntry data))
  let report := pass.report
  Script.advanceAll pass.progress.toList
  Script.reportAll pass.log.toList
  Script.writeOr (fun error => { message := error.message }) target
    (Zip.encode (newMembers data records pass.output.toList))
  match unreadable? with
  | some unreadable => .fail (ofUnreadable unreadable)
  | none => do
    Script.reportAll
      [.archiveRevised report.classesModified report.classesSeen source target]
    return report

/-- Revises the bytes of a class, on whose dotted name the rules match, and writes the outcome. -/
def reviseNamed (settings : Settings) (name target : String) (bytes : Bytes) : Script Unit := do
  let (revision, log) := (settings.reviseOrKeep name name bytes).run #[]
  Script.reportAll log.toList
  let unwritten (error : FileError) : Failure := { message := error.message }
  match revision with
  | .unchanged => do
    Script.line (name ++ ": unchanged")
    Script.writeOr unwritten target (arrayOf bytes)
  | .modified revised mutations => do
    Script.line s!"{name}: {mutations.total} mutations"
    (countLines mutations.toList).forM Script.line
    Script.writeOr unwritten target (arrayOf revised)

def reviseClass (settings : Settings) (source target : String) : Script Unit := do
  let (bytes, file) ← readClass source
  let name ← orFail plain file.ownName
  reviseNamed settings name target bytes

/-- Revises an archive or, if its name ends so, a class. -/
def runRevise (arguments : Arguments) (source target : String) : Script Unit := do
  let config ← configuration arguments
  let config :=
    match (arguments.value? "match-mode").bind Matching.ofLabel? with
    | none => config
    | some matching => { config with matching }
  let config :=
    if arguments.has "no-enums" then { config with openEnums := false } else config
  let settings := settingsOf config
  if extension? source = some "class" then
    reviseClass settings source target
  else
    let report ← reviseArchive settings source target
    Script.line (s!"Modified {report.classesModified} of {report.classesSeen} classes " ++
      s!"({report.classesFailed} failed)")
    (countLines report.mutations.toList).forM Script.line
    match arguments.value? "report" with
    | none => return ()
    | some path =>
      Script.writeOr (failure "failed to write" path) path report.toJson.pretty.toUTF8

/-- Prints an overview of a class, or writes it to a file. -/
def runDump (arguments : Arguments) (source : String) (target? : Option String) :
    Script Unit := do
  let config ← configuration arguments
  let (_, file) ← readClass source
  let summary ← orFail plain (Summary.ofClass config.rules file)
  let text := summary.toJson.pretty ++ "\n"
  match target? with
  | none => .print text (.done ())
  | some target =>
    Script.writeOr (failure "failed to create" target) target text.toUTF8

/-- Checks that the bytes of a revised class are sound: they are a class, it is written as it was
read, and revising it again changes nothing. -/
def examine (settings : Settings) (name : String) (output : Bytes) : Script Unit := do
  let because (message : String) (error : FormatError) : Failure :=
    { message, causes := [error.message] }
  let file ← orFail (because "output does not parse") (ClassFile.parse output)
  orFail (because "output does not validate") file.check
  let again ← orFail plain file.serialize
  if again ≠ output then
    .fail { message := "output does not round-trip byte for byte" }
  let (second, log) := (settings.revise name output).run.run #[]
  Script.reportAll log.toList
  if (← orFail ofRevisionError second).isModified then
    .fail { message := "second pass changed the output again" }
  Script.line "ok"

/-- Revises a class and checks that the result is sound. -/
def runIntegrity (arguments : Arguments) (source : String) : Script Unit := do
  let settings := settingsOf (← configuration arguments)
  let input := listOf (← Script.readOr (failure "failed to read" source) source)
  let name ←
    match arguments.value? "name" with
    | some name => .done name
    | none => orFail plain (do (← ClassFile.parse input).ownName)
  Script.line s!"input  {Md5.hexDigest input}  {name}"
  let (result, log) := (settings.revise name input).run.run #[]
  Script.reportAll log.toList
  match ← orFail ofRevisionError result with
  | .unchanged => Script.line "unchanged"
  | .modified output mutations => do
    Script.line s!"output {Md5.hexDigest output}  {mutations.total} mutations"
    examine settings name output

def script (tool : Tool) (arguments : Arguments) : Script Unit :=
  match tool, arguments.operand? 0, arguments.operand? 1 with
  | .revise, some source, some target => runRevise arguments source target
  | .dump, some source, target? => runDump arguments source target?
  | .integrity, some source, _ => runIntegrity arguments source
  | _, _, _ => .done ()

def misuseCode : UInt8 := 2

def failureCode : UInt8 := 1

end Tool

end ClassThaw
