import ClassThaw.ClassFile

/-! A class is an enum if it is flagged as one or extends `java/lang/Enum` directly. The rule relies
on a static field that holds the array of its values and on constructors. -/

namespace ClassThaw

def enumBase : String := "java/lang/Enum"

/-- The names that compilers give to the array of values, in order of preference. -/
def valuesFieldNames : List String := ["$VALUES", "ENUM$VALUES"]

inductive EnumObstacle where
  | isInterface
  | noValuesField
  | noConstructor
  deriving DecidableEq, Repr

def EnumObstacle.text : EnumObstacle → String
  | .isInterface => "interface flagged as enum"
  | .noValuesField => "no values array field"
  | .noConstructor => "no constructor"

/-- What there is to open in a class. -/
inductive EnumShape where
  | notEnum
  | unsupported (obstacle : EnumObstacle)
  -- The positions of the field with the array of values and of the constructors.
  | extensible (valuesField : Nat) (constructors : List Nat)
  deriving DecidableEq, Repr

/-- A field that may hold the array of values. -/
structure ValuesCandidate where
  position : Nat
  name : String
  isSynthetic : Bool
  deriving DecidableEq, Repr

def arrayDescriptor (className : String) : String := "[L" ++ className ++ ";"

namespace ClassFile

/-- The class is flagged as an enum or extends the class of enums. -/
def isEnum (file : ClassFile) : Except FormatError Bool := do
  if file.access.has .enum then
    return true
  return (← file.superName) == some enumBase

/-- The static fields whose type is the array of a class. -/
def valuesCandidates (file : ClassFile) (className : String) :
    Except FormatError (List ValuesCandidate) :=
  file.fields.zipIdx.filterMapM fun (field, position) => do
    if !field.access.has .static then
      return none
    if (← field.descriptorText file.pool) ≠ arrayDescriptor className then
      return none
    let name ← field.nameText file.pool
    return some { position, name, isSynthetic := field.access.has .synthetic }

def constructors (file : ClassFile) : Except FormatError (List Nat) :=
  file.methods.zipIdx.filterMapM fun (method, position) => do
    return if (← method.nameText file.pool) = constructorName then some position else none

end ClassFile

/-- The position of the field that holds the array of values: the first with one of the names that
compilers give, or else the first that a compiler has added. -/
def ValuesCandidate.choose? (candidates : List ValuesCandidate) : Option Nat :=
  let named := valuesFieldNames.findSome? fun name => candidates.find? (·.name == name)
  (named <|> candidates.find? (·.isSynthetic)).map (·.position)

def ClassFile.enumShape (file : ClassFile) : Except FormatError EnumShape := do
  if !(← file.isEnum) then
    return .notEnum
  if file.access.has .interface then
    return .unsupported .isInterface
  let candidates ← file.valuesCandidates (← file.name)
  match ValuesCandidate.choose? candidates with
  | none => return .unsupported .noValuesField
  | some valuesField =>
    match ← file.constructors with
    | [] => return .unsupported .noConstructor
    | constructors => return .extensible valuesField constructors

end ClassThaw
