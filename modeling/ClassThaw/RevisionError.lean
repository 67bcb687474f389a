import ClassThaw.FormatError

namespace ClassThaw

/-- What is wrong with a class after an edit. -/
inductive Inconsistency where
  -- A field reference gives the array of values another type than the field has.
  | fieldType (index : UInt16) (field found expected : String)
  -- The class does not pass its check.
  | broken (error : FormatError)
  deriving DecidableEq, Repr

def Inconsistency.message : Inconsistency → String
  | .fieldType index field found expected =>
    s!"field reference #{index} reads {field} as {found} but the field is {expected}"
  | .broken error => error.message

/-- Why a class cannot be revised. -/
inductive RevisionError where
  | malformed (error : FormatError)
  | inconsistent (className : String) (cause : Inconsistency)
  deriving DecidableEq, Repr

def RevisionError.message : RevisionError → String
  | .malformed error => s!"malformed class container: {error.message}"
  | .inconsistent className cause =>
    s!"mutation of {className} left it inconsistent: {cause.message}"

def RevisionError.cause? : RevisionError → Option String
  | .malformed error => some error.message
  | .inconsistent _ _ => none

end ClassThaw
