import ClassThaw.ClassFile.Read
import ClassThaw.ClassFile.Write
import ClassThaw.EnumRule.Open
import ClassThaw.HolderRule

/-! `Settings.revise` runs both rules on the bytes of a class. `Settings.deliver` is what a class
loader calls: it never fails, and hands back the bytes it was given unless the rules changed
something. -/

namespace ClassThaw

/-- What revising makes of a class. -/
inductive Revision where
  | unchanged
  | modified (bytes : Bytes) (mutations : Mutations)
  deriving DecidableEq, Repr

namespace Revision

def total : Revision → Nat
  | .unchanged => 0
  | .modified _ mutations => mutations.total

def isModified : Revision → Bool
  | .unchanged => false
  | .modified _ _ => true

end Revision

/-- The bytes a class loader gets. -/
inductive Delivery where
  | given (bytes : Bytes)
  | revised (bytes : Bytes)
  deriving DecidableEq, Repr

def Delivery.bytes : Delivery → Bytes
  | .given bytes | .revised bytes => bytes

namespace Settings

/-- Runs both rules on a class. The rules match on its dotted name. -/
def apply (settings : Settings) (className : String) : Edit Mutations := do
  let holderFields ← settings.thawFields settings.debug className
  if 0 < holderFields then
    Edit.report (.holdersOpened holderFields className)
  if !settings.openEnums then
    return { holderFields }
  let enumPatch ← openEnum settings.debug
  if !enumPatch.isEmpty then
    Edit.report (.enumOpened className)
  return { holderFields, enumPatch }

def orThrow {ε α : Type} (result : Except ε α) : Logged ε α :=
  match result with
  | .ok value => return value
  | .error error => throw error

/-- Checks and writes a class to which edits have been made. -/
def conclude (debug : Bool) (className : String) (mutations : Mutations) (file : ClassFile) :
    Logged RevisionError Revision := do
  if mutations.isEmpty then
    if debug then
      Logged.report (.unchanged className)
    return .unchanged
  orThrow (file.check.mapError fun error => .inconsistent className (.broken error))
  let revised ← orThrow (file.write.mapError .malformed)
  return .modified revised mutations

def revise (settings : Settings) (className : String) (bytes : Bytes) :
    Logged RevisionError Revision := do
  let file ← orThrow ((ClassFile.parse bytes).mapError .malformed)
  let (result, work) := (settings.apply className).on file (← get)
  set work.log
  let mutations ← orThrow result
  conclude settings.debug className mutations work.file

/-- Revises the bytes of a class that was requested by name. A failure is reported and leaves the
class unchanged. -/
def reviseOrKeep (settings : Settings) (requested className : String) (bytes : Bytes) :
    StateM (Array Event) Revision := do
  match ← (settings.revise className bytes).run with
  | .ok revision => return revision
  | .error error => do
    modify fun log => log.push (.failed requested className error)
    return .unchanged

/-- Hands a class loader the bytes of a class that was requested by name, if it has any. -/
def deliver (settings : Settings) (requested className : String) :
    Option Bytes → StateM (Array Event) (Option Delivery)
  | none => return none
  | some bytes => do
    match ← settings.reviseOrKeep requested className bytes with
    | .unchanged => return some (.given bytes)
    | .modified revised _ => return some (.revised revised)

end Settings

end ClassThaw
