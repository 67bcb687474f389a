import ClassThaw.Edit
import ClassThaw.Settings

/-! The holder rule: fields whose values are set after class initialisation lose `final`. Nothing is
changed unless all annotations can be read. -/

namespace ClassThaw

def ClassFile.thawWhere (file : ClassFile) (thaws : Field → Bool) : ClassFile :=
  { file with fields := file.fields.map fun field => if thaws field then field.thawed else field }

namespace HolderRules

/-- Looks through the annotations of the fields. The answer tells whether all fields of the class
are holders, which they may have been before (`whole`). -/
def survey (rules : HolderRules) (debug : Bool) (pool : ConstantPool) :
    (whole : Bool) → List Field → Logged FormatError Bool
  | whole, [] => return whole
  | whole, field :: fields => do
    let descriptors ← field.annotationDescriptors pool
    if rules.anyIs .itemStackHolder descriptors then
      -- The name of the field is looked up for the report alone.
      if debug && !whole then
        Logged.report (.escalated .itemStackHolder (← field.nameText pool))
      survey rules debug pool true fields
    else
      survey rules debug pool whole fields

/-- All fields of the class are holders. -/
def coversClass (rules : HolderRules) (debug : Bool) (className : String) (file : ClassFile) :
    Logged FormatError Bool := do
  if rules.isForced className then
    rules.survey debug file.pool true file.fields
  else
    let descriptors ← file.annotationDescriptors
    rules.survey debug file.pool (rules.anyIsMarker descriptors) file.fields

def carries (rules : HolderRules) (marker : Marker) (pool : ConstantPool) (field : Field) : Bool :=
  match field.annotationDescriptors pool with
  | .ok descriptors => rules.anyIs marker descriptors
  | .error _ => false

/-- The field is final and is a holder, given whether all fields are. -/
def thaws (rules : HolderRules) (pool : ConstantPool) (whole : Bool) (field : Field) : Bool :=
  field.access.has .final && (whole || rules.carries .objectHolder pool field)

/-- Clears `final` on the holder fields of a class and returns how many had it. -/
def thawFields (rules : HolderRules) (debug : Bool) (className : String) : Edit Nat := do
  let file ← Edit.file
  let whole ← Edit.logged (rules.coversClass debug className file)
  let thaws := rules.thaws file.pool whole
  Edit.change (·.thawWhere thaws)
  return file.fields.countP thaws

end HolderRules

end ClassThaw
