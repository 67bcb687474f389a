import ClassThaw.EnumRule.Shape
import ClassThaw.Json.Basic
import ClassThaw.Settings

namespace ClassThaw

/-- An overview of a field. -/
structure FieldSummary where
  name : String
  descriptor : String
  access : List String
  annotations : List String
  -- The marker that the first marked annotation carries.
  holderMarker? : Option Marker
  hasConstantValue : Bool
  deriving DecidableEq, Repr

structure MethodSummary where
  name : String
  descriptor : String
  access : List String
  codeLength? : Option Nat
  deriving DecidableEq, Repr

/-- An overview of a class. -/
structure Summary where
  name : String
  superName? : Option String
  interfaces : List String
  version : String
  access : List String
  annotations : List String
  -- How many constants of each kind there are, in order of the kinds' names.
  constants : List (String × Nat)
  fields : List FieldSummary
  methods : List MethodSummary
  attributes : List String
  enumShape : String
  deriving DecidableEq, Repr

namespace ConstantKind

def byLabel : List ConstantKind := all.mergeSort fun a b => a.label ≤ b.label

end ConstantKind

/-- How many constants of each kind a pool holds, in order of the kinds' names. -/
def ConstantPool.census (pool : ConstantPool) : List (String × Nat) :=
  let counts := ConstantKind.byLabel.map fun kind =>
    (kind.label, pool.slots.toList.countP fun constant => constant.kind? == some kind)
  counts.filter (0 < ·.2)

namespace Summary

def ofField (rules : HolderRules) (pool : ConstantPool) (field : Field) :
    Except FormatError FieldSummary := do
  let annotations ← field.annotationDescriptors pool
  let name ← field.nameText pool
  let descriptor ← field.descriptorText pool
  return {
    name
    descriptor
    access := field.access.labels
    annotations
    holderMarker? := annotations.findSome? rules.marker?
    hasConstantValue := field.constantValue?.isSome }

def ofMethod (pool : ConstantPool) (method : Method) : Except FormatError MethodSummary := do
  let name ← method.nameText pool
  let descriptor ← method.descriptorText pool
  return {
    name
    descriptor
    access := method.access.labels
    codeLength? := method.body?.map (·.code.length) }

def describeShape (file : ClassFile) : Except FormatError String := do
  match ← file.enumShape with
  | .notEnum => return "not an enum"
  | .unsupported obstacle => return "unsupported: " ++ obstacle.text
  | .extensible valuesField _ =>
    match file.fields[valuesField]? with
    | none => return "extensible"
    | some field => return "extensible via " ++ (← field.nameText file.pool)

/-- The overview of a class. The holder rules decide what counts as a marker. -/
def ofClass (rules : HolderRules) (file : ClassFile) : Except FormatError Summary := do
  let fields ← file.fields.mapM (ofField rules file.pool)
  let methods ← file.methods.mapM (ofMethod file.pool)
  let enumShape ← describeShape file
  let name ← file.name
  let superName? ← file.superName
  let interfaces ← file.interfaceNames
  let annotations ← file.annotationDescriptors
  let attributes ← file.attributes.mapM fun entry => file.pool.text entry.name
  return {
    name
    superName?
    interfaces
    version := s!"{file.major}.{file.minor}"
    access := file.access.labels
    annotations
    constants := file.pool.census
    fields
    methods
    attributes
    enumShape }

end Summary

namespace FieldSummary

def toJson (summary : FieldSummary) : Json :=
  .object <|
    [("name", .string summary.name),
      ("descriptor", .string summary.descriptor),
      ("access", .strings summary.access),
      ("annotations", .strings summary.annotations)]
    ++ (summary.holderMarker?.map fun marker => ("holder_marker", .string marker.label)).toList
    ++ [("has_constant_value", .bool summary.hasConstantValue)]

end FieldSummary

namespace MethodSummary

def toJson (summary : MethodSummary) : Json :=
  .object <|
    [("name", .string summary.name),
      ("descriptor", .string summary.descriptor),
      ("access", .strings summary.access)]
    ++ (summary.codeLength?.map fun length => ("code_length", .number length)).toList

end MethodSummary

namespace Summary

def toJson (summary : Summary) : Json :=
  .object
    [("name", .string summary.name),
      ("super_name", (summary.superName?.map Json.string).getD .null),
      ("interfaces", .strings summary.interfaces),
      ("version", .string summary.version),
      ("access", .strings summary.access),
      ("annotations", .strings summary.annotations),
      ("constant_pool", .object (summary.constants.map fun (kind, count) => (kind, .number count))),
      ("fields", .array (summary.fields.map (·.toJson))),
      ("methods", .array (summary.methods.map (·.toJson))),
      ("attributes", .strings summary.attributes),
      ("enum_shape", .string summary.enumShape)]

end Summary

end ClassThaw
