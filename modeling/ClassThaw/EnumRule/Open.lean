import ClassThaw.Bytecode
import ClassThaw.Edit
import ClassThaw.EnumRule.Shape
import ClassThaw.Mutation

/-! The enum rule: values can be added to an enum after class initialisation. The field keeps its
name and type, so whatever reads it goes on working and sees the longer array. -/

namespace ClassThaw

def appendMethodName : String := "$addEnumValue"

def appendDescriptor (className : String) : String := "(L" ++ className ++ ";)V"

/-- Appends its argument to the array in a static field: local variable 0 is the value, 1 the old
array and 2 the copy that is one longer. -/
def appendInstructions (valuesField copyOf arrayClass : UInt16) : List Instruction :=
  [.indexed Opcode.getstatic valuesField,
    .plain Opcode.astore1,
    .plain Opcode.aload1,
    .plain Opcode.aload1,
    .plain Opcode.arraylength,
    .plain Opcode.iconst1,
    .plain Opcode.iadd,
    .indexed Opcode.invokestatic copyOf,
    .indexed Opcode.checkcast arrayClass,
    .plain Opcode.astore2,
    .plain Opcode.aload2,
    .plain Opcode.aload1,
    .plain Opcode.arraylength,
    .plain Opcode.aload0,
    .plain Opcode.aastore,
    .plain Opcode.aload2,
    .indexed Opcode.putstatic valuesField,
    .plain Opcode.leave]

/-- Makes the constants of the append method and returns the method. -/
def appendMethod (className valuesName valuesDescriptor : String) : PoolChange Method := do
  let valuesField ← ConstantPool.internFieldRef className valuesName valuesDescriptor
  let copyOf ← ConstantPool.internMethodRef "java/util/Arrays" "copyOf"
    "([Ljava/lang/Object;I)[Ljava/lang/Object;"
  -- The name of an array class is its descriptor.
  let arrayClass ← ConstantPool.internClass valuesDescriptor
  let code ← ConstantPool.internText AttributeKind.code.name
  let name ← ConstantPool.internText appendMethodName
  let descriptor ← ConstantPool.internText (appendDescriptor className)
  let body : MethodBody :=
    { maxStack := 3
      maxLocals := 3
      code := Instruction.assemble (appendInstructions valuesField copyOf arrayClass)
      handlers := [] }
  return {
    access := .ofFlags [.public, .static, .synchronized, .synthetic]
    name
    descriptor
    attributes := [.code code body []] }

def Member.isConstructor (method : Method) (pool : ConstantPool) : Bool :=
  match method.nameText pool with
  | .ok name => name == constructorName
  | .error _ => false

/-- The method is a constructor that is not public yet. -/
def Member.isClosedConstructor (method : Method) (pool : ConstantPool) : Bool :=
  method.isConstructor pool && !method.access.has .public

def Member.opened (method : Method) : Method :=
  { method with access := ((method.access.clear .private).clear .protected).set .public }

namespace ClassFile

/-- Every reference to the field agrees with its descriptor. -/
def checkReferences (file : ClassFile) (className field descriptor : String) : Edit Unit :=
  file.pool.entries.forM fun (index, constant) => do
    if constant.kind? = some .fieldRef then
      let reference ← Edit.lookUp (file.pool.memberReference index)
      if reference.owner = className ∧ reference.name = field ∧
          reference.descriptor ≠ descriptor then
        throw (.inconsistent className
          (.fieldType index field reference.descriptor descriptor))

def checkAfterEdit (file : ClassFile) (className : String) : Edit Unit :=
  match file.check with
  | .ok () => return ()
  | .error error => throw (.inconsistent className (.broken error))

end ClassFile

/-- The class whose array of values, the field at a position, and constructors are open. -/
def ClassFile.withOpenMembers (file : ClassFile) (valuesField : Nat) : ClassFile :=
  { file with
    fields := file.fields.modify valuesField Member.thawed
    methods := file.methods.map fun method =>
      if method.isClosedConstructor file.pool then method.opened else method }

/-- What there is to open among the members of a class whose array of values is the field at a
position. -/
def ClassFile.openPatch (file : ClassFile) (valuesField : Nat) (appendAdded : Bool) : EnumPatch :=
  { valuesOpened := file.fields[valuesField]?.any (·.access.has .final)
    constructorsOpened := file.methods.countP (·.isClosedConstructor file.pool)
    appendAdded }

def ClassFile.lacksAppend (file : ClassFile) (className : String) : Bool :=
  (file.findMethod? appendMethodName (appendDescriptor className)).isNone

def addAppendMethod (className : String) (field : Field) : Edit Unit := do
  let file ← Edit.file
  let name ← Edit.lookUp (field.nameText file.pool)
  let descriptor ← Edit.lookUp (field.descriptorText file.pool)
  let method ← Edit.changePool (appendMethod className name descriptor)
  Edit.change fun file => { file with methods := file.methods ++ [method] }

/-- What refers to the array of values agrees with the field, and the class passes its check. -/
def checkOpened (className : String) (field : Field) : Edit Unit := do
  let file ← Edit.file
  let name ← Edit.lookUp (field.nameText file.pool)
  let descriptor ← Edit.lookUp (field.descriptorText file.pool)
  file.checkReferences className name descriptor
  file.checkAfterEdit className

/-- Opens an enum whose array of values is the field at a position. -/
def openShape (valuesField : Nat) : Edit EnumPatch := do
  let before ← Edit.file
  Edit.change (·.withOpenMembers valuesField)
  let file ← Edit.file
  let className ← Edit.lookUp file.name
  let some field := file.fields[valuesField]?
    | return {}
  let appendAdded := file.lacksAppend className
  if appendAdded then
    addAppendMethod className field
  checkOpened className field
  return before.openPatch valuesField appendAdded

/-- Opens the class if it is an enum with all that the rule relies on, and leaves it as it is
otherwise. -/
def openEnum (debug : Bool) : Edit EnumPatch := do
  let file ← Edit.file
  match ← Edit.lookUp file.enumShape with
  | .notEnum => return {}
  | .unsupported obstacle => do
    -- The name of the class is looked up for the report alone.
    if debug then
      Edit.report (.enumLeftAlone (← Edit.lookUp file.name) obstacle.text)
    return {}
  | .extensible valuesField _ => openShape valuesField

end ClassThaw
