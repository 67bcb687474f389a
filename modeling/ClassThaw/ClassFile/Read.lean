import ClassThaw.ClassFile
import ClassThaw.Reader

namespace ClassThaw

/-- The major versions that are read: those of Java 1.1 to 25. -/
def isSupported (major : UInt16) : Bool := 45 ≤ major && major ≤ 69

namespace ConstantPool

open Reader

/-- The content of a constant, after the tag that tells its kind. -/
def readContent : ConstantKind → Reader Constant
  | .utf8 => return .utf8 (← take (← word16).toNat)
  | .integer => return .integer (← word32).toInt32
  | .float => return .float (← word32)
  | .long => return .long (← word64).toInt64
  | .double => return .double (← word64)
  | .class => return .class (← word16)
  | .string => return .string (← word16)
  | .fieldRef => return .fieldRef (← word16) (← word16)
  | .methodRef => return .methodRef (← word16) (← word16)
  | .interfaceMethodRef => return .interfaceMethodRef (← word16) (← word16)
  | .nameAndType => return .nameAndType (← word16) (← word16)
  | .methodHandle => return .methodHandle (← word8) (← word16)
  | .methodType => return .methodType (← word16)
  | .dynamic => return .dynamic (← word16) (← word16)
  | .invokeDynamic => return .invokeDynamic (← word16) (← word16)
  | .module => return .module (← word16)
  | .package => return .package (← word16)

/-- A constant, for the slot `index`. -/
def readConstant (index : UInt16) : Reader Constant := do
  let tag ← word8
  match ConstantKind.ofTag? tag with
  | none => throw (.unknownConstantTag tag index)
  | some kind => readContent kind

/-- Fills `count` more slots of a pool. A constant of two slots must have both among them. -/
def readSlots : (count : Nat) → (slots : Array Constant) → Reader ConstantPool
  | 0, slots => return ⟨slots⟩
  | count + 1, slots => do
    let index := UInt16.ofNat slots.size
    let constant ← readConstant index
    if constant.isWide then
      match count with
      | 0 => throw (.badConstantIndex index .twoSlotConstant)
      | count + 1 => readSlots count ((slots.push constant).push .unusable)
    else
      readSlots count (slots.push constant)

/-- A constant pool whose cross references are in order. The count includes slot 0. -/
def read : Reader ConstantPool := do
  let count ← word16
  let pool ← readSlots (count.toNat - 1) empty.slots
  pool.check
  return pool

end ConstantPool

namespace ElementValue

open Reader

mutual

/-- An element value with at most `levels` levels of values and annotations, itself included. -/
def read (pool : ConstantPool) : (levels : Nat) → Reader ElementValue
  | 0 => throw .annotationTooDeep
  | levels + 1 => do
    let tag ← word8
    if (constantKind? tag).isSome then
      let index ← word16
      checkConstant pool tag index
      return .constant tag index
    else if tag = enumTag then
      let type ← word16
      let name ← word16
      pool.checkUtf8 type
      pool.checkUtf8 name
      return .enum type name
    else if tag = classTag then
      return .class (← checked pool.checkUtf8)
    else if tag = annotationTag then
      let info ← readInfo pool levels
      return info.toValue
    else if tag = arrayTag then
      return .array (← table (read pool levels))
    else
      throw (.unknownElementTag tag)

def readInfo (pool : ConstantPool) : (levels : Nat) → Reader AnnotationInfo
  | 0 => throw .annotationTooDeep
  | levels + 1 => do
    let type ← checked pool.checkUtf8
    let elements ← table do
      let name ← checked pool.checkUtf8
      let value ← read pool levels
      return (name, value)
    return { type, elements }

end

end ElementValue

/-- A table of annotations, none of which goes deeper than `maxAnnotationDepth`. -/
def AnnotationInfo.readTable (pool : ConstantPool) : Reader (List AnnotationInfo) :=
  Reader.table (ElementValue.readInfo pool (maxAnnotationDepth + 1))

namespace Attribute

open Reader

def readHandler (pool : ConstantPool) : Reader ExceptionHandler := do
  let start ← word16
  let stop ← word16
  let handler ← word16
  let catchType ← checked pool.checkOptionalClass
  return { start, stop, handler, catchType }

/-- A method body without its attributes. -/
def readBody (pool : ConstantPool) : Reader MethodBody := do
  let maxStack ← word16
  let maxLocals ← word16
  let code ← take (← word32).toNat
  let handlers ← table (readHandler pool)
  return { maxStack, maxLocals, code, handlers }

/-- The whole content of an attribute of some kind, and no byte more. -/
def content {α : Type} (kind : AttributeKind) (reader : Reader α) (bytes : Bytes) :
    Except FormatError α :=
  readAll reader (fun cursor => .attributeLength kind bytes.length cursor.offset) bytes

/-- The attribute of some kind, or of none that is understood, with this content. A method body's
own attributes are read by `nested`. -/
def ofContent (pool : ConstantPool) (nested : Reader (List Attribute)) (name : UInt16)
    (kind? : Option AttributeKind) (bytes : Bytes) : Except FormatError Attribute :=
  match kind? with
  | none => return .raw name bytes
  | some .constantValue =>
    return .constantValue name (← content .constantValue (checked pool.checkConstantValue) bytes)
  | some .code => do
    let (body, attributes) ← content .code (Prod.mk <$> readBody pool <*> nested) bytes
    return .code name body attributes
  | some .visibleAnnotations =>
    return .visibleAnnotations name
      (← content .visibleAnnotations (AnnotationInfo.readTable pool) bytes)
  | some .invisibleAnnotations =>
    return .invisibleAnnotations name
      (← content .invisibleAnnotations (AnnotationInfo.readTable pool) bytes)

/-- An attribute, whose name tells of which kind it is. -/
def readWith (pool : ConstantPool) (nested : Reader (List Attribute)) : Reader Attribute := do
  let name ← word16
  let text ← pool.text name
  let bytes ← take (← word32).toNat
  ofContent pool nested name (AttributeKind.ofName? text) bytes

/-- A table of attributes in which method bodies lie inside method bodies at most `depth` deep. -/
def readNested (pool : ConstantPool) : (depth : Nat) → Reader (List Attribute)
  | 0 => do
    let _ ← word16
    return []
  | depth + 1 => table (readWith pool (readNested pool depth))

/-- A table of attributes. The content of an attribute is shorter than `0x100000000` bytes, and that
of one inside it is shorter still, so no byte is left at the depth where `readNested` stops. -/
def readTable (pool : ConstantPool) : Reader (List Attribute) := readNested pool 0x100000000

end Attribute

open Reader

def Member.read (F : Type) (pool : ConstantPool) : Reader (Member F) := do
  let access ← word16
  let name ← checked pool.checkUtf8
  let descriptor ← checked pool.checkUtf8
  let attributes ← Attribute.readTable pool
  return { access := ⟨access⟩, name, descriptor, attributes }

namespace ClassFile

def readVersion : Reader (UInt16 × UInt16) := do
  let start ← word32
  if start ≠ magic then
    throw (.badMagic start)
  let minor ← word16
  let major ← word16
  if !isSupported major then
    throw (.unsupportedVersion major minor)
  return (minor, major)

def readAfterPool (minor major : UInt16) (pool : ConstantPool) : Reader ClassFile := do
  let access ← word16
  let thisClass ← checked pool.checkClass
  let superClass ← checked pool.checkOptionalClass
  let interfaces ← table (checked pool.checkClass)
  let fields ← table (Member.read FieldFlag pool)
  let methods ← table (Member.read MethodFlag pool)
  let attributes ← Attribute.readTable pool
  return { minor, major, pool, access := ⟨access⟩, thisClass, superClass, interfaces, fields,
           methods, attributes }

/-- A class, without regard to what follows it. -/
def read : Reader ClassFile := do
  let (minor, major) ← readVersion
  let pool ← ConstantPool.read
  readAfterPool minor major pool

/-- The class that a byte string holds. -/
def parse (bytes : Bytes) : Except FormatError ClassFile :=
  readAll read (fun cursor => .trailingBytes cursor.rest.length) bytes

end ClassFile

end ClassThaw
