import ClassThaw.ClassFile
import ClassThaw.Writer

namespace ClassThaw

open Writer

/-- The bytes of a constant. An unusable slot has none. -/
def Constant.encode (constant : Constant) : Bytes :=
  match constant.kind? with
  | none => []
  | some kind => kind.tag :: payload constant
where
  -- The bytes after the tag.
  payload : Constant → Bytes
    | .unusable => []
    | .utf8 bytes => BigEndian.word16 (UInt16.ofNat bytes.length) ++ bytes
    | .integer value => BigEndian.word32 value.toUInt32
    | .float bits => BigEndian.word32 bits
    | .long value => BigEndian.word64 value.toUInt64
    | .double bits => BigEndian.word64 bits
    | .class index | .string index | .methodType index | .module index | .package index =>
      BigEndian.word16 index
    | .fieldRef a b | .methodRef a b | .interfaceMethodRef a b | .nameAndType a b
    | .dynamic a b | .invokeDynamic a b => BigEndian.word16 a ++ BigEndian.word16 b
    | .methodHandle kind target => kind :: BigEndian.word16 target

def ConstantPool.write (pool : ConstantPool) : Writer Unit := do
  count16 .constantPool pool.size
  pool.slots.toList.forM fun constant => bytes constant.encode

namespace ElementValue

mutual

def write : ElementValue → Writer Unit
  | .constant tag index => do
    word8 tag
    word16 index
  | .enum type name => do
    word8 enumTag
    word16 type
    word16 name
  | .class descriptor => do
    word8 classTag
    word16 descriptor
  | .nested type elements => do
    word8 annotationTag
    word16 type
    count16 .annotationElement elements.length
    writeElements elements
  | .array values => do
    word8 arrayTag
    count16 .arrayElement values.length
    writeValues values

def writeValues : List ElementValue → Writer Unit
  | [] => return ()
  | value :: values => do
    value.write
    writeValues values

def writeElements : List (UInt16 × ElementValue) → Writer Unit
  | [] => return ()
  | (name, value) :: elements => do
    word16 name
    value.write
    writeElements elements

end

end ElementValue

def AnnotationInfo.write (info : AnnotationInfo) : Writer Unit := do
  word16 info.type
  count16 .annotationElement info.elements.length
  ElementValue.writeElements info.elements

def AnnotationInfo.writeTable : List AnnotationInfo → Writer Unit :=
  table .annotations AnnotationInfo.write

def ExceptionHandler.write (handler : ExceptionHandler) : Writer Unit := do
  word16 handler.start
  word16 handler.stop
  word16 handler.handler
  word16 handler.catchType

def MethodBody.write (body : MethodBody) : Writer Unit := do
  word16 body.maxStack
  word16 body.maxLocals
  block .codeLength body.code
  table .exceptionHandler ExceptionHandler.write body.handlers

namespace Attribute

mutual

def write : Attribute → Writer Unit
  | .constantValue name value => do
    word16 name
    block .attributeLength (BigEndian.word16 value)
  | .code name body attributes => do
    word16 name
    block .attributeLength (← written do
      body.write
      count16 .attribute attributes.length
      writeAll attributes)
  | .visibleAnnotations name annotations => do
    word16 name
    block .attributeLength (← written (AnnotationInfo.writeTable annotations))
  | .invisibleAnnotations name annotations => do
    word16 name
    block .attributeLength (← written (AnnotationInfo.writeTable annotations))
  | .raw name bytes => do
    word16 name
    block .attributeLength bytes

def writeAll : List Attribute → Writer Unit
  | [] => return ()
  | first :: rest => do
    first.write
    writeAll rest

end

def writeTable (attributes : List Attribute) : Writer Unit := do
  count16 .attribute attributes.length
  writeAll attributes

end Attribute

def Member.write {F : Type} (member : Member F) : Writer Unit := do
  word16 member.access.bits
  word16 member.name
  word16 member.descriptor
  Attribute.writeTable member.attributes

namespace ClassFile

def writeVersion (file : ClassFile) : Writer Unit := do
  word32 magic
  word16 file.minor
  word16 file.major

/-- Appends what follows the pool of a class. -/
def writeAfterPool (file : ClassFile) : Writer Unit := do
  word16 file.access.bits
  word16 file.thisClass
  word16 file.superClass
  table .interface word16 file.interfaces
  table .field Member.write file.fields
  table .method Member.write file.methods
  Attribute.writeTable file.attributes

def writer (file : ClassFile) : Writer Unit := do
  file.writeVersion
  file.pool.write
  file.writeAfterPool

/-- The bytes of a class as it stands. -/
def write (file : ClassFile) : Except FormatError Bytes := file.writer.written

/-- The bytes of a class whose indices are all in order. -/
def serialize (file : ClassFile) : Except FormatError Bytes := do
  file.check
  file.write

end ClassFile

end ClassThaw
