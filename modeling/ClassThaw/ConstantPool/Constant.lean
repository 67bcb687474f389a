import ClassThaw.Bytes

namespace ClassThaw

/-- One slot of a constant pool. Cross references are indices of other slots. Floating-point values
are kept as their bits, so that a NaN keeps its payload. -/
inductive Constant where
  -- Slot 0 and the second slot of a `long` or `double`.
  | unusable
  | utf8 (bytes : Bytes)
  | integer (value : Int32)
  | float (bits : UInt32)
  | long (value : Int64)
  | double (bits : UInt64)
  | «class» (name : UInt16)
  | string (text : UInt16)
  | fieldRef (owner nameAndType : UInt16)
  | methodRef (owner nameAndType : UInt16)
  | interfaceMethodRef (owner nameAndType : UInt16)
  | nameAndType (name descriptor : UInt16)
  | methodHandle (kind : UInt8) (target : UInt16)
  | methodType (descriptor : UInt16)
  -- The first number is an index into the bootstrap methods, not into the pool.
  | dynamic (bootstrap nameAndType : UInt16)
  | invokeDynamic (bootstrap nameAndType : UInt16)
  | module (name : UInt16)
  | package (name : UInt16)
  deriving DecidableEq, Repr

inductive ConstantKind where
  | utf8
  | integer
  | float
  | long
  | double
  | «class»
  | string
  | fieldRef
  | methodRef
  | interfaceMethodRef
  | nameAndType
  | methodHandle
  | methodType
  | dynamic
  | invokeDynamic
  | module
  | package
  deriving DecidableEq, Repr

namespace ConstantKind

/-- All kinds, in order of their tags. -/
def all : List ConstantKind :=
  [.utf8, .integer, .float, .long, .double, .class, .string, .fieldRef, .methodRef,
    .interfaceMethodRef, .nameAndType, .methodHandle, .methodType, .dynamic, .invokeDynamic,
    .module, .package]

/-- The byte that announces a constant of this kind. -/
def tag : ConstantKind → UInt8
  | .utf8 => 1
  | .integer => 3
  | .float => 4
  | .long => 5
  | .double => 6
  | .class => 7
  | .string => 8
  | .fieldRef => 9
  | .methodRef => 10
  | .interfaceMethodRef => 11
  | .nameAndType => 12
  | .methodHandle => 15
  | .methodType => 16
  | .dynamic => 17
  | .invokeDynamic => 18
  | .module => 19
  | .package => 20

def label : ConstantKind → String
  | .utf8 => "Utf8"
  | .integer => "Integer"
  | .float => "Float"
  | .long => "Long"
  | .double => "Double"
  | .class => "Class"
  | .string => "String"
  | .fieldRef => "FieldRef"
  | .methodRef => "MethodRef"
  | .interfaceMethodRef => "InterfaceMethodRef"
  | .nameAndType => "NameAndType"
  | .methodHandle => "MethodHandle"
  | .methodType => "MethodType"
  | .dynamic => "Dynamic"
  | .invokeDynamic => "InvokeDynamic"
  | .module => "Module"
  | .package => "Package"

def ofTag? (tag : UInt8) : Option ConstantKind :=
  all.find? (·.tag == tag)

end ConstantKind

namespace Constant

def kind? : Constant → Option ConstantKind
  | .unusable => none
  | .utf8 _ => some .utf8
  | .integer _ => some .integer
  | .float _ => some .float
  | .long _ => some .long
  | .double _ => some .double
  | .class _ => some .class
  | .string _ => some .string
  | .fieldRef _ _ => some .fieldRef
  | .methodRef _ _ => some .methodRef
  | .interfaceMethodRef _ _ => some .interfaceMethodRef
  | .nameAndType _ _ => some .nameAndType
  | .methodHandle _ _ => some .methodHandle
  | .methodType _ => some .methodType
  | .dynamic _ _ => some .dynamic
  | .invokeDynamic _ _ => some .invokeDynamic
  | .module _ => some .module
  | .package _ => some .package

/-- The tag of a slot, zero for an unusable one. -/
def tag (constant : Constant) : UInt8 := (constant.kind?.map ConstantKind.tag).getD 0

/-- A `long` and a `double` take two slots. -/
def isWide : Constant → Bool
  | .long _ | .double _ => true
  | _ => false

def width (constant : Constant) : Nat := if constant.isWide then 2 else 1

end Constant

end ClassThaw
