import ClassThaw.ConstantPool.Constant
import ClassThaw.FormatError
import ClassThaw.Text.ModifiedUtf8

namespace ClassThaw

/-- The slots of a constant pool in file order, slot 0 included. -/
structure ConstantPool where
  slots : Array Constant
  deriving DecidableEq, Repr

/-- A field, method or interface method reference with its texts. -/
structure MemberReference where
  owner : String
  name : String
  descriptor : String
  deriving DecidableEq, Repr

namespace ConstantPool

def empty : ConstantPool := ⟨#[.unusable]⟩

/-- The number of slots, slot 0 included. -/
def size (pool : ConstantPool) : Nat := pool.slots.size

def isEmpty (pool : ConstantPool) : Bool := pool.size ≤ 1

/-- The constant at an index, unless the slot is unusable or outside the pool. -/
def get? (pool : ConstantPool) (index : UInt16) : Option Constant :=
  match pool.slots[index.toNat]? with
  | none | some .unusable => none
  | some constant => some constant

/-- The usable slots with their indices, in file order. -/
def entries (pool : ConstantPool) : List (UInt16 × Constant) :=
  pool.slots.toList.zipIdx.filterMap fun (constant, index) =>
    match constant with
    | .unusable => none
    | constant => some (UInt16.ofNat index, constant)

def utf8Bytes (pool : ConstantPool) (index : UInt16) : Except FormatError Bytes :=
  match pool.get? index with
  | some (.utf8 bytes) => .ok bytes
  | _ => .error (.badConstantIndex index .utf8)

def text (pool : ConstantPool) (index : UInt16) : Except FormatError String :=
  (pool.utf8Bytes index).map ModifiedUtf8.decode

/-- The internal name, such as `java/lang/Object`, of a `Class` entry. -/
def className (pool : ConstantPool) (index : UInt16) : Except FormatError String :=
  match pool.get? index with
  | some (.class name) => pool.text name
  | _ => .error (.badConstantIndex index .class)

def nameAndType (pool : ConstantPool) (index : UInt16) : Except FormatError (String × String) :=
  match pool.get? index with
  | some (.nameAndType name descriptor) => do
    let name ← pool.text name
    let descriptor ← pool.text descriptor
    return (name, descriptor)
  | _ => .error (.badConstantIndex index .nameAndType)

def memberReference (pool : ConstantPool) (index : UInt16) :
    Except FormatError MemberReference :=
  match pool.get? index with
  | some (.fieldRef owner member) | some (.methodRef owner member)
  | some (.interfaceMethodRef owner member) => do
    let owner ← pool.className owner
    let (name, descriptor) ← pool.nameAndType member
    return { owner, name, descriptor }
  | _ => .error (.badConstantIndex index .memberReference)

/-- The index leads to a `Utf8` entry. -/
def checkUtf8 (pool : ConstantPool) (index : UInt16) : Except FormatError Unit :=
  match pool.get? index with
  | some (.utf8 _) => .ok ()
  | _ => .error (.badConstantIndex index .utf8)

def checkClass (pool : ConstantPool) (index : UInt16) : Except FormatError Unit :=
  match pool.get? index with
  | some (.class _) => .ok ()
  | _ => .error (.badConstantIndex index .class)

/-- The index is zero, which stands for no class, or leads to a `Class` entry. -/
def checkOptionalClass (pool : ConstantPool) (index : UInt16) : Except FormatError Unit :=
  if index = 0 then .ok () else pool.checkClass index

def checkNameAndType (pool : ConstantPool) (index : UInt16) : Except FormatError Unit :=
  match pool.get? index with
  | some (.nameAndType _ _) => .ok ()
  | _ => .error (.badConstantIndex index .nameAndType)

/-- The index leads to a constant that a field can be initialised with. -/
def checkConstantValue (pool : ConstantPool) (index : UInt16) : Except FormatError Unit :=
  match pool.get? index with
  | some (.integer _) | some (.float _) | some (.long _) | some (.double _)
  | some (.string _) => .ok ()
  | _ => .error (.badConstantIndex index .constantValue)

/-- A method handle of this kind may point at this constant: the kinds 1 to 4 access fields, 5 and
8 call methods, 6 and 7 methods of classes or interfaces, and 9 methods of interfaces. -/
def isHandleTarget (kind : UInt8) : Constant → Bool
  | .fieldRef _ _ => 1 ≤ kind && kind ≤ 4
  | .methodRef _ _ => 5 ≤ kind && kind ≤ 8
  | .interfaceMethodRef _ _ => kind == 6 || kind == 7 || kind == 9
  | _ => false

/-- The cross references of one constant lead to entries of the right kind. -/
def checkConstant (pool : ConstantPool) : Constant → Except FormatError Unit
  | .unusable | .utf8 _ | .integer _ | .float _ | .long _ | .double _ => .ok ()
  | .class name | .string name | .methodType name | .module name | .package name =>
    pool.checkUtf8 name
  | .fieldRef owner member | .methodRef owner member | .interfaceMethodRef owner member => do
    pool.checkClass owner
    pool.checkNameAndType member
  | .nameAndType name descriptor => do
    pool.checkUtf8 name
    pool.checkUtf8 descriptor
  | .methodHandle kind target =>
    if (pool.get? target).any (isHandleTarget kind) then .ok ()
    else .error (.badConstantIndex target .methodHandleTarget)
  | .dynamic _ member | .invokeDynamic _ member => pool.checkNameAndType member

def check (pool : ConstantPool) : Except FormatError Unit :=
  pool.slots.toList.forM pool.checkConstant

end ConstantPool

end ClassThaw
