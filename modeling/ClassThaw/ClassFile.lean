import ClassThaw.Access
import ClassThaw.Attribute

/-! A class as its file describes it: names, types and constants are indices into the constant pool.
`ClassFile.check` says that all of them lead to entries of the right kind. -/

namespace ClassThaw

/-- A field or a method, with flags of the kind `F`. -/
structure Member (F : Type) where
  access : Access F
  name : UInt16
  descriptor : UInt16
  attributes : List Attribute
  deriving DecidableEq, Repr

abbrev Field := Member FieldFlag

abbrev Method := Member MethodFlag

/-- A class file. The superclass is zero for the root of the class hierarchy and for modules. -/
structure ClassFile where
  minor : UInt16
  major : UInt16
  pool : ConstantPool
  access : Access ClassFlag
  thisClass : UInt16
  superClass : UInt16
  interfaces : List UInt16
  fields : List Field
  methods : List Method
  attributes : List Attribute
  deriving DecidableEq, Repr

def magic : UInt32 := 0xCAFEBABE

def constructorName : String := "<init>"

namespace Member

variable {F : Type}

def nameText (member : Member F) (pool : ConstantPool) : Except FormatError String :=
  pool.text member.name

def descriptorText (member : Member F) (pool : ConstantPool) : Except FormatError String :=
  pool.text member.descriptor

def annotationDescriptors (member : Member F) (pool : ConstantPool) :
    Except FormatError (List String) :=
  (Attribute.visibleIn member.attributes).mapM (·.descriptor pool)

/-- The index of the constant that the member is initialised with. -/
def constantValue? (member : Member F) : Option UInt16 :=
  member.attributes.findSome? fun
    | .constantValue _ value => some value
    | _ => none

def body? (member : Member F) : Option MethodBody :=
  member.attributes.findSome? fun
    | .code _ body _ => some body
    | _ => none

/-- All pool indices of a member lead to entries of the right kind. -/
def check (member : Member F) (pool : ConstantPool) : Except FormatError Unit := do
  pool.checkUtf8 member.name
  pool.checkUtf8 member.descriptor
  Attribute.checkAll pool member.attributes

def isNamed (member : Member F) (pool : ConstantPool) (name descriptor : String) : Bool :=
  match member.nameText pool, member.descriptorText pool with
  | .ok name', .ok descriptor' => name' == name && descriptor' == descriptor
  | _, _ => false

/-- The field without `final`. -/
def thawed (field : Field) : Field :=
  { field with access := field.access.clear .final }

end Member

/-- The dotted form, such as `java.lang.Object`, of an internal class name. -/
def dottedName (name : String) : String :=
  name.map fun char => if char = '/' then '.' else char

namespace ClassFile

/-- The internal name of the class, such as `java/lang/Object`. -/
def name (file : ClassFile) : Except FormatError String :=
  file.pool.className file.thisClass

/-- The dotted name of the class. -/
def ownName (file : ClassFile) : Except FormatError String := file.name.map dottedName

def superName (file : ClassFile) : Except FormatError (Option String) :=
  if file.superClass = 0 then .ok none else (file.pool.className file.superClass).map some

def interfaceNames (file : ClassFile) : Except FormatError (List String) :=
  file.interfaces.mapM file.pool.className

def annotationDescriptors (file : ClassFile) : Except FormatError (List String) :=
  (Attribute.visibleIn file.attributes).mapM (·.descriptor file.pool)

def findField? (file : ClassFile) (name descriptor : String) : Option Nat :=
  file.fields.findIdx? (·.isNamed file.pool name descriptor)

def findMethod? (file : ClassFile) (name descriptor : String) : Option Nat :=
  file.methods.findIdx? (·.isNamed file.pool name descriptor)

/-- All pool indices of a class, and those inside its pool, lead to entries of the right kind. -/
def check (file : ClassFile) : Except FormatError Unit := do
  file.pool.check
  file.pool.checkClass file.thisClass
  file.pool.checkOptionalClass file.superClass
  file.interfaces.forM file.pool.checkClass
  file.fields.forM (·.check file.pool)
  file.methods.forM (·.check file.pool)
  Attribute.checkAll file.pool file.attributes

end ClassFile

end ClassThaw
