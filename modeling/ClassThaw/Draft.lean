import ClassThaw.ClassFile
import ClassThaw.ConstantPool.Intern

/-! Putting a class together from names. The first constant that does not fit the pool is remembered
and reported in the end; until then index 0 stands in its place. -/

namespace ClassThaw

/-- A class in the making, and the first failure so far. -/
structure Draft where
  file : ClassFile
  error? : Option FormatError := none
  deriving DecidableEq, Repr

namespace Draft

/-- The body of a method in a draft. It has no handlers, as there is no pool yet that the classes
which they catch could be found in. -/
structure Body where
  maxStack : UInt16
  maxLocals : UInt16
  code : Bytes
  deriving DecidableEq, Repr

/-- What can be added to a draft or changed in it. -/
inductive Step where
  | version (major minor : UInt16)
  | access (access : Access ClassFlag)
  | superClass (name : String)
  | interface (name : String)
  -- A visible annotation of the class.
  | annotated (descriptor : String)
  -- A field with visible annotations.
  | field (access : Access FieldFlag) (name descriptor : String) (annotations : List String)
  -- A field of type `int` with a value and visible annotations.
  | constantField (access : Access FieldFlag) (name : String) (value : Int32)
      (annotations : List String)
  | method (access : Access MethodFlag) (name descriptor : String) (body : Option Body)
  -- An attribute of the class.
  | raw (name : String) (bytes : Bytes)
  deriving DecidableEq, Repr

/-- The index of a constant, or zero if it does not fit the pool. -/
def intern (change : PoolChange UInt16) : StateM Draft UInt16 := do
  let draft ← get
  let (result, pool) := change.run draft.file.pool
  let file := { draft.file with pool }
  match result with
  | .ok index => do
    set { draft with file }
    return index
  | .error error => do
    set { file, error? := draft.error? <|> some error : Draft }
    return 0

def change (f : ClassFile → ClassFile) : StateM Draft Unit :=
  modify fun draft => { draft with file := f draft.file }

/-- The attribute with visible annotations of these types; none if there are no types. -/
def annotations (descriptors : List String) : StateM Draft (List Attribute) := do
  if descriptors.isEmpty then
    return []
  let name ← intern (ConstantPool.internText AttributeKind.visibleAnnotations.name)
  let types ← descriptors.mapM fun descriptor => intern (ConstantPool.internText descriptor)
  return [.visibleAnnotations name (types.map fun type => { type, elements := [] })]

def Body.toMethodBody (body : Body) : MethodBody :=
  { maxStack := body.maxStack, maxLocals := body.maxLocals, code := body.code, handlers := [] }

/-- The attribute with a method body; none if there is no body. -/
def code : Option Body → StateM Draft (List Attribute)
  | none => return []
  | some body => do
    let name ← intern (ConstantPool.internText AttributeKind.code.name)
    return [.code name body.toMethodBody []]

/-- A field with these attributes in front of its annotations. -/
def field (attributes : List Attribute) (access : Access FieldFlag) (name descriptor : String)
    (descriptors : List String) : StateM Draft Unit := do
  let name ← intern (ConstantPool.internText name)
  let descriptor ← intern (ConstantPool.internText descriptor)
  let annotated ← annotations descriptors
  let field := { access, name, descriptor, attributes := attributes ++ annotated }
  change fun file => { file with fields := file.fields ++ [field] }

def take : Step → StateM Draft Unit
  | .version major minor => change fun file => { file with major, minor }
  | .access access => change fun file => { file with access }
  | .superClass name => do
    let superClass ← intern (ConstantPool.internClass name)
    change fun file => { file with superClass }
  | .interface name => do
    let index ← intern (ConstantPool.internClass name)
    change fun file => { file with interfaces := file.interfaces ++ [index] }
  | .annotated descriptor => do
    let attributes ← annotations [descriptor]
    change fun file => { file with attributes := file.attributes ++ attributes }
  | .field access name descriptor descriptors => field [] access name descriptor descriptors
  | .constantField access name value descriptors => do
    let attributeName ← intern (ConstantPool.internText AttributeKind.constantValue.name)
    let index ← intern (ConstantPool.internInteger value)
    field [.constantValue attributeName index] access name "I" descriptors
  | .method access name descriptor body => do
    let name ← intern (ConstantPool.internText name)
    let descriptor ← intern (ConstantPool.internText descriptor)
    let attributes ← code body
    let method := { access, name, descriptor, attributes }
    change fun file => { file with methods := file.methods ++ [method] }
  | .raw name bytes => do
    let index ← intern (ConstantPool.internText name)
    change fun file => { file with attributes := file.attributes ++ [.raw index bytes] }

/-- A public class in the class file version of Java 8 that has no name yet. -/
def blank : ClassFile where
  minor := 0
  major := 52
  pool := .empty
  access := .ofFlags [.public, .super]
  thisClass := 0
  superClass := 0
  interfaces := []
  fields := []
  methods := []
  attributes := []

/-- Gives the class its name, and `java/lang/Object` as its superclass. -/
def nameClass (name : String) : StateM Draft Unit := do
  let thisClass ← intern (ConstantPool.internClass name)
  let superClass ← intern (ConstantPool.internClass "java/lang/Object")
  change fun file => { file with thisClass, superClass }

/-- A public class that extends `java/lang/Object`, in the class file version of Java 8. -/
def start (name : String) : Draft := ((nameClass name).run { file := blank }).2

def step (draft : Draft) (step : Step) : Draft := ((take step).run draft).2

def ofSteps (name : String) (steps : List Step) : Draft := steps.foldl step (start name)

def build (draft : Draft) : Except FormatError ClassFile :=
  match draft.error? with
  | some error => .error error
  | none => do
    draft.file.check
    return draft.file

end Draft

end ClassThaw
