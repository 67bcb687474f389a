import ClassThaw.ConstantPool.Basic

namespace ClassThaw

/-- The value of an annotation element. Names, types and constants are indices into the pool. -/
inductive ElementValue where
  -- A number or a text; the tag says of which type.
  | constant (tag : UInt8) (index : UInt16)
  | enum (type name : UInt16)
  | «class» (descriptor : UInt16)
  | nested (type : UInt16) (elements : List (UInt16 × ElementValue))
  | array (values : List ElementValue)
  deriving Repr

/-- An annotation: the index of its type's descriptor, and its elements by the indices of their
names. -/
structure AnnotationInfo where
  type : UInt16
  elements : List (UInt16 × ElementValue)
  deriving Repr

namespace ElementValue

def enumTag : UInt8 := 'e'.toUInt8

def classTag : UInt8 := 'c'.toUInt8

def annotationTag : UInt8 := '@'.toUInt8

def arrayTag : UInt8 := '['.toUInt8

/-- The kind of pool entry that holds a constant value with this tag. -/
def constantKind? (tag : UInt8) : Option ConstantKind :=
  if ['B', 'C', 'I', 'S', 'Z'].any (·.toUInt8 == tag) then some .integer
  else if tag == 'J'.toUInt8 then some .long
  else if tag == 'F'.toUInt8 then some .float
  else if tag == 'D'.toUInt8 then some .double
  else if tag == 's'.toUInt8 then some .utf8
  else none

/-- A constant value leads to a pool entry of the type that its tag says. -/
def checkConstant (pool : ConstantPool) (tag : UInt8) (index : UInt16) :
    Except FormatError Unit :=
  match constantKind? tag with
  | none => .error (.unknownElementTag tag)
  | some kind =>
    if (pool.get? index).bind Constant.kind? = some kind then .ok ()
    else .error (.badConstantIndex index .elementConstant)

mutual

/-- All pool indices of an element value lead to entries of the right kind. -/
def check (pool : ConstantPool) : ElementValue → Except FormatError Unit
  | .constant tag index => checkConstant pool tag index
  | .enum type name => do
    pool.checkUtf8 type
    pool.checkUtf8 name
  | .class descriptor => pool.checkUtf8 descriptor
  | .nested type elements => do
    pool.checkUtf8 type
    checkElements pool elements
  | .array values => checkValues pool values

def checkValues (pool : ConstantPool) : List ElementValue → Except FormatError Unit
  | [] => .ok ()
  | value :: values => do
    value.check pool
    checkValues pool values

def checkElements (pool : ConstantPool) :
    List (UInt16 × ElementValue) → Except FormatError Unit
  | [] => .ok ()
  | (name, value) :: elements => do
    pool.checkUtf8 name
    value.check pool
    checkElements pool elements

end

mutual

def decEq : (a b : ElementValue) → Decidable (a = b)
  | .constant tag index, b =>
    match b with
    | .constant tag' index' =>
      decidable_of_iff (tag = tag' ∧ index = index') (by simp)
    | .enum _ _ | .class _ | .nested _ _ | .array _ => isFalse nofun
  | .enum type name, b =>
    match b with
    | .enum type' name' => decidable_of_iff (type = type' ∧ name = name') (by simp)
    | .constant _ _ | .class _ | .nested _ _ | .array _ => isFalse nofun
  | .class descriptor, b =>
    match b with
    | .class descriptor' => decidable_of_iff (descriptor = descriptor') (by simp)
    | .constant _ _ | .enum _ _ | .nested _ _ | .array _ => isFalse nofun
  | .nested type elements, b =>
    match b with
    | .nested type' elements' =>
      have : Decidable (elements = elements') := decEqElements elements elements'
      decidable_of_iff (type = type' ∧ elements = elements') (by simp)
    | .constant _ _ | .enum _ _ | .class _ | .array _ => isFalse nofun
  | .array values, b =>
    match b with
    | .array values' =>
      have : Decidable (values = values') := decEqValues values values'
      decidable_of_iff (values = values') (by simp)
    | .constant _ _ | .enum _ _ | .class _ | .nested _ _ => isFalse nofun

def decEqValues : (a b : List ElementValue) → Decidable (a = b)
  | [], [] => isTrue rfl
  | [], _ :: _ => isFalse nofun
  | _ :: _, [] => isFalse nofun
  | value :: values, value' :: values' =>
    match decEq value value' with
    | isFalse h => isFalse fun eq => h (List.cons.inj eq).1
    | isTrue h =>
      match decEqValues values values' with
      | isFalse h' => isFalse fun eq => h' (List.cons.inj eq).2
      | isTrue h' => isTrue (by rw [h, h'])

def decEqElements : (a b : List (UInt16 × ElementValue)) → Decidable (a = b)
  | [], [] => isTrue rfl
  | [], _ :: _ => isFalse nofun
  | _ :: _, [] => isFalse nofun
  | (name, value) :: elements, (name', value') :: elements' =>
    if hname : name = name' then
      match decEq value value' with
      | isFalse h => isFalse fun eq => h (Prod.mk.inj (List.cons.inj eq).1).2
      | isTrue h =>
        match decEqElements elements elements' with
        | isFalse h' => isFalse fun eq => h' (List.cons.inj eq).2
        | isTrue h' => isTrue (by rw [hname, h, h'])
    else
      isFalse fun eq => hname (Prod.mk.inj (List.cons.inj eq).1).1

end

instance : DecidableEq ElementValue := decEq

end ElementValue

deriving instance DecidableEq for AnnotationInfo

namespace AnnotationInfo

def descriptor (info : AnnotationInfo) (pool : ConstantPool) : Except FormatError String :=
  pool.text info.type

def toValue (info : AnnotationInfo) : ElementValue :=
  .nested info.type info.elements

def check (info : AnnotationInfo) (pool : ConstantPool) : Except FormatError Unit :=
  info.toValue.check pool

end AnnotationInfo

end ClassThaw
