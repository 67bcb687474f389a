import ClassThaw.AnnotationInfo

namespace ClassThaw

/-- A range of a method body whose exceptions are handled; `catchType` zero catches all of them. -/
structure ExceptionHandler where
  start : UInt16
  stop : UInt16
  handler : UInt16
  catchType : UInt16
  deriving DecidableEq, Repr

/-- A method body without its attributes. -/
structure MethodBody where
  maxStack : UInt16
  maxLocals : UInt16
  code : Bytes
  handlers : List ExceptionHandler
  deriving DecidableEq, Repr

/-- An attribute, with the index of its name. -/
inductive Attribute where
  | constantValue (name : UInt16) (value : UInt16)
  | code (name : UInt16) (body : MethodBody) (attributes : List Attribute)
  | visibleAnnotations (name : UInt16) (annotations : List AnnotationInfo)
  | invisibleAnnotations (name : UInt16) (annotations : List AnnotationInfo)
  | raw (name : UInt16) (bytes : Bytes)
  deriving Repr

namespace Attribute

def name : Attribute → UInt16
  | .constantValue name _ | .code name _ _ | .visibleAnnotations name _
  | .invisibleAnnotations name _ | .raw name _ => name

/-- The kind of an attribute that is understood. -/
def kind? : Attribute → Option AttributeKind
  | .constantValue _ _ => some .constantValue
  | .code _ _ _ => some .code
  | .visibleAnnotations _ _ => some .visibleAnnotations
  | .invisibleAnnotations _ _ => some .invisibleAnnotations
  | .raw _ _ => none

/-- The index leads to a text, which is the name of the kind if one is given. -/
def checkName (pool : ConstantPool) (name : UInt16) (kind? : Option AttributeKind) :
    Except FormatError Unit := do
  let text ← pool.text name
  match kind? with
  | none => return ()
  | some kind => if text = kind.name then return () else throw (.attributeNameMismatch kind)

mutual

/-- An attribute has the right name, and all pool indices in it lead to entries of the right
kind. -/
def check (pool : ConstantPool) : Attribute → Except FormatError Unit
  | .constantValue name value => do
    checkName pool name (some .constantValue)
    pool.checkConstantValue value
  | .code name body attributes => do
    checkName pool name (some .code)
    body.handlers.forM fun handler => pool.checkOptionalClass handler.catchType
    checkAll pool attributes
  | .visibleAnnotations name annotations => do
    checkName pool name (some .visibleAnnotations)
    annotations.forM (·.check pool)
  | .invisibleAnnotations name annotations => do
    checkName pool name (some .invisibleAnnotations)
    annotations.forM (·.check pool)
  | .raw name _ => checkName pool name none

def checkAll (pool : ConstantPool) : List Attribute → Except FormatError Unit
  | [] => .ok ()
  | first :: rest => do
    first.check pool
    checkAll pool rest

end

mutual

def decEq : (a b : Attribute) → Decidable (a = b)
  | .constantValue name value, b =>
    match b with
    | .constantValue name' value' => decidable_of_iff (name = name' ∧ value = value') (by simp)
    | .code _ _ _ | .visibleAnnotations _ _ | .invisibleAnnotations _ _ | .raw _ _ =>
      isFalse nofun
  | .code name body attributes, b =>
    match b with
    | .code name' body' attributes' =>
      have : Decidable (attributes = attributes') := decEqAll attributes attributes'
      decidable_of_iff (name = name' ∧ body = body' ∧ attributes = attributes') (by simp)
    | .constantValue _ _ | .visibleAnnotations _ _ | .invisibleAnnotations _ _ | .raw _ _ =>
      isFalse nofun
  | .visibleAnnotations name annotations, b =>
    match b with
    | .visibleAnnotations name' annotations' =>
      decidable_of_iff (name = name' ∧ annotations = annotations') (by simp)
    | .constantValue _ _ | .code _ _ _ | .invisibleAnnotations _ _ | .raw _ _ => isFalse nofun
  | .invisibleAnnotations name annotations, b =>
    match b with
    | .invisibleAnnotations name' annotations' =>
      decidable_of_iff (name = name' ∧ annotations = annotations') (by simp)
    | .constantValue _ _ | .code _ _ _ | .visibleAnnotations _ _ | .raw _ _ => isFalse nofun
  | .raw name bytes, b =>
    match b with
    | .raw name' bytes' => decidable_of_iff (name = name' ∧ bytes = bytes') (by simp)
    | .constantValue _ _ | .code _ _ _ | .visibleAnnotations _ _ | .invisibleAnnotations _ _ =>
      isFalse nofun

def decEqAll : (a b : List Attribute) → Decidable (a = b)
  | [], [] => isTrue rfl
  | [], _ :: _ => isFalse nofun
  | _ :: _, [] => isFalse nofun
  | first :: rest, first' :: rest' =>
    match decEq first first' with
    | isFalse h => isFalse fun eq => h (List.cons.inj eq).1
    | isTrue h =>
      match decEqAll rest rest' with
      | isFalse h' => isFalse fun eq => h' (List.cons.inj eq).2
      | isTrue h' => isTrue (by rw [h, h'])

end

instance : DecidableEq Attribute := decEq

/-- The annotations that a running program can see, across all attributes that hold some. -/
def visibleIn (attributes : List Attribute) : List AnnotationInfo :=
  attributes.flatMap fun
    | .visibleAnnotations _ annotations => annotations
    | _ => []

end Attribute

end ClassThaw
