import ClassThaw.Proofs.ClassFile.Layout
import ClassThaw.Proofs.Writer.Sized

namespace ClassThaw

open Writer

namespace ElementValue

mutual

/-- The number of bytes that an element value takes. -/
def size : ElementValue → Nat
  | .constant _ _ => 3
  | .enum _ _ => 5
  | .class _ => 3
  | .nested _ elements => 5 + sizeOfElements elements
  | .array values => 3 + sizeOfValues values

def sizeOfValues : List ElementValue → Nat
  | [] => 0
  | value :: values => value.size + sizeOfValues values

def sizeOfElements : List (UInt16 × ElementValue) → Nat
  | [] => 0
  | (_, value) :: elements => 2 + value.size + sizeOfElements elements

end

mutual

/-- The lengths of all tables in an element value fit their fields. -/
def Fits : ElementValue → Prop
  | .constant _ _ | .enum _ _ | .class _ => True
  | .nested _ elements => elements.length < 0x10000 ∧ FitElements elements
  | .array values => values.length < 0x10000 ∧ FitValues values

def FitValues : List ElementValue → Prop
  | [] => True
  | value :: values => value.Fits ∧ FitValues values

def FitElements : List (UInt16 × ElementValue) → Prop
  | [] => True
  | (_, value) :: elements => value.Fits ∧ FitElements elements

end

theorem sizeOfValues_eq (values : List ElementValue) :
    sizeOfValues values = (values.map size).sum := by
  induction values with
  | nil => rfl
  | cons value values ih => rw [sizeOfValues, ih]; rfl

theorem sizeOfElements_eq (elements : List (UInt16 × ElementValue)) :
    sizeOfElements elements = (elements.map fun element => 2 + element.2.size).sum := by
  induction elements with
  | nil => rfl
  | cons element elements ih => rw [sizeOfElements, ih]; rfl

theorem fitValues_iff {values : List ElementValue} :
    FitValues values ↔ ∀ value ∈ values, value.Fits := by
  induction values with
  | nil => exact iff_of_true trivial (List.forall_mem_nil _)
  | cons value values ih => rw [FitValues, ih, List.forall_mem_cons]

theorem fitElements_iff {elements : List (UInt16 × ElementValue)} :
    FitElements elements ↔ ∀ element ∈ elements, element.2.Fits := by
  induction elements with
  | nil => exact iff_of_true trivial (List.forall_mem_nil _)
  | cons element elements ih => rw [FitElements, ih, List.forall_mem_cons]

theorem sized_writeElement {element : UInt16 × ElementValue}
    (h : Sized element.2.write element.2.Fits element.2.size) :
    Sized (writeElement element) element.2.Fits (2 + element.2.size) :=
  ((sized_word16 element.1).bind h).of_eq (and_iff_right trivial) rfl

theorem sized_write (value : ElementValue) : Sized value.write value.Fits value.size := by
  induction value using induct with
  | constant tag index =>
    exact ((sized_word8 tag).bind (sized_word16 index)).of_eq (and_self_iff) rfl
  | enum type name =>
    exact ((sized_word8 enumTag).bind ((sized_word16 type).bind (sized_word16 name))).of_eq
      ((and_iff_right trivial).trans and_self_iff) rfl
  | classes descriptor =>
    exact ((sized_word8 classTag).bind (sized_word16 descriptor)).of_eq (and_self_iff) rfl
  | nested type elements ih =>
    rw [write_nested, write_info]
    apply ((sized_word8 annotationTag).bind ((sized_word16 type).bind
      (sized_table fun element helement => sized_writeElement (ih element helement)))).of_eq
    · rw [Fits, fitElements_iff, true_and, true_and]
    · rw [size, sizeOfElements_eq]
      omega
  | array values ih =>
    rw [write_array]
    apply ((sized_word8 arrayTag).bind (sized_table ih)).of_eq
    · rw [Fits, fitValues_iff, true_and]
    · rw [size, sizeOfValues_eq]
      omega

end ElementValue

namespace AnnotationInfo

def size (info : AnnotationInfo) : Nat := 4 + ElementValue.sizeOfElements info.elements

def Fits (info : AnnotationInfo) : Prop :=
  info.elements.length < 0x10000 ∧ ElementValue.FitElements info.elements

theorem sized_write (info : AnnotationInfo) : Sized info.write info.Fits info.size := by
  rw [ElementValue.write_info]
  apply ((sized_word16 info.type).bind (sized_table fun element _ =>
    ElementValue.sized_writeElement (ElementValue.sized_write element.2))).of_eq
  · rw [Fits, ElementValue.fitElements_iff, true_and]
  · rw [size, ElementValue.sizeOfElements_eq]
    omega

end AnnotationInfo

theorem sized_writeTable (infos : List AnnotationInfo) :
    Sized (AnnotationInfo.writeTable infos)
      (infos.length < 0x10000 ∧ ∀ info ∈ infos, info.Fits)
      (2 + (infos.map AnnotationInfo.size).sum) :=
  sized_table fun info _ => info.sized_write

theorem ExceptionHandler.sized_write (handler : ExceptionHandler) :
    Sized handler.write True 8 :=
  ((sized_word16 handler.start).bind ((sized_word16 handler.stop).bind
    ((sized_word16 handler.handler).bind (sized_word16 handler.catchType)))).of_eq
    (by simp only [and_self]) rfl

namespace MethodBody

def size (body : MethodBody) : Nat := 10 + body.code.length + 8 * body.handlers.length

def Fits (body : MethodBody) : Prop :=
  body.code.length < 0x100000000 ∧ body.handlers.length < 0x10000

theorem sized_write (body : MethodBody) : Sized body.write body.Fits body.size := by
  have hhandlers : Sized (table .exceptionHandler ExceptionHandler.write body.handlers) _ _ :=
    sized_table fun handler _ => handler.sized_write
  apply ((sized_word16 body.maxStack).bind ((sized_word16 body.maxLocals).bind
    ((sized_block body.code).bind hhandlers))).of_eq
  · simp [Fits]
  · rw [size, List.map_const', List.sum_replicate_nat]
    omega

end MethodBody

namespace Attribute

mutual

/-- The number of bytes in the content of an attribute. -/
def contentSize : Attribute → Nat
  | .constantValue _ _ => 2
  | .code _ body attributes => body.size + (2 + sizeOfAll attributes)
  | .visibleAnnotations _ infos | .invisibleAnnotations _ infos =>
    2 + (infos.map AnnotationInfo.size).sum
  | .raw _ bytes => bytes.length

def sizeOfAll : List Attribute → Nat
  | [] => 0
  | first :: rest => 6 + first.contentSize + sizeOfAll rest

end

mutual

/-- The lengths of all tables in an attribute, and that of its content, fit their fields. -/
def Fits : Attribute → Prop
  | .constantValue _ _ => True
  | .code name body attributes =>
    (body.Fits ∧ attributes.length < 0x10000 ∧ FitAll attributes) ∧
      (Attribute.code name body attributes).contentSize < 0x100000000
  | .visibleAnnotations _ infos | .invisibleAnnotations _ infos =>
    (infos.length < 0x10000 ∧ ∀ info ∈ infos, info.Fits) ∧
      2 + (infos.map AnnotationInfo.size).sum < 0x100000000
  | .raw _ bytes => bytes.length < 0x100000000

def FitAll : List Attribute → Prop
  | [] => True
  | first :: rest => first.Fits ∧ FitAll rest

end

theorem sizeOfAll_eq (attributes : List Attribute) :
    sizeOfAll attributes = (attributes.map fun item => 6 + item.contentSize).sum := by
  induction attributes with
  | nil => rfl
  | cons first rest ih => rw [sizeOfAll, ih]; rfl

theorem fitAll_iff {attributes : List Attribute} :
    FitAll attributes ↔ ∀ item ∈ attributes, item.Fits := by
  induction attributes with
  | nil => exact iff_of_true trivial (List.forall_mem_nil _)
  | cons first rest ih => rw [FitAll, ih, List.forall_mem_cons]

/-- The table of some attributes fits, and so do they. -/
def TableFits (attributes : List Attribute) : Prop :=
  attributes.length < 0x10000 ∧ ∀ item ∈ attributes, item.Fits

theorem sized_writeTable_of {attributes : List Attribute}
    (h : ∀ item ∈ attributes, Sized item.write item.Fits (6 + item.contentSize)) :
    Sized (writeTable attributes) (TableFits attributes) (2 + sizeOfAll attributes) := by
  rw [writeTable_eq, sizeOfAll_eq]
  exact sized_table h

theorem sized_write (item : Attribute) : Sized item.write item.Fits (6 + item.contentSize) := by
  induction item using induct with
  | constantValue name value =>
    have hblock : Sized (block .attributeLength (BigEndian.word16 value)) _ _ := sized_block _
    have hlength : (BigEndian.word16 value).length < 0x100000000 := by
      rw [BigEndian.word16, BigEndian.length_encode]
      omega
    exact ((sized_word16 name).bind hblock).of_eq
      (iff_of_true ⟨trivial, hlength⟩ trivial) rfl
  | code name body attributes ih =>
    have hcontent := body.sized_write.bind (sized_writeTable_of ih)
    apply ((sized_word16 name).bind hcontent.apart).of_eq
    · rw [Fits, fitAll_iff, contentSize, TableFits, true_and]
    · rw [contentSize]
      omega
  | visibleAnnotations name infos =>
    apply ((sized_word16 name).bind (sized_writeTable infos).apart).of_eq
    · rw [Fits, true_and]
    · rw [contentSize]
      omega
  | invisibleAnnotations name infos =>
    apply ((sized_word16 name).bind (sized_writeTable infos).apart).of_eq
    · rw [Fits, true_and]
    · rw [contentSize]
      omega
  | raw name bytes =>
    have hblock : Sized (block .attributeLength bytes) _ _ := sized_block bytes
    apply ((sized_word16 name).bind hblock).of_eq
    · rw [Fits, true_and]
    · rw [contentSize]
      omega

end Attribute

theorem ConstantPool.sized_write (pool : ConstantPool) :
    Sized pool.write (pool.size < 0x10000) (2 + pool.image.length) := by
  constructor
  · simp [ConstantPool.writes_write]
  · intro bytes hbytes
    obtain ⟨-, rfl⟩ := ConstantPool.writes_write.mp hbytes
    rw [List.length_append, BigEndian.word16, BigEndian.length_encode]

namespace Member

variable {F : Type}

def Fits (member : Member F) : Prop := Attribute.TableFits member.attributes

def size (member : Member F) : Nat := 8 + Attribute.sizeOfAll member.attributes

theorem sized_write (member : Member F) : Sized member.write member.Fits member.size := by
  apply ((sized_word16 member.access.bits).bind ((sized_word16 member.name).bind
    ((sized_word16 member.descriptor).bind (Attribute.sized_writeTable_of
      fun item _ => item.sized_write)))).of_eq
  · rw [Fits, true_and, true_and, true_and]
  · rw [size]
    omega

end Member

namespace ClassFile

/-- All tables of a class, and the contents of its attributes, fit the fields that hold their
lengths. -/
structure Fits (file : ClassFile) : Prop where
  pool : file.pool.size < 0x10000
  interfaces : file.interfaces.length < 0x10000
  fields : file.fields.length < 0x10000 ∧ ∀ field ∈ file.fields, field.Fits
  methods : file.methods.length < 0x10000 ∧ ∀ method ∈ file.methods, method.Fits
  attributes : Attribute.TableFits file.attributes

def size (file : ClassFile) : Nat :=
  24 + file.pool.image.length + 2 * file.interfaces.length + (file.fields.map Member.size).sum +
    (file.methods.map Member.size).sum + Attribute.sizeOfAll file.attributes

theorem sized_writeVersion (file : ClassFile) : Sized file.writeVersion True 8 :=
  ((sized_word32 magic).bind ((sized_word16 file.minor).bind (sized_word16 file.major))).of_eq
    (by simp only [and_self]) rfl

theorem sized_writer (file : ClassFile) : Sized file.writer file.Fits file.size := by
  have hinterfaces : Sized (table .interface word16 file.interfaces) _ _ :=
    sized_table fun index _ => sized_word16 index
  have hfields : Sized (table .field Member.write file.fields) _ _ :=
    sized_table fun field _ => field.sized_write
  have hmethods : Sized (table .method Member.write file.methods) _ _ :=
    sized_table fun method _ => method.sized_write
  have hattributes : Sized (Attribute.writeTable file.attributes) _ _ :=
    Attribute.sized_writeTable_of fun item _ => item.sized_write
  have hrest := (sized_word16 file.access.bits).bind ((sized_word16 file.thisClass).bind
    ((sized_word16 file.superClass).bind
      (hinterfaces.bind (hfields.bind (hmethods.bind hattributes)))))
  apply (file.sized_writeVersion.bind (file.pool.sized_write.bind hrest)).of_eq
  · constructor
    · rintro ⟨-, hpool, -, -, -, ⟨hinterfaces, -⟩, hfields, hmethods, hattributes⟩
      exact ⟨hpool, hinterfaces, hfields, hmethods, hattributes⟩
    · rintro ⟨hpool, hinterfaces, hfields, hmethods, hattributes⟩
      exact ⟨trivial, hpool, trivial, trivial, trivial, ⟨hinterfaces, fun _ _ => trivial⟩, hfields,
        hmethods, hattributes⟩
  · rw [size, List.map_const', List.sum_replicate_nat]
    omega

/-- A class that passes its check is written if it fits, and refused with the length that does not
fit otherwise. -/
theorem serialize_of_check {file : ClassFile} (hcheck : file.check = .ok ()) :
    (file.Fits → ∃ bytes, file.serialize = .ok bytes ∧ bytes.length = file.size) ∧
      (¬ file.Fits → ∃ what count, 0x10000 ≤ count ∧
        file.serialize = .error (.limitExceeded what count)) := by
  have hserialize : file.serialize = file.writer.written := by
    rw [serialize, hcheck]
    rfl
  rw [hserialize]
  constructor
  · intro hfits
    obtain ⟨bytes, hbytes⟩ := file.sized_writer.exists_iff.mpr hfits
    exact ⟨bytes, hbytes, file.sized_writer.length_eq bytes hbytes⟩
  · intro hlarge
    cases hwritten : file.writer.written with
    | ok bytes => exact absurd (file.sized_writer.exists_iff.mp ⟨bytes, hwritten⟩) hlarge
    | error error =>
      obtain ⟨what, count, hcount, rfl⟩ := Appends.isLimit error hwritten
      exact ⟨what, count, hcount, rfl⟩

/-- A class that has too many methods, and whatever else it has would fit, is refused with their
number. -/
theorem write_of_le_length_methods {file : ClassFile} (hfits : { file with methods := [] }.Fits)
    (hmany : 0x10000 ≤ file.methods.length) :
    file.write = .error (.limitExceeded .method file.methods.length) := by
  have hmethods : (table .method Member.write file.methods >>= fun _ =>
      Attribute.writeTable file.attributes).written =
        .error (.limitExceeded .method file.methods.length) :=
    Writer.written_bind_of_error (written_table_of_le hmany)
  have hinterfaces : Sized (table .interface word16 file.interfaces) _ _ :=
    sized_table fun index _ => sized_word16 index
  have hfields : Sized (table .field Member.write file.fields) _ _ :=
    sized_table fun field _ => field.sized_write
  -- Everything before the methods is written.
  apply file.sized_writeVersion.written_bind_of_error trivial
  apply file.pool.sized_write.written_bind_of_error hfits.pool
  apply (sized_word16 file.access.bits).written_bind_of_error trivial
  apply (sized_word16 file.thisClass).written_bind_of_error trivial
  apply (sized_word16 file.superClass).written_bind_of_error trivial
  apply hinterfaces.written_bind_of_error ⟨hfits.interfaces, fun _ _ => trivial⟩
  exact hfields.written_bind_of_error hfits.fields hmethods

theorem fits_of_parse {bytes : Bytes} {file : ClassFile} (h : parse bytes = .ok file) :
    file.Fits := by
  obtain ⟨-, -, hserialize⟩ := parse_eq_ok_iff.mp h
  exact file.sized_writer.exists_iff.mp ⟨bytes, (check_bind_eq_ok_iff.mp hserialize).2⟩

end ClassFile

end ClassThaw
