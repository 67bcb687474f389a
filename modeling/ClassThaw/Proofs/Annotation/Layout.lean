import ClassThaw.ClassFile.Read
import ClassThaw.ClassFile.Write
import ClassThaw.Proofs.Annotation.Depth
import ClassThaw.Proofs.Writer

namespace ClassThaw

open Writer

namespace ElementValue

def writeElement (element : UInt16 × ElementValue) : Writer Unit := do
  word16 element.1
  element.2.write

theorem writeValues_eq_forM (values : List ElementValue) :
    writeValues values = values.forM write := by
  induction values with
  | nil => rfl
  | cons value values ih => rw [writeValues, ih]; rfl

theorem writeElements_eq_forM (elements : List (UInt16 × ElementValue)) :
    writeElements elements = elements.forM writeElement := by
  induction elements with
  | nil => rfl
  | cons element elements ih => rw [writeElements, ih]; simp [List.forM, writeElement]

theorem write_nested (type : UInt16) (elements : List (UInt16 × ElementValue)) :
    (ElementValue.nested type elements).write =
      (word8 annotationTag >>= fun _ => (AnnotationInfo.mk type elements).write) := by
  rw [write, AnnotationInfo.write]

theorem write_array (values : List ElementValue) :
    (ElementValue.array values).write =
      (word8 arrayTag >>= fun _ => table .arrayElement write values) := by
  rw [write, table, writeValues_eq_forM]

theorem write_info (info : AnnotationInfo) :
    info.write = (word16 info.type >>= fun _ =>
      table .annotationElement writeElement info.elements) := by
  rw [AnnotationInfo.write, table, writeElements_eq_forM]

instance (value : ElementValue) : Appends value.write := by
  induction value using induct with
  | constant tag index =>
    rw [write]
    infer_instance
  | enum type name =>
    rw [write]
    infer_instance
  | classes descriptor =>
    rw [write]
    infer_instance
  | nested type elements ih =>
    have : Appends (elements.forM writeElement) := appends_forM fun element helement => by
      have := ih element helement
      unfold writeElement
      infer_instance
    rw [write, writeElements_eq_forM]
    infer_instance
  | array values ih =>
    have : Appends (values.forM write) := appends_forM ih
    rw [write, writeValues_eq_forM]
    infer_instance

instance (element : UInt16 × ElementValue) : Appends (writeElement element) := by
  unfold writeElement
  infer_instance

instance (info : AnnotationInfo) : Appends info.write := by
  rw [write_info]
  infer_instance

/-- What is written for an element value starts with a tag that tells its kind. -/
theorem writes_write_iff {value : ElementValue} {tag : UInt8} {rest : Bytes} :
    value.write.Writes (tag :: rest) ↔
      match value with
      | .constant tag' index => tag' = tag ∧ BigEndian.word16 index = rest
      | .enum type name =>
        tag = enumTag ∧ BigEndian.word16 type ++ BigEndian.word16 name = rest
      | .class descriptor => tag = classTag ∧ BigEndian.word16 descriptor = rest
      | .nested type elements =>
        tag = annotationTag ∧ (AnnotationInfo.mk type elements).write.Writes rest
      | .array values => tag = arrayTag ∧ (table .arrayElement write values).Writes rest := by
  cases value with
  | constant tag' index => simp [write, writes_bind, writes_word8, writes_word16]
  | enum type name => simp [write, writes_bind, writes_word8, writes_word16, eq_comm]
  | «class» descriptor => simp [write, writes_bind, writes_word8, writes_word16, eq_comm]
  | nested type elements =>
    simp [write_nested, writes_bind, writes_word8, eq_comm, and_comm]
  | array values =>
    simp [write_array, writes_bind, writes_word8, eq_comm, and_comm]

theorem exists_tag_of_writes {value : ElementValue} {bytes : Bytes} (h : value.write.Writes bytes) :
    ∃ tag rest, bytes = tag :: rest := by
  cases bytes with
  | cons tag rest => exact ⟨tag, rest, rfl⟩
  | nil =>
    cases value with
    | constant tag index => simp [write, writes_bind, writes_word8] at h
    | enum type name => simp [write, writes_bind, writes_word8] at h
    | «class» descriptor => simp [write, writes_bind, writes_word8] at h
    | nested type elements => simp [write_nested, writes_bind, writes_word8] at h
    | array values => simp [write_array, writes_bind, writes_word8] at h

open Reader

variable {bound : Nat} {pool : ConstantPool}

/-- The element values that are read with so many levels to go, and their bytes. -/
def form (pool : ConstantPool) (levels : Nat) : Form ElementValue := fun value bytes =>
  (value.depth < levels ∧ value.check pool = .ok ()) ∧ value.write.Writes bytes

def infoForm (pool : ConstantPool) (levels : Nat) : Form AnnotationInfo := fun info bytes =>
  (info.depth < levels ∧ info.check pool = .ok ()) ∧ info.write.Writes bytes

/-- The bytes of an element value that is read, tag by tag. -/
theorem form_cons_iff {levels : Nat} {value : ElementValue} {tag : UInt8} {rest : Bytes} :
    form pool (levels + 1) value (tag :: rest) ↔
      match value with
      | .constant tag' index =>
        tag' = tag ∧ checkConstant pool tag index = .ok () ∧ BigEndian.word16 index = rest
      | .enum type name => tag = enumTag ∧ pool.checkUtf8 type = .ok () ∧
        pool.checkUtf8 name = .ok () ∧ BigEndian.word16 type ++ BigEndian.word16 name = rest
      | .class descriptor => tag = classTag ∧ pool.checkUtf8 descriptor = .ok () ∧
        BigEndian.word16 descriptor = rest
      | .nested type elements => tag = annotationTag ∧ infoForm pool levels ⟨type, elements⟩ rest
      | .array values => tag = arrayTag ∧ values.length < 0x10000 ∧
        ∃ body, (form pool levels).Joined values body ∧
          BigEndian.word16 (UInt16.ofNat values.length) ++ body = rest := by
  rw [form, writes_write_iff]
  cases value with
  | constant tag' index =>
    simp only [depth, check, Nat.succ_pos, true_and]
    constructor
    · rintro ⟨hcheck, rfl, hrest⟩
      exact ⟨rfl, hcheck, hrest⟩
    · rintro ⟨rfl, hcheck, hrest⟩
      exact ⟨hcheck, rfl, hrest⟩
  | enum type name =>
    simp only [depth, check, Nat.succ_pos, true_and, check_bind_eq_ok_iff]
    tauto
  | «class» descriptor =>
    simp only [depth, check, Nat.succ_pos, true_and]
    tauto
  | nested type elements =>
    have hdepth : (ElementValue.nested type elements).depth < levels + 1 ↔
        (AnnotationInfo.mk type elements).depth < levels := by
      change 1 + depthInElements elements < levels + 1 ↔ depthInElements elements < levels
      omega
    have hcheck : (ElementValue.nested type elements).check pool =
        (AnnotationInfo.mk type elements).check pool := rfl
    rw [hdepth, hcheck]
    simp only [infoForm]
    tauto
  | array values =>
    have hdepth : (ElementValue.array values).depth < levels + 1 ↔
        ∀ value ∈ values, value.depth < levels := by
      rw [depth, Nat.lt_succ_iff, depthInValues_le_iff]
    have hcheck : (ElementValue.array values).check pool = .ok () ↔
        ∀ value ∈ values, value.check pool = .ok () := by
      rw [check, checkValues_eq_ok_iff]
    -- What is asked of the values themselves is taken out of what is asked of their bytes.
    have hjoined (body : Bytes) : (form pool levels).Joined values body ↔
        (∀ value ∈ values, value.depth < levels ∧ value.check pool = .ok ()) ∧
          Form.Joined (fun value => value.write.Writes) values body :=
      Form.joined_and
    simp only [hdepth, hcheck, writes_table, hjoined]
    constructor
    · rintro ⟨⟨hdepths, hchecks⟩, htag, hlength, body, hbody, hrest⟩
      exact ⟨htag, hlength, body,
        ⟨fun value hvalue => ⟨hdepths value hvalue, hchecks value hvalue⟩, hbody⟩, hrest⟩
    · rintro ⟨htag, hlength, body, ⟨hall, hbody⟩, hrest⟩
      exact ⟨⟨fun value hvalue => (hall value hvalue).1, fun value hvalue => (hall value hvalue).2⟩,
        htag, hlength, body, hbody, hrest⟩

theorem checkConstant_ne_ok {tag : UInt8} {index : UInt16} (h : constantKind? tag = none) :
    checkConstant pool tag index ≠ .ok () := by
  rw [checkConstant, h]
  intro hok
  cases hok

theorem reads_element {levels : Nat} (h : Reads bound (read pool levels) (form pool levels)) :
    Reads bound (do
        let name ← checked pool.checkUtf8
        let value ← read pool levels
        return (name, value))
      fun element bytes => (pool.checkUtf8 element.1 = .ok () ∧ element.2.depth < levels ∧
        element.2.check pool = .ok ()) ∧ (writeElement element).Writes bytes := by
  apply ((reads_checked pool.checkUtf8).bind fun name => h.bind_pure (Prod.mk name)).congr
  intro element bytes _
  unfold writeElement
  rw [writes_bind]
  constructor
  · rintro ⟨name, _, rest, ⟨hname, rfl⟩, ⟨value, ⟨⟨hdepth, hcheck⟩, hrest⟩, rfl⟩, rfl⟩
    exact ⟨⟨hname, hdepth, hcheck⟩, _, rest, writes_word16.mpr rfl, hrest, rfl⟩
  · rintro ⟨⟨hname, hdepth, hcheck⟩, _, rest, hfront, hrest, rfl⟩
    obtain rfl := writes_word16.mp hfront
    exact ⟨element.1, _, rest, ⟨hname, rfl⟩, ⟨element.2, ⟨⟨hdepth, hcheck⟩, hrest⟩, rfl⟩, rfl⟩

/-- An annotation is read if its values are read with one level less. -/
theorem reads_readInfo_succ {levels : Nat} (h : Reads bound (read pool levels) (form pool levels)) :
    Reads bound (readInfo pool (levels + 1)) (infoForm pool (levels + 1)) := by
  rw [readInfo]
  apply ((reads_checked pool.checkUtf8).bind fun type =>
    (reads_table (reads_element h)).bind_pure (AnnotationInfo.mk type)).congr
  intro info bytes _
  -- An annotation is as deep as its values, which have one level less.
  have hdepth : info.depth < levels + 1 ↔ ∀ element ∈ info.elements, element.2.depth < levels := by
    rw [AnnotationInfo.depth, Nat.lt_succ_iff, depthInElements_le_iff]
  rw [infoForm, AnnotationInfo.check_eq_ok_iff, checkElements_eq_ok_iff, hdepth, write_info,
    writes_bind]
  simp only [Form.joined_and, writes_word16, writes_table]
  constructor
  · rintro ⟨type, _, _, ⟨htype, rfl⟩,
      ⟨elements, ⟨hlength, rest, ⟨hall, hrest⟩, rfl⟩, rfl⟩, rfl⟩
    exact ⟨⟨fun element helement => (hall element helement).2.1, htype,
      fun element helement => ⟨(hall element helement).1, (hall element helement).2.2⟩⟩,
      _, _, rfl, ⟨hlength, rest, hrest, rfl⟩, rfl⟩
  · rintro ⟨⟨hdepth, htype, hcheck⟩, _, _, rfl, ⟨hlength, rest, hrest, rfl⟩, rfl⟩
    exact ⟨info.type, _, _, ⟨htype, rfl⟩, ⟨info.elements, ⟨hlength, rest,
      ⟨fun element helement => ⟨(hcheck element helement).1, hdepth element helement,
        (hcheck element helement).2⟩, hrest⟩, rfl⟩, rfl⟩, rfl⟩

/-- The element values that are read behind a tag, and their bytes without the tag. -/
def formAfter (pool : ConstantPool) (levels : Nat) (tag : UInt8) : Form ElementValue :=
  fun value rest => form pool (levels + 1) value (tag :: rest)

section tags

variable {levels : Nat}

theorem reads_constantAfter {tag : UInt8} (hconstant : (constantKind? tag).isSome = true) :
    Reads bound (do
        let index ← word16
        checkConstant pool tag index
        return .constant tag index)
      (formAfter pool levels tag) := by
  apply (reads_word16.bind fun index => (reads_check (checkConstant pool tag index)).bind_pure
    fun _ => ElementValue.constant tag index).congr
  intro value rest _
  -- The tags of constants are none of the others.
  have hother : tag ≠ enumTag ∧ tag ≠ classTag ∧ tag ≠ annotationTag ∧ tag ≠ arrayTag := by
    refine ⟨?_, ?_, ?_, ?_⟩ <;> (rintro rfl; revert hconstant; decide)
  rw [formAfter, form_cons_iff]
  cases value <;> simp [hother]
  tauto

theorem reads_enumAfter :
    Reads bound (do
        let type ← word16
        let name ← word16
        pool.checkUtf8 type
        pool.checkUtf8 name
        return .enum type name)
      (formAfter pool levels enumTag) := by
  apply (reads_word16.bind fun type => reads_word16.bind fun name =>
    (reads_check (pool.checkUtf8 type)).bind fun _ =>
      (reads_check (pool.checkUtf8 name)).bind_pure fun _ => ElementValue.enum type name).congr
  intro value rest _
  have hnone (index : UInt16) : checkConstant pool enumTag index ≠ .ok () :=
    checkConstant_ne_ok (by decide)
  have hother : enumTag ≠ classTag ∧ enumTag ≠ annotationTag ∧ enumTag ≠ arrayTag := by decide
  rw [formAfter, form_cons_iff]
  cases value <;> simp [hnone, hother]
  tauto

theorem reads_classAfter :
    Reads bound (do return .class (← checked pool.checkUtf8)) (formAfter pool levels classTag) := by
  apply ((reads_checked pool.checkUtf8).bind_pure ElementValue.class).congr
  intro value rest _
  have hnone (index : UInt16) : checkConstant pool classTag index ≠ .ok () :=
    checkConstant_ne_ok (by decide)
  have hother : classTag ≠ enumTag ∧ classTag ≠ annotationTag ∧ classTag ≠ arrayTag := by decide
  rw [formAfter, form_cons_iff]
  cases value <;> simp [hnone, hother, eq_comm]

theorem reads_nestedAfter (hinfo : Reads bound (readInfo pool levels) (infoForm pool levels)) :
    Reads bound (do
        let info ← readInfo pool levels
        return info.toValue)
      (formAfter pool levels annotationTag) := by
  apply (hinfo.bind_pure AnnotationInfo.toValue).congr
  intro value rest _
  have hnone (index : UInt16) : checkConstant pool annotationTag index ≠ .ok () :=
    checkConstant_ne_ok (by decide)
  have hother : annotationTag ≠ enumTag ∧ annotationTag ≠ classTag ∧ annotationTag ≠ arrayTag := by
    decide
  rw [formAfter, form_cons_iff]
  cases value <;> simp [hnone, hother, AnnotationInfo.toValue]
  constructor
  · rintro ⟨info, hinfo, rfl, rfl⟩
    exact hinfo
  · intro hinfo
    exact ⟨_, hinfo, rfl, rfl⟩

theorem reads_arrayAfter (h : Reads bound (read pool levels) (form pool levels)) :
    Reads bound (do return .array (← table (read pool levels)))
      (formAfter pool levels arrayTag) := by
  apply ((reads_table h).bind_pure ElementValue.array).congr
  intro value rest _
  have hnone (index : UInt16) : checkConstant pool arrayTag index ≠ .ok () :=
    checkConstant_ne_ok (by decide)
  have hother : arrayTag ≠ enumTag ∧ arrayTag ≠ classTag ∧ arrayTag ≠ annotationTag := by decide
  rw [formAfter, form_cons_iff]
  cases value <;> simp [hnone, hother]

/-- No element value has a tag of any other kind. -/
theorem not_formAfter {tag : UInt8} (hconstant : ¬ (constantKind? tag).isSome = true)
    (henum : tag ≠ enumTag) (hclass : tag ≠ classTag) (hnested : tag ≠ annotationTag)
    (harray : tag ≠ arrayTag) (value : ElementValue) (rest : Bytes) :
    ¬ formAfter pool levels tag value rest := by
  have hnone (index : UInt16) : checkConstant pool tag index ≠ .ok () :=
    checkConstant_ne_ok (Option.not_isSome_iff_eq_none.mp hconstant)
  rw [formAfter, form_cons_iff]
  cases value <;> simp [hnone, henum, hclass, hnested, harray]

end tags

/-- An element value is read if those inside it are read with one level less. -/
theorem reads_read_succ {levels : Nat} (h : Reads bound (read pool levels) (form pool levels))
    (hinfo : Reads bound (readInfo pool levels) (infoForm pool levels)) :
    Reads bound (read pool (levels + 1)) (form pool (levels + 1)) := by
  have hread : Reads bound (read pool (levels + 1)) fun value bytes => ∃ tag front rest,
      front = [tag] ∧ formAfter pool levels tag value rest ∧ front ++ rest = bytes := by
    rw [read]
    apply reads_word8.bind
    intro tag
    -- The tags are told apart in the order in which they are tested.
    split
    case isTrue hconstant => exact reads_constantAfter hconstant
    case isFalse hconstant =>
    split
    case isTrue henum => exact henum ▸ reads_enumAfter
    case isFalse henum =>
    split
    case isTrue hclass => exact hclass ▸ reads_classAfter
    case isFalse hclass =>
    split
    case isTrue hnested => exact hnested ▸ reads_nestedAfter hinfo
    case isFalse hnested =>
    split
    case isTrue harray => exact harray ▸ reads_arrayAfter h
    case isFalse harray =>
    apply (reads_throw _).congr
    intro value rest _
    exact iff_of_false id (not_formAfter hconstant henum hclass hnested harray value rest)
  apply hread.congr
  intro value bytes _
  constructor
  · rintro ⟨tag, _, rest, rfl, hvalue, rfl⟩
    exact hvalue
  · intro hvalue
    obtain ⟨tag, rest, rfl⟩ := exists_tag_of_writes hvalue.2
    exact ⟨tag, _, rest, rfl, hvalue, rfl⟩

theorem reads_levels (levels : Nat) : Reads bound (read pool levels) (form pool levels) ∧
    Reads bound (readInfo pool levels) (infoForm pool levels) := by
  induction levels with
  | zero =>
    rw [read, readInfo]
    refine ⟨(reads_throw _).congr ?_, (reads_throw _).congr ?_⟩
    · intro value bytes _
      simp [form]
    · intro info bytes _
      simp [infoForm]
  | succ levels ih => exact ⟨reads_read_succ ih.1 ih.2, reads_readInfo_succ ih.1⟩

theorem reads_readTable : Reads bound (AnnotationInfo.readTable pool) fun infos bytes =>
    (∀ info ∈ infos, info.depth ≤ maxAnnotationDepth ∧ info.check pool = .ok ()) ∧
      (AnnotationInfo.writeTable infos).Writes bytes := by
  apply (reads_table (reads_levels (maxAnnotationDepth + 1)).2).congr
  intro infos bytes _
  have hjoined (rest : Bytes) : (infoForm pool (maxAnnotationDepth + 1)).Joined infos rest ↔
      (∀ info ∈ infos, info.depth < maxAnnotationDepth + 1 ∧ info.check pool = .ok ()) ∧
        Form.Joined (fun info => info.write.Writes) infos rest :=
    Form.joined_and
  rw [AnnotationInfo.writeTable, writes_table]
  simp only [hjoined, Nat.lt_succ_iff]
  constructor
  · rintro ⟨hlength, rest, ⟨hall, hrest⟩, hbytes⟩
    exact ⟨hall, hlength, rest, hrest, hbytes⟩
  · rintro ⟨hall, hlength, rest, hrest, hbytes⟩
    exact ⟨hlength, rest, ⟨hall, hrest⟩, hbytes⟩

end ElementValue

end ClassThaw
