import ClassThaw.ConstantPool.Basic
import ClassThaw.Proofs.Check

namespace ClassThaw.ConstantPool

variable {pool before after : ConstantPool} {index first second : UInt16}
  {reference : MemberReference}

theorem get?_eq_some_iff {constant : Constant} : pool.get? index = some constant ↔
    pool.slots.toList[index.toNat]? = some constant ∧ constant ≠ .unusable := by
  rw [get?, Array.getElem?_toList]
  cases pool.slots[index.toNat]? with
  | none => simp
  | some found => cases found <;> simp <;> rintro rfl <;> simp

theorem utf8Bytes_eq_ok_iff {bytes : Bytes} :
    pool.utf8Bytes index = .ok bytes ↔ pool.get? index = some (.utf8 bytes) := by
  unfold utf8Bytes
  split
  case h_1 bytes' hget => simp [hget]
  case h_2 hget => simpa using hget bytes

theorem text_eq_ok_iff {text : String} : pool.text index = .ok text ↔
    ∃ bytes, pool.get? index = some (.utf8 bytes) ∧ ModifiedUtf8.decode bytes = text := by
  simp only [← utf8Bytes_eq_ok_iff, ConstantPool.text]
  cases pool.utf8Bytes index with
  | error error => simp [Except.map]
  | ok bytes => simp [Except.map]

theorem className_eq_ok_iff {text : String} : pool.className index = .ok text ↔
    ∃ name, pool.get? index = some (.class name) ∧ pool.text name = .ok text := by
  unfold className
  split
  case h_1 name hget => simp [hget]
  case h_2 hget =>
    simp only [reduceCtorEq, false_iff]
    rintro ⟨name, hname, -⟩
    exact hget name hname

theorem nameAndType_eq_ok_iff {texts : String × String} : pool.nameAndType index = .ok texts ↔
    ∃ name descriptor, pool.get? index = some (.nameAndType name descriptor) ∧
      pool.text name = .ok texts.1 ∧ pool.text descriptor = .ok texts.2 := by
  unfold nameAndType
  split
  case h_1 name descriptor hget =>
    simp only [hget, Option.some.injEq, Constant.nameAndType.injEq, bind_eq_ok_iff]
    constructor
    · rintro ⟨_, hname, _, hdescriptor, ⟨⟩⟩
      exact ⟨name, descriptor, ⟨rfl, rfl⟩, hname, hdescriptor⟩
    · rintro ⟨_, _, ⟨rfl, rfl⟩, hname, hdescriptor⟩
      exact ⟨_, hname, _, hdescriptor, rfl⟩
  case h_2 hget =>
    simp only [reduceCtorEq, false_iff]
    rintro ⟨name, descriptor, hboth, -⟩
    exact hget name descriptor hboth

theorem checkUtf8_eq_ok_iff :
    pool.checkUtf8 index = .ok () ↔ ∃ bytes, pool.get? index = some (.utf8 bytes) := by
  unfold checkUtf8
  split
  case h_1 bytes hget => simp [hget]
  case h_2 hget => simpa using hget

theorem checkClass_eq_ok_iff :
    pool.checkClass index = .ok () ↔ ∃ name, pool.get? index = some (.class name) := by
  unfold checkClass
  split
  case h_1 name hget => simp [hget]
  case h_2 hget => simpa using hget

theorem checkNameAndType_eq_ok_iff : pool.checkNameAndType index = .ok () ↔
    ∃ name descriptor, pool.get? index = some (.nameAndType name descriptor) := by
  unfold checkNameAndType
  split
  case h_1 name descriptor hget => simp [hget]
  case h_2 hget => simpa using hget

theorem checkUtf8_of_text {text : String} (h : pool.text index = .ok text) :
    pool.checkUtf8 index = .ok () := by
  obtain ⟨bytes, hbytes, -⟩ := text_eq_ok_iff.mp h
  exact checkUtf8_eq_ok_iff.mpr ⟨bytes, hbytes⟩

theorem checkClass_of_className {text : String} (h : pool.className index = .ok text) :
    pool.checkClass index = .ok () := by
  obtain ⟨name, hname, -⟩ := className_eq_ok_iff.mp h
  exact checkClass_eq_ok_iff.mpr ⟨name, hname⟩

/-- An index that passes the check for texts leads to a text. -/
theorem exists_text (h : pool.checkUtf8 index = .ok ()) : ∃ text, pool.text index = .ok text := by
  obtain ⟨bytes, hbytes⟩ := checkUtf8_eq_ok_iff.mp h
  exact ⟨_, text_eq_ok_iff.mpr ⟨bytes, hbytes, rfl⟩⟩

theorem check_eq_ok_iff : pool.check = .ok () ↔
    ∀ constant ∈ pool.slots.toList, pool.checkConstant constant = .ok () :=
  check_forM_eq_ok_iff

theorem checkConstant_of_get? {constant : Constant} (hcheck : pool.check = .ok ())
    (hget : pool.get? index = some constant) : pool.checkConstant constant = .ok () :=
  check_eq_ok_iff.mp hcheck constant (List.mem_of_getElem? (get?_eq_some_iff.mp hget).1)

/-- Where the whole pool passes its check, what passes the check for classes leads to a name. -/
theorem exists_className (hcheck : pool.check = .ok ()) (h : pool.checkClass index = .ok ()) :
    ∃ text, pool.className index = .ok text := by
  obtain ⟨name, hname⟩ := checkClass_eq_ok_iff.mp h
  obtain ⟨text, htext⟩ := exists_text (checkConstant_of_get? hcheck hname)
  exact ⟨text, className_eq_ok_iff.mpr ⟨name, hname, htext⟩⟩

/-- The constant is a reference to a member of a class, given the indices of both. -/
def RefersTo (pool : ConstantPool) (index owner member : UInt16) : Prop :=
  pool.get? index = some (.fieldRef owner member) ∨
    pool.get? index = some (.methodRef owner member) ∨
    pool.get? index = some (.interfaceMethodRef owner member)

theorem memberReference_eq_ok_iff (h : pool.RefersTo index first second) :
    pool.memberReference index = .ok reference ↔ pool.className first = .ok reference.owner ∧
      pool.nameAndType second = .ok (reference.name, reference.descriptor) := by
  -- The three kinds of references are looked up in the same way.
  have hrun : pool.memberReference index = (do
      let owner ← pool.className first
      let texts ← pool.nameAndType second
      return ⟨owner, texts.1, texts.2⟩) := by
    rcases h with hget | hget | hget <;> rw [memberReference, hget]
  rw [hrun]
  simp only [bind_eq_ok_iff]
  constructor
  · rintro ⟨owner, howner, ⟨name, descriptor⟩, hmember, ⟨⟩⟩
    exact ⟨howner, hmember⟩
  · rintro ⟨howner, hmember⟩
    exact ⟨_, howner, _, hmember, rfl⟩

theorem exists_memberReference (hcheck : pool.check = .ok ())
    (h : pool.RefersTo index first second) :
    ∃ reference, pool.memberReference index = .ok reference := by
  have hparts : pool.checkClass first = .ok () ∧ pool.checkNameAndType second = .ok () := by
    rcases h with hget | hget | hget <;>
      exact check_bind_eq_ok_iff.mp (checkConstant_of_get? hcheck hget)
  obtain ⟨hfirst, hsecond⟩ := hparts
  -- The owner has a name, and the other part has a name and a type.
  obtain ⟨owner, howner⟩ := exists_className hcheck hfirst
  obtain ⟨text, text', hboth⟩ := checkNameAndType_eq_ok_iff.mp hsecond
  obtain ⟨htext, htext'⟩ := check_bind_eq_ok_iff.mp (checkConstant_of_get? hcheck hboth)
  obtain ⟨name, hname⟩ := exists_text htext
  obtain ⟨descriptor, hdescriptor⟩ := exists_text htext'
  exact ⟨⟨owner, name, descriptor⟩, (memberReference_eq_ok_iff h).mpr
    ⟨howner, nameAndType_eq_ok_iff.mpr ⟨_, _, hboth, hname, hdescriptor⟩⟩⟩

/-- All slots keep their constants, and new ones come behind them. -/
def Grows (before after : ConstantPool) : Prop := before.slots.toList <+: after.slots.toList

namespace Grows

theorem refl (pool : ConstantPool) : pool.Grows pool := List.prefix_rfl

theorem trans {middle : ConstantPool} (h : before.Grows middle) (h' : middle.Grows after) :
    before.Grows after :=
  List.IsPrefix.trans h h'

variable (h : before.Grows after)

include h

theorem get? {constant : Constant} (hget : before.get? index = some constant) :
    after.get? index = some constant := by
  obtain ⟨hslot, husable⟩ := get?_eq_some_iff.mp hget
  obtain ⟨added, hslots⟩ := h
  obtain ⟨hlt, -⟩ := List.getElem?_eq_some_iff.mp hslot
  refine get?_eq_some_iff.mpr ⟨?_, husable⟩
  rw [← hslots, List.getElem?_append_left hlt, hslot]

/-- Where there is a constant, looking it up gives the same. -/
theorem get?_eq (hused : before.get? index ≠ none) : after.get? index = before.get? index := by
  obtain ⟨constant, hget⟩ := Option.ne_none_iff_exists'.mp hused
  rw [hget, h.get? hget]

/-- Whatever an old index led to, it leads to now. -/
theorem get?_eq_of_lt (hindex : index.toNat < before.size) :
    after.get? index = before.get? index := by
  obtain ⟨added, hslots⟩ := h
  have hslot : after.slots[index.toNat]? = before.slots[index.toNat]? := by
    rw [← Array.getElem?_toList, ← Array.getElem?_toList, ← hslots]
    exact List.getElem?_append_left hindex
  rw [ConstantPool.get?, ConstantPool.get?, hslot]

theorem utf8Bytes {bytes : Bytes} (hbytes : before.utf8Bytes index = .ok bytes) :
    after.utf8Bytes index = .ok bytes :=
  utf8Bytes_eq_ok_iff.mpr (h.get? (utf8Bytes_eq_ok_iff.mp hbytes))

theorem text {text : String} (htext : before.text index = .ok text) :
    after.text index = .ok text := by
  obtain ⟨bytes, hbytes, hdecode⟩ := text_eq_ok_iff.mp htext
  exact text_eq_ok_iff.mpr ⟨bytes, h.get? hbytes, hdecode⟩

theorem text_eq (hcheck : before.checkUtf8 index = .ok ()) :
    after.text index = before.text index := by
  obtain ⟨text, htext⟩ := exists_text hcheck
  rw [htext, h.text htext]

theorem className {text : String} (hname : before.className index = .ok text) :
    after.className index = .ok text := by
  obtain ⟨name, hget, htext⟩ := className_eq_ok_iff.mp hname
  exact className_eq_ok_iff.mpr ⟨name, h.get? hget, h.text htext⟩

theorem nameAndType {texts : String × String}
    (htexts : before.nameAndType index = .ok texts) : after.nameAndType index = .ok texts := by
  obtain ⟨name, descriptor, hget, hname, hdescriptor⟩ := nameAndType_eq_ok_iff.mp htexts
  exact nameAndType_eq_ok_iff.mpr
    ⟨name, descriptor, h.get? hget, h.text hname, h.text hdescriptor⟩

theorem memberReference (hget : before.get? index = some (.fieldRef first second))
    (hreference : before.memberReference index = .ok reference) :
    after.memberReference index = .ok reference := by
  obtain ⟨howner, hmember⟩ := (memberReference_eq_ok_iff (.inl hget)).mp hreference
  exact (memberReference_eq_ok_iff (.inl (h.get? hget))).mpr
    ⟨h.className howner, h.nameAndType hmember⟩

theorem checkUtf8 (hcheck : before.checkUtf8 index = .ok ()) : after.checkUtf8 index = .ok () := by
  obtain ⟨bytes, hbytes⟩ := checkUtf8_eq_ok_iff.mp hcheck
  exact checkUtf8_eq_ok_iff.mpr ⟨bytes, h.get? hbytes⟩

theorem checkClass (hcheck : before.checkClass index = .ok ()) :
    after.checkClass index = .ok () := by
  obtain ⟨name, hname⟩ := checkClass_eq_ok_iff.mp hcheck
  exact checkClass_eq_ok_iff.mpr ⟨name, h.get? hname⟩

theorem checkOptionalClass (hcheck : before.checkOptionalClass index = .ok ()) :
    after.checkOptionalClass index = .ok () := by
  unfold ConstantPool.checkOptionalClass at *
  split at hcheck
  case isTrue hzero => rw [if_pos hzero]
  case isFalse hnonzero => rw [if_neg hnonzero, h.checkClass hcheck]

theorem checkNameAndType (hcheck : before.checkNameAndType index = .ok ()) :
    after.checkNameAndType index = .ok () := by
  obtain ⟨name, descriptor, hboth⟩ := checkNameAndType_eq_ok_iff.mp hcheck
  exact checkNameAndType_eq_ok_iff.mpr ⟨name, descriptor, h.get? hboth⟩

theorem checkConstantValue (hcheck : before.checkConstantValue index = .ok ()) :
    after.checkConstantValue index = .ok () := by
  have hused : before.get? index ≠ none := by
    intro hnone
    rw [ConstantPool.checkConstantValue, hnone] at hcheck
    cases hcheck
  rwa [ConstantPool.checkConstantValue, h.get?_eq hused]

/-- The cross references of a constant go on leading to entries of the right kind. -/
theorem checkConstant {constant : Constant} (hcheck : before.checkConstant constant = .ok ()) :
    after.checkConstant constant = .ok () := by
  cases constant with
  | unusable | utf8 | integer | float | long | double => rfl
  | «class» | string | methodType | module | package => exact h.checkUtf8 hcheck
  | fieldRef | methodRef | interfaceMethodRef =>
    obtain ⟨howner, hmember⟩ := check_bind_eq_ok_iff.mp hcheck
    exact check_bind_eq_ok_iff.mpr ⟨h.checkClass howner, h.checkNameAndType hmember⟩
  | nameAndType =>
    obtain ⟨hname, hdescriptor⟩ := check_bind_eq_ok_iff.mp hcheck
    exact check_bind_eq_ok_iff.mpr ⟨h.checkUtf8 hname, h.checkUtf8 hdescriptor⟩
  | methodHandle kind target =>
    have hused : before.get? target ≠ none := by
      intro hnone
      rw [ConstantPool.checkConstant, hnone] at hcheck
      cases hcheck
    rwa [ConstantPool.checkConstant, h.get?_eq hused]
  | dynamic | invokeDynamic => exact h.checkNameAndType hcheck

end Grows

end ClassThaw.ConstantPool
