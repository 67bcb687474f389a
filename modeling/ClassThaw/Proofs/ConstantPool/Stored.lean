import ClassThaw.Proofs.ConstantPool.Addition

namespace ClassThaw

open ModifiedUtf8 (restored)

/-- A field or a method as it is told apart from all others, by the bytes that its owner, its name
and its type are stored as. -/
structure StoredMember where
  owner : Bytes
  name : Bytes
  descriptor : Bytes
  deriving DecidableEq, Repr

/-- The member whose names are stored as these texts are. -/
def MemberReference.encoded (reference : MemberReference) : StoredMember where
  owner := ModifiedUtf8.encode reference.owner
  name := ModifiedUtf8.encode reference.name
  descriptor := ModifiedUtf8.encode reference.descriptor

namespace ConstantPool

variable {pool : ConstantPool} {index : UInt16}

/-- The index leads to the class whose name has these bytes. -/
def NamesClass (pool : ConstantPool) (index : UInt16) (name : Bytes) : Prop :=
  ∃ text, pool.get? index = some (.class text) ∧ pool.utf8Bytes text = .ok name

/-- The index leads to a reference to the field whose owner, name and type have these bytes. -/
def NamesField (pool : ConstantPool) (index : UInt16) (owner name descriptor : Bytes) : Prop :=
  ∃ first second text text', pool.get? index = some (.fieldRef first second) ∧
    pool.NamesClass first owner ∧ pool.get? second = some (.nameAndType text text') ∧
    pool.utf8Bytes text = .ok name ∧ pool.utf8Bytes text' = .ok descriptor

theorem NamesClass.unique {name name' : Bytes} (h : pool.NamesClass index name)
    (h' : pool.NamesClass index name') : name' = name := by
  obtain ⟨text, hclass, hname⟩ := h
  obtain ⟨text', hclass', hname'⟩ := h'
  obtain rfl := Constant.class.inj (Option.some.inj (hclass.symm.trans hclass'))
  exact Except.ok.inj (hname'.symm.trans hname)

theorem NamesField.unique {owner name descriptor owner' name' descriptor' : Bytes}
    (h : pool.NamesField index owner name descriptor)
    (h' : pool.NamesField index owner' name' descriptor') :
    owner' = owner ∧ name' = name ∧ descriptor' = descriptor := by
  obtain ⟨first, second, text, text', hfield, howner, hmember, hname, hdescriptor⟩ := h
  obtain ⟨_, _, _, _, hfield', howner', hmember', hname', hdescriptor'⟩ := h'
  obtain ⟨rfl, rfl⟩ := Constant.fieldRef.inj (Option.some.inj (hfield.symm.trans hfield'))
  obtain ⟨rfl, rfl⟩ := Constant.nameAndType.inj (Option.some.inj (hmember.symm.trans hmember'))
  exact ⟨howner.unique howner', Except.ok.inj (hname'.symm.trans hname),
    Except.ok.inj (hdescriptor'.symm.trans hdescriptor)⟩

theorem IsClass.namesClass {name : String} (h : pool.IsClass name index) :
    pool.NamesClass index (ModifiedUtf8.encode name) := by
  obtain ⟨text, hclass, htext⟩ := h
  exact ⟨text, hclass, utf8Bytes_eq_ok_iff.mpr htext⟩

theorem IsReference.namesField {owner name descriptor : String}
    (h : pool.IsReference .fieldRef owner name descriptor index) :
    pool.NamesField index (ModifiedUtf8.encode owner) (ModifiedUtf8.encode name)
      (ModifiedUtf8.encode descriptor) := by
  obtain ⟨first, second, hfield, howner, text, text', hmember, hname, hdescriptor⟩ := h
  exact ⟨first, second, text, text', hfield, howner.namesClass, hmember,
    utf8Bytes_eq_ok_iff.mpr hname, utf8Bytes_eq_ok_iff.mpr hdescriptor⟩

/-- The bytes behind a text that has been looked up. -/
theorem exists_utf8Bytes {text : String} (h : pool.text index = .ok text) :
    ∃ bytes, pool.utf8Bytes index = .ok bytes ∧ ModifiedUtf8.encode text = restored bytes := by
  obtain ⟨bytes, hget, rfl⟩ := text_eq_ok_iff.mp h
  exact ⟨bytes, utf8Bytes_eq_ok_iff.mpr hget, rfl⟩

theorem exists_namesClass {text : String} (h : pool.className index = .ok text) :
    ∃ bytes, pool.NamesClass index bytes ∧ ModifiedUtf8.encode text = restored bytes := by
  obtain ⟨name, hclass, htext⟩ := className_eq_ok_iff.mp h
  obtain ⟨bytes, hbytes, hencode⟩ := exists_utf8Bytes htext
  exact ⟨bytes, ⟨name, hclass, hbytes⟩, hencode⟩

/-- The bytes of the name of a class. -/
def storedClass (pool : ConstantPool) (index : UInt16) : Except FormatError Bytes :=
  match pool.get? index with
  | some (.class name) => pool.utf8Bytes name
  | _ => .error (.badConstantIndex index .class)

def storedNameAndType (pool : ConstantPool) (index : UInt16) :
    Except FormatError (Bytes × Bytes) :=
  match pool.get? index with
  | some (.nameAndType name descriptor) => do
    let name ← pool.utf8Bytes name
    let descriptor ← pool.utf8Bytes descriptor
    return (name, descriptor)
  | _ => .error (.badConstantIndex index .nameAndType)

/-- The member that a reference of any kind leads to. -/
def storedMember (pool : ConstantPool) (index : UInt16) : Except FormatError StoredMember :=
  match pool.get? index with
  | some (.fieldRef owner member) | some (.methodRef owner member)
  | some (.interfaceMethodRef owner member) => do
    let owner ← pool.storedClass owner
    let (name, descriptor) ← pool.storedNameAndType member
    return { owner, name, descriptor }
  | _ => .error (.badConstantIndex index .memberReference)

theorem storedClass_eq_ok_iff {name : Bytes} :
    pool.storedClass index = .ok name ↔ pool.NamesClass index name := by
  unfold storedClass
  split
  case h_1 text hget => simp [NamesClass, hget]
  case h_2 hget =>
    simp only [reduceCtorEq, false_iff]
    rintro ⟨text, htext, -⟩
    exact hget text htext

theorem storedNameAndType_eq_ok_iff {name descriptor : Bytes} :
    pool.storedNameAndType index = .ok (name, descriptor) ↔
      ∃ text text', pool.get? index = some (.nameAndType text text') ∧
        pool.utf8Bytes text = .ok name ∧ pool.utf8Bytes text' = .ok descriptor := by
  unfold storedNameAndType
  split
  case h_1 text text' hget =>
    simp only [hget, Option.some.injEq, Constant.nameAndType.injEq, bind_eq_ok_iff]
    constructor
    · rintro ⟨_, hname, _, hdescriptor, ⟨⟩⟩
      exact ⟨text, text', ⟨rfl, rfl⟩, hname, hdescriptor⟩
    · rintro ⟨_, _, ⟨rfl, rfl⟩, hname, hdescriptor⟩
      exact ⟨_, hname, _, hdescriptor, rfl⟩
  case h_2 hget =>
    simp only [reduceCtorEq, false_iff]
    rintro ⟨text, text', hboth, -⟩
    exact hget text text' hboth

theorem storedMember_eq_ok_iff {first second : UInt16} {stored : StoredMember}
    (h : pool.RefersTo index first second) :
    pool.storedMember index = .ok stored ↔ pool.NamesClass first stored.owner ∧
      pool.storedNameAndType second = .ok (stored.name, stored.descriptor) := by
  have hrun : pool.storedMember index = (do
      let owner ← pool.storedClass first
      let names ← pool.storedNameAndType second
      return ⟨owner, names.1, names.2⟩) := by
    rcases h with hget | hget | hget <;> rw [storedMember, hget]
  rw [hrun]
  simp only [bind_eq_ok_iff, storedClass_eq_ok_iff]
  constructor
  · rintro ⟨owner, howner, ⟨name, descriptor⟩, hmember, ⟨⟩⟩
    exact ⟨howner, hmember⟩
  · rintro ⟨howner, hmember⟩
    exact ⟨_, howner, _, hmember, rfl⟩

/-- The two ways to say which field a reference leads to. -/
theorem namesField_iff {owner name descriptor : Bytes} :
    pool.NamesField index owner name descriptor ↔
      (∃ first second, pool.get? index = some (.fieldRef first second)) ∧
        pool.storedMember index = .ok ⟨owner, name, descriptor⟩ := by
  constructor
  · rintro ⟨first, second, text, text', hfield, howner, hmember⟩
    exact ⟨⟨first, second, hfield⟩, (storedMember_eq_ok_iff (.inl hfield)).mpr
      ⟨howner, storedNameAndType_eq_ok_iff.mpr ⟨text, text', hmember⟩⟩⟩
  · rintro ⟨⟨first, second, hfield⟩, hstored⟩
    obtain ⟨howner, hboth⟩ := (storedMember_eq_ok_iff (.inl hfield)).mp hstored
    obtain ⟨text, text', hmember⟩ := storedNameAndType_eq_ok_iff.mp hboth
    exact ⟨first, second, text, text', hfield, howner, hmember⟩

/-- The reference that has been added for a member has the bytes that its texts are stored as. -/
theorem IsReference.storedMember_eq {make : UInt16 → UInt16 → Constant}
    {owner name descriptor : String}
    (hrefers : ∀ first second, pool.get? index = some (make first second) →
      pool.RefersTo index first second)
    (h : pool.IsReference make owner name descriptor index) :
    pool.storedMember index = .ok (MemberReference.encoded ⟨owner, name, descriptor⟩) := by
  obtain ⟨first, second, hget, howner, text, text', hboth, hname, hdescriptor⟩ := h
  exact (storedMember_eq_ok_iff (hrefers first second hget)).mpr ⟨howner.namesClass,
    storedNameAndType_eq_ok_iff.mpr ⟨text, text', hboth, utf8Bytes_eq_ok_iff.mpr hname,
      utf8Bytes_eq_ok_iff.mpr hdescriptor⟩⟩

end ConstantPool

end ClassThaw
