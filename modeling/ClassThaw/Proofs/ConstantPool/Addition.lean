import ClassThaw.Proofs.ClassFile.Layout
import ClassThaw.Proofs.ConstantPool.Growth
import ClassThaw.Proofs.Text.ModifiedUtf8

namespace ClassThaw.ConstantPool

/-- The index leads to the stored form of a text. -/
def IsText (text : String) (index : UInt16) (pool : ConstantPool) : Prop :=
  pool.get? index = some (.utf8 (ModifiedUtf8.encode text))

def IsClass (name : String) (index : UInt16) (pool : ConstantPool) : Prop :=
  ∃ text, pool.get? index = some (.class text) ∧ pool.IsText name text

def IsString (literal : String) (index : UInt16) (pool : ConstantPool) : Prop :=
  ∃ text, pool.get? index = some (.string text) ∧ pool.IsText literal text

def IsNameAndType (name descriptor : String) (index : UInt16) (pool : ConstantPool) : Prop :=
  ∃ first second, pool.get? index = some (.nameAndType first second) ∧
    pool.IsText name first ∧ pool.IsText descriptor second

/-- The index leads to a reference of the kind that `make` builds. -/
def IsReference (make : UInt16 → UInt16 → Constant) (owner name descriptor : String)
    (index : UInt16) (pool : ConstantPool) : Prop :=
  ∃ first second, pool.get? index = some (make first second) ∧ pool.IsClass owner first ∧
    pool.IsNameAndType name descriptor second

section growth

variable {before after : ConstantPool} {index : UInt16}

theorem IsText.grow {text : String} (hgrows : before.Grows after)
    (h : before.IsText text index) : after.IsText text index :=
  hgrows.get? h

theorem IsClass.grow {name : String} (hgrows : before.Grows after)
    (h : before.IsClass name index) : after.IsClass name index := by
  obtain ⟨text, hclass, htext⟩ := h
  exact ⟨text, hgrows.get? hclass, htext.grow hgrows⟩

theorem IsNameAndType.grow {name descriptor : String} (hgrows : before.Grows after)
    (h : before.IsNameAndType name descriptor index) :
    after.IsNameAndType name descriptor index := by
  obtain ⟨first, second, hboth, hname, hdescriptor⟩ := h
  exact ⟨first, second, hgrows.get? hboth, hname.grow hgrows, hdescriptor.grow hgrows⟩

theorem IsReference.grow {make : UInt16 → UInt16 → Constant} {owner name descriptor : String}
    (hgrows : before.Grows after) (h : before.IsReference make owner name descriptor index) :
    after.IsReference make owner name descriptor index := by
  obtain ⟨first, second, hreference, howner, hmember⟩ := h
  exact ⟨first, second, hgrows.get? hreference, howner.grow hgrows, hmember.grow hgrows⟩

end growth

section checks

variable {pool : ConstantPool} {index : UInt16}

theorem IsText.check {text : String} (h : pool.IsText text index) :
    pool.checkUtf8 index = .ok () :=
  checkUtf8_eq_ok_iff.mpr ⟨_, h⟩

theorem IsText.text_eq {text : String} (h : pool.IsText text index) :
    pool.text index = .ok text :=
  text_eq_ok_iff.mpr ⟨_, h, ModifiedUtf8.decode_encode text⟩

theorem IsClass.check {name : String} (h : pool.IsClass name index) :
    pool.checkClass index = .ok () := by
  obtain ⟨text, hclass, -⟩ := h
  exact checkClass_eq_ok_iff.mpr ⟨text, hclass⟩

theorem IsNameAndType.check {name descriptor : String}
    (h : pool.IsNameAndType name descriptor index) : pool.checkNameAndType index = .ok () := by
  obtain ⟨first, second, hboth, -⟩ := h
  exact checkNameAndType_eq_ok_iff.mpr ⟨first, second, hboth⟩

theorem IsClass.className_eq {name : String} (h : pool.IsClass name index) :
    pool.className index = .ok name := by
  obtain ⟨text, hclass, htext⟩ := h
  exact className_eq_ok_iff.mpr ⟨text, hclass, htext.text_eq⟩

theorem IsNameAndType.nameAndType_eq {name descriptor : String}
    (h : pool.IsNameAndType name descriptor index) :
    pool.nameAndType index = .ok (name, descriptor) := by
  obtain ⟨first, second, hboth, hname, hdescriptor⟩ := h
  exact nameAndType_eq_ok_iff.mpr ⟨first, second, hboth, hname.text_eq, hdescriptor.text_eq⟩

/-- The reference that has been added for a member resolves to what it was added for. -/
theorem IsReference.memberReference_eq {make : UInt16 → UInt16 → Constant}
    {owner name descriptor : String}
    (hrefers : ∀ first second, pool.get? index = some (make first second) →
      pool.RefersTo index first second)
    (h : pool.IsReference make owner name descriptor index) :
    pool.memberReference index = .ok ⟨owner, name, descriptor⟩ := by
  obtain ⟨first, second, hget, howner, hmember⟩ := h
  exact (memberReference_eq_ok_iff (hrefers first second hget)).mpr
    ⟨howner.className_eq, hmember.nameAndType_eq⟩

end checks

section additions

variable {α : Type} {change : PoolChange α} {result : α → ConstantPool → Prop}
  {kept : ConstantPool → Prop}

/-- What holds of the pool before, and is not undone by growing, holds on beside the result. -/
theorem Adds.beside (h : Adds (fun _ => True) change result)
    (hkept : ∀ before after : ConstantPool, before.Grows after → kept before → kept after) :
    Adds kept change fun value pool => result value pool ∧ kept pool :=
  (h.keep hkept).weaken (fun _ hold => ⟨trivial, hold⟩) fun _ _ hboth => hboth

/-- The constant's references lead to what has been added before it. -/
theorem adds_intern_of (constant : Constant) (husable : constant ≠ .unusable)
    (hfits : constant.Fits)
    (hkept : ∀ before after : ConstantPool, before.Grows after → kept before → kept after)
    (hcheck : ∀ pool : ConstantPool, kept pool → pool.checkConstant constant = .ok ())
    {result : UInt16 → ConstantPool → Prop}
    (hresult : ∀ index (pool : ConstantPool), pool.get? index = some constant → kept pool →
      result index pool) :
    Adds kept (intern constant) result :=
  ((adds_intern constant husable hfits).keep hkept).weaken
    (fun pool hold => ⟨hcheck pool hold, hold⟩)
    fun index pool hboth => hresult index pool hboth.1 hboth.2

theorem adds_internText (text : String) :
    Adds (fun _ => True) (internText text) (IsText text) := by
  apply adds_unless
  intro hpassed
  have hfits : (Constant.utf8 (ModifiedUtf8.encode text)).Fits :=
    Nat.lt_succ_of_le (Nat.not_lt.mp hpassed)
  have hadds := adds_intern (.utf8 (ModifiedUtf8.encode text)) (by simp) hfits
  exact hadds.weaken (fun _ _ => rfl) fun _ _ hget => hget

theorem adds_internClass (name : String) :
    Adds (fun _ => True) (internClass name) (IsClass name) := by
  apply (adds_internText name).bind
  intro text
  refine adds_intern_of (.class text) (by simp) trivial (fun _ _ hgrows => IsText.grow hgrows)
    (fun _ htext => htext.check) ?_
  intro index pool hclass htext
  exact ⟨text, hclass, htext⟩

theorem adds_internString (literal : String) :
    Adds (fun _ => True) (internString literal) (IsString literal) := by
  apply (adds_internText literal).bind
  intro text
  refine adds_intern_of (.string text) (by simp) trivial (fun _ _ hgrows => IsText.grow hgrows)
    (fun _ htext => htext.check) ?_
  intro index pool hstring htext
  exact ⟨text, hstring, htext⟩

theorem adds_internInteger (value : Int32) :
    Adds (fun _ => True) (internInteger value)
      fun index pool => pool.get? index = some (.integer value) :=
  (adds_intern (.integer value) (by simp) trivial).weaken (fun _ _ => rfl) fun _ _ hget => hget

theorem adds_internNameAndType (name descriptor : String) :
    Adds (fun _ => True) (internNameAndType name descriptor) (IsNameAndType name descriptor) := by
  apply (adds_internText name).bind
  intro first
  apply ((adds_internText descriptor).beside fun _ _ hgrows => IsText.grow hgrows).bind
  intro second
  refine adds_intern_of (.nameAndType first second) (by simp) trivial
    (fun _ _ hgrows hboth => ⟨hboth.1.grow hgrows, hboth.2.grow hgrows⟩)
    (fun _ hboth => check_bind_eq_ok_iff.mpr ⟨hboth.2.check, hboth.1.check⟩) ?_
  rintro index pool hget ⟨hdescriptor, hname⟩
  exact ⟨first, second, hget, hname, hdescriptor⟩

/-- References to fields and to methods are added in the same way. -/
theorem adds_reference {make : UInt16 → UInt16 → Constant} (owner name descriptor : String)
    (husable : ∀ first second, make first second ≠ .unusable)
    (hfits : ∀ first second, (make first second).Fits)
    (hcheck : ∀ (pool : ConstantPool) first second, pool.checkClass first = .ok () →
      pool.checkNameAndType second = .ok () → pool.checkConstant (make first second) = .ok ()) :
    Adds (fun _ => True) (do
        let first ← internClass owner
        let second ← internNameAndType name descriptor
        intern (make first second))
      (IsReference make owner name descriptor) := by
  apply (adds_internClass owner).bind
  intro first
  apply ((adds_internNameAndType name descriptor).beside fun _ _ hgrows =>
    IsClass.grow hgrows).bind
  intro second
  refine adds_intern_of (make first second) (husable first second) (hfits first second)
    (fun _ _ hgrows hboth => ⟨hboth.1.grow hgrows, hboth.2.grow hgrows⟩)
    (fun pool hboth => hcheck pool first second hboth.2.check hboth.1.check) ?_
  rintro index pool hget ⟨hmember, howner⟩
  exact ⟨first, second, hget, howner, hmember⟩

theorem adds_internFieldRef (owner name descriptor : String) :
    Adds (fun _ => True) (internFieldRef owner name descriptor)
      (IsReference .fieldRef owner name descriptor) :=
  adds_reference owner name descriptor (by simp) (fun _ _ => trivial)
    fun _ _ _ howner hmember => check_bind_eq_ok_iff.mpr ⟨howner, hmember⟩

theorem adds_internMethodRef (owner name descriptor : String) :
    Adds (fun _ => True) (internMethodRef owner name descriptor)
      (IsReference .methodRef owner name descriptor) :=
  adds_reference owner name descriptor (by simp) (fun _ _ => trivial)
    fun _ _ _ howner hmember => check_bind_eq_ok_iff.mpr ⟨howner, hmember⟩

theorem extends_internText (text : String) : Extends (internText text) := by
  intro before
  unfold internText
  dsimp only
  split
  · exact .refl before
  · exact extends_intern _ before

theorem extends_internClass (name : String) : Extends (internClass name) :=
  (extends_internText name).bind fun _ => extends_intern _

theorem extends_internNameAndType (name descriptor : String) :
    Extends (internNameAndType name descriptor) :=
  (extends_internText name).bind fun _ =>
    (extends_internText descriptor).bind fun _ => extends_intern _

end additions

/-- A call that looks for a constant and adds what it lacks. -/
inductive Addition where
  | text (content : String)
  | «class» (name : String)
  | string (literal : String)
  | integer (value : Int32)
  | nameAndType (name descriptor : String)
  | fieldRef (owner name descriptor : String)
  | methodRef (owner name descriptor : String)
  deriving DecidableEq

namespace Addition

/-- What the call does to a pool. -/
def change : Addition → PoolChange UInt16
  | .text content => internText content
  | .class name => internClass name
  | .string literal => internString literal
  | .integer value => internInteger value
  | .nameAndType name descriptor => internNameAndType name descriptor
  | .fieldRef owner name descriptor => internFieldRef owner name descriptor
  | .methodRef owner name descriptor => internMethodRef owner name descriptor

/-- What the index that the call returns leads to. -/
def Found : Addition → UInt16 → ConstantPool → Prop
  | .text content => IsText content
  | .class name => IsClass name
  | .string literal => IsString literal
  | .integer value => fun index pool => pool.get? index = some (.integer value)
  | .nameAndType name descriptor => IsNameAndType name descriptor
  | .fieldRef owner name descriptor => IsReference .fieldRef owner name descriptor
  | .methodRef owner name descriptor => IsReference .methodRef owner name descriptor

theorem adds_change (addition : Addition) :
    Adds (fun _ => True) addition.change addition.Found := by
  cases addition with
  | text content => exact adds_internText content
  | «class» name => exact adds_internClass name
  | string literal => exact adds_internString literal
  | integer value => exact adds_internInteger value
  | nameAndType name descriptor => exact adds_internNameAndType name descriptor
  | fieldRef owner name descriptor => exact adds_internFieldRef owner name descriptor
  | methodRef owner name descriptor => exact adds_internMethodRef owner name descriptor

theorem extends_change (addition : Addition) : Extends addition.change := by
  cases addition with
  | text content => exact extends_internText content
  | «class» name => exact extends_internClass name
  | string literal => exact (extends_internText literal).bind fun _ => extends_intern _
  | integer value => exact extends_intern _
  | nameAndType name descriptor => exact extends_internNameAndType name descriptor
  | fieldRef owner name descriptor | methodRef owner name descriptor =>
    exact (extends_internClass owner).bind fun _ =>
      (extends_internNameAndType name descriptor).bind fun _ => extends_intern _

end Addition

/-- The pools that start empty or in a class file, and to which calls have been made since, whether
these succeeded or not. -/
inductive Reachable : ConstantPool → Prop
  | empty : Reachable empty
  | parsed {bytes : Bytes} {file : ClassFile} : ClassFile.parse bytes = .ok file →
      Reachable file.pool
  | added {pool : ConstantPool} (addition : Addition) : Reachable pool →
      Reachable (addition.change.run pool).2

/-- The pool of a class that has been read is sound. -/
theorem sound_of_parse {bytes : Bytes} {file : ClassFile}
    (h : ClassFile.parse bytes = .ok file) : file.pool.Sound := by
  obtain ⟨hpool, -, hserialize⟩ := ClassFile.parse_eq_ok_iff.mp h
  rw [ClassFile.serialize, check_bind_eq_ok_iff] at hserialize
  exact ⟨hpool, (ClassFile.check_eq_ok_iff.mp hserialize.1).1⟩

theorem Reachable.sound {pool : ConstantPool} (h : pool.Reachable) : pool.Sound := by
  induction h with
  | empty => exact sound_empty
  | parsed hparse => exact sound_of_parse hparse
  | added addition _ ih => exact (addition.adds_change _ ih trivial).1

end ClassThaw.ConstantPool
