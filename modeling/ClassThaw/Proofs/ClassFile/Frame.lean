import ClassThaw.Proofs.Access
import ClassThaw.Proofs.ClassFile.View
import ClassThaw.Proofs.Pointwise

namespace ClassThaw

variable {before after : ClassFile}

/-- The field is the same, or has lost `final`. -/
def Member.MayThaw (field field' : Field) : Prop := field' = field ∨ field' = field.thawed

/-- The method is the same, or is a constructor that has become public. -/
def Member.MayOpen (pool : ConstantPool) (method method' : Method) : Prop :=
  method' = method ∨ method.nameText pool = .ok constructorName ∧ method' = method.opened

theorem Member.thawed_thawed (field : Field) : field.thawed.thawed = field.thawed := by
  rw [thawed, thawed, Access.clear_clear]

theorem Member.MayThaw.thawed {field field' : Field} (h : field.MayThaw field') :
    field.MayThaw field'.thawed := by
  refine .inr ?_
  rcases h with rfl | rfl
  · rfl
  · exact Member.thawed_thawed field

theorem Member.MayThaw.reflagged {field field' : Field} (h : field.MayThaw field') :
    field.Reflagged field' := by
  rcases h with rfl | rfl
  · exact Member.Reflagged.refl _
  · exact Member.reflagged_thawed field

theorem Member.MayOpen.reflagged {pool : ConstantPool} {method method' : Method}
    (h : method.MayOpen pool method') : method.Reflagged method' := by
  rcases h with rfl | ⟨-, rfl⟩
  · exact Member.Reflagged.refl _
  · exact Member.reflagged_opened method

namespace ClassFile

/-- All that may differ between a class and the class that it is revised to. -/
structure Frame (before : ClassFile) (appended? : Option Method) (after : ClassFile) : Prop where
  minor : after.minor = before.minor
  major : after.major = before.major
  access : after.access = before.access
  thisClass : after.thisClass = before.thisClass
  superClass : after.superClass = before.superClass
  interfaces : after.interfaces = before.interfaces
  attributes : after.attributes = before.attributes
  fields : List.Forall₂ Member.MayThaw before.fields after.fields
  methods : ∃ existing, after.methods = existing ++ appended?.toList ∧
    List.Forall₂ (Member.MayOpen before.pool) before.methods existing
  pool : before.pool.Grows after.pool
  pool_eq : appended? = none → after.pool = before.pool

namespace Frame

theorem refl (file : ClassFile) : file.Frame none file where
  minor := rfl
  major := rfl
  access := rfl
  thisClass := rfl
  superClass := rfl
  interfaces := rfl
  attributes := rfl
  fields := List.forall₂_same.mpr fun _ _ => .inl rfl
  methods := ⟨file.methods, (List.append_nil _).symm, List.forall₂_same.mpr fun _ _ => .inl rfl⟩
  pool := .refl file.pool
  pool_eq _ := rfl

variable {appended? : Option Method}

/-- Fields that have been thawed before anything else may be thawed again. -/
theorem of_fields {fields : List Field} (hfields : List.Forall₂ Member.MayThaw before.fields fields)
    (h : { before with fields }.Frame appended? after) : before.Frame appended? after where
  minor := h.minor
  major := h.major
  access := h.access
  thisClass := h.thisClass
  superClass := h.superClass
  interfaces := h.interfaces
  attributes := h.attributes
  fields := by
    apply forall₂_comp hfields h.fields
    intro field middle field' hfirst hsecond
    rcases hsecond with rfl | rfl
    · exact hfirst
    · exact hfirst.thawed
  methods := h.methods
  pool := h.pool
  pool_eq := h.pool_eq

/-- A method and the constants that it needs come behind the others. -/
theorem append {method : Method} {pool : ConstantPool} (h : before.Frame none after)
    (hgrows : after.pool.Grows pool) :
    before.Frame (some method) { after with pool, methods := after.methods ++ [method] } where
  minor := h.minor
  major := h.major
  access := h.access
  thisClass := h.thisClass
  superClass := h.superClass
  interfaces := h.interfaces
  attributes := h.attributes
  fields := h.fields
  methods := by
    obtain ⟨existing, hmethods, hopen⟩ := h.methods
    refine ⟨existing, ?_, hopen⟩
    rw [hmethods, Option.toList_none, List.append_nil, Option.toList_some]
  pool := h.pool.trans hgrows
  pool_eq := by
    intro hmethod
    cases hmethod

/-- The method that has been added stands right behind the old ones. -/
theorem getElem?_methods (h : before.Frame appended? after) :
    after.methods[before.methods.length]? = appended? := by
  obtain ⟨existing, hsplit, hopen⟩ := h.methods
  rw [hsplit, hopen.length_eq, List.getElem?_append_right le_rfl, Nat.sub_self]
  cases appended? <;> rfl

variable (h : before.Frame appended? after) (hcheck : before.check = .ok ())

include h hcheck

theorem forall₂_alike_fields :
    List.Forall₂ (Member.Alike before.pool after.pool) before.fields after.fields := by
  have hfields := (check_eq_ok_iff.mp hcheck).2.fields
  apply ((List.forall₂_and_left _ _).mpr ⟨hfields, h.fields⟩).imp
  rintro field field' ⟨hfield, hmay⟩
  exact hmay.reflagged.alike h.pool hfield

theorem exists_forall₂_alike_methods : ∃ existing, after.methods = existing ++ appended?.toList ∧
    List.Forall₂ (Member.Alike before.pool after.pool) before.methods existing := by
  have hmethods := (check_eq_ok_iff.mp hcheck).2.methods
  obtain ⟨existing, hsplit, hopen⟩ := h.methods
  refine ⟨existing, hsplit, ((List.forall₂_and_left _ _).mpr ⟨hmethods, hopen⟩).imp ?_⟩
  rintro method method' ⟨hmethod, hmay⟩
  exact hmay.reflagged.alike h.pool hmethod

theorem name_eq : after.name = before.name := by
  obtain ⟨name, hname⟩ := exists_name hcheck
  rw [hname, ClassFile.name, h.thisClass]
  exact h.pool.className hname

theorem superName_eq : after.superName = before.superName := by
  have hsuper := (check_eq_ok_iff.mp hcheck).2.superClass
  rw [superName, superName, h.superClass]
  unfold ConstantPool.checkOptionalClass at hsuper
  split at hsuper
  case isTrue hzero => rw [if_pos hzero, if_pos hzero]
  case isFalse hnonzero =>
    obtain ⟨name, hname⟩ := ConstantPool.exists_className (check_eq_ok_iff.mp hcheck).1 hsuper
    rw [if_neg hnonzero, if_neg hnonzero, hname, h.pool.className hname]

theorem annotationDescriptors_eq : after.annotationDescriptors = before.annotationDescriptors := by
  have hattributes := (check_eq_ok_iff.mp hcheck).2.attributes
  rw [annotationDescriptors, annotationDescriptors, h.attributes]
  apply mapM_congr_of_mem
  intro info hinfo
  exact h.pool.text_eq (Attribute.checkUtf8_of_mem_visibleIn hattributes hinfo)

end Frame

end ClassFile

end ClassThaw
