import ClassThaw.AnnotationInfo
import ClassThaw.Proofs.Check

namespace ClassThaw

namespace ElementValue

/-- What holds of an element value as soon as it holds of those inside it holds of all of them. -/
@[elab_as_elim]
theorem induct {motive : ElementValue → Prop}
    (constant : ∀ tag index, motive (.constant tag index))
    (enum : ∀ type name, motive (.enum type name))
    (classes : ∀ descriptor, motive (.class descriptor))
    (nested : ∀ type elements, (∀ element ∈ elements, motive element.2) →
      motive (.nested type elements))
    (array : ∀ values, (∀ value ∈ values, motive value) → motive (.array values))
    (value : ElementValue) : motive value :=
  @ElementValue.rec motive (fun elements => ∀ element ∈ elements, motive element.2)
    (fun values => ∀ value ∈ values, motive value) (fun element => motive element.2)
    constant enum classes nested array
    (List.forall_mem_nil _) (fun _ _ hfirst hrest => List.forall_mem_cons.mpr ⟨hfirst, hrest⟩)
    (List.forall_mem_nil _) (fun _ _ hfirst hrest => List.forall_mem_cons.mpr ⟨hfirst, hrest⟩)
    (fun _ _ hvalue => hvalue) value

mutual

/-- How much deeper than the element value itself the deepest value or annotation in it lies. -/
def depth : ElementValue → Nat
  | .constant _ _ | .enum _ _ | .class _ => 0
  | .nested _ elements => 1 + depthInElements elements
  | .array values => depthInValues values

def depthInValues : List ElementValue → Nat
  | [] => 0
  | value :: values => max (1 + value.depth) (depthInValues values)

def depthInElements : List (UInt16 × ElementValue) → Nat
  | [] => 0
  | (_, value) :: elements => max (1 + value.depth) (depthInElements elements)

end

theorem depthInValues_le_iff {values : List ElementValue} {limit : Nat} :
    depthInValues values ≤ limit ↔ ∀ value ∈ values, value.depth < limit := by
  induction values with
  | nil => simp [depthInValues]
  | cons value values ih =>
    rw [depthInValues, Nat.max_le, ih, List.forall_mem_cons, Nat.add_comm, Nat.succ_le_iff]

theorem depthInElements_le_iff {elements : List (UInt16 × ElementValue)} {limit : Nat} :
    depthInElements elements ≤ limit ↔ ∀ element ∈ elements, element.2.depth < limit := by
  induction elements with
  | nil => simp [depthInElements]
  | cons element elements ih =>
    rw [depthInElements, Nat.max_le, ih, List.forall_mem_cons, Nat.add_comm, Nat.succ_le_iff]

theorem checkValues_eq_ok_iff {pool : ConstantPool} {values : List ElementValue} :
    checkValues pool values = .ok () ↔ ∀ value ∈ values, value.check pool = .ok () := by
  induction values with
  | nil => exact iff_of_true rfl (List.forall_mem_nil _)
  | cons value values ih => rw [checkValues, check_bind_eq_ok_iff, ih, List.forall_mem_cons]

theorem checkElements_eq_ok_iff {pool : ConstantPool} {elements : List (UInt16 × ElementValue)} :
    checkElements pool elements = .ok () ↔
      ∀ element ∈ elements, pool.checkUtf8 element.1 = .ok () ∧ element.2.check pool = .ok () := by
  induction elements with
  | nil => exact iff_of_true rfl (List.forall_mem_nil _)
  | cons element elements ih =>
    rw [checkElements, check_bind_eq_ok_iff, check_bind_eq_ok_iff, ih, List.forall_mem_cons,
      and_assoc]

end ElementValue

namespace AnnotationInfo

def depth (info : AnnotationInfo) : Nat := ElementValue.depthInElements info.elements

theorem check_eq_ok_iff {info : AnnotationInfo} {pool : ConstantPool} :
    info.check pool = .ok () ↔ pool.checkUtf8 info.type = .ok () ∧
      ElementValue.checkElements pool info.elements = .ok () := by
  rw [check, toValue, ElementValue.check, check_bind_eq_ok_iff]

end AnnotationInfo

end ClassThaw
