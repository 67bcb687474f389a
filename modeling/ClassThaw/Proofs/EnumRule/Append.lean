import ClassThaw.EnumRule.Open
import ClassThaw.Proofs.ConstantPool.Addition

namespace ClassThaw

open ConstantPool

/-- In this pool, the method is the one that appends a value to the array in a field. -/
structure Member.IsAppendMethod (className valuesName valuesDescriptor : String) (method : Method)
    (pool : ConstantPool) : Prop where
  access : method.access = .ofFlags [.public, .static, .synchronized, .synthetic]
  name : pool.IsText appendMethodName method.name
  descriptor : pool.IsText (appendDescriptor className) method.descriptor
  body : ∃ code valuesField copyOf arrayClass,
    pool.IsText AttributeKind.code.name code ∧
    pool.IsReference .fieldRef className valuesName valuesDescriptor valuesField ∧
    pool.IsReference .methodRef "java/util/Arrays" "copyOf"
      "([Ljava/lang/Object;I)[Ljava/lang/Object;" copyOf ∧
    pool.IsClass valuesDescriptor arrayClass ∧
    method.attributes = [.code code
      { maxStack := 3
        maxLocals := 3
        code := Instruction.assemble (appendInstructions valuesField copyOf arrayClass)
        handlers := [] } []]

/-- What is added for one constant of the method keeps those before it in place. -/
theorem adds_appendMethod (className valuesName valuesDescriptor : String) :
    Adds (fun _ => True) (appendMethod className valuesName valuesDescriptor)
      (Member.IsAppendMethod className valuesName valuesDescriptor) := by
  apply (adds_internFieldRef className valuesName valuesDescriptor).bind
  intro valuesField
  apply ((adds_internMethodRef _ _ _).beside fun _ _ hgrows => IsReference.grow hgrows).bind
  intro copyOf
  apply ((adds_internClass valuesDescriptor).beside fun _ _ hgrows hkept =>
    ⟨IsReference.grow hgrows hkept.1, hkept.2.grow hgrows⟩).bind
  intro arrayClass
  apply ((adds_internText AttributeKind.code.name).beside fun _ _ hgrows hkept =>
    ⟨IsClass.grow hgrows hkept.1, hkept.2.1.grow hgrows, hkept.2.2.grow hgrows⟩).bind
  intro code
  apply ((adds_internText appendMethodName).beside fun _ _ hgrows hkept =>
    ⟨IsText.grow hgrows hkept.1, hkept.2.1.grow hgrows, hkept.2.2.1.grow hgrows,
      hkept.2.2.2.grow hgrows⟩).bind
  intro name
  apply ((adds_internText (appendDescriptor className)).beside fun _ _ hgrows hkept =>
    ⟨IsText.grow hgrows hkept.1, hkept.2.1.grow hgrows, hkept.2.2.1.grow hgrows,
      hkept.2.2.2.1.grow hgrows, hkept.2.2.2.2.grow hgrows⟩).bind
  intro descriptor
  apply adds_pure
  rintro pool ⟨hdescriptor, hname, hcode, harrayClass, hcopyOf, hvaluesField⟩
  exact ⟨rfl, hname, hdescriptor, code, valuesField, copyOf, arrayClass, hcode, hvaluesField,
    hcopyOf, harrayClass, rfl⟩

theorem extends_appendMethod (className valuesName valuesDescriptor : String) :
    Extends (appendMethod className valuesName valuesDescriptor) := by
  apply (Addition.fieldRef className valuesName valuesDescriptor).extends_change.bind
  intro valuesField
  apply (Addition.methodRef _ _ _).extends_change.bind
  intro copyOf
  apply (Addition.class valuesDescriptor).extends_change.bind
  intro arrayClass
  apply (Addition.text AttributeKind.code.name).extends_change.bind
  intro code
  apply (Addition.text appendMethodName).extends_change.bind
  intro name
  apply (Addition.text (appendDescriptor className)).extends_change.bind
  intro descriptor
  exact extends_pure _

theorem isAppendMethod_of_gives {className name descriptor : String} {before pool : ConstantPool}
    {method : Method} (hsound : before.Sound)
    (h : Gives (appendMethod className name descriptor) before method pool) :
    method.IsAppendMethod className name descriptor pool := by
  obtain ⟨hvalue, rfl⟩ := gives_iff.mp h
  obtain ⟨-, -, happend⟩ := adds_appendMethod className name descriptor before hsound trivial
  exact happend method hvalue

namespace Member.IsAppendMethod

variable {className valuesName valuesDescriptor : String} {method : Method} {pool : ConstantPool}
  (h : method.IsAppendMethod className valuesName valuesDescriptor pool)

include h

theorem isNamed : method.isNamed pool appendMethodName (appendDescriptor className) = true := by
  have hname : method.nameText pool = .ok appendMethodName := h.name.text_eq
  have hdescriptor : method.descriptorText pool = .ok (appendDescriptor className) :=
    h.descriptor.text_eq
  rw [Member.isNamed, hname, hdescriptor]
  simp

theorem isConstructor : method.isConstructor pool = false := by
  have hname : method.nameText pool = .ok appendMethodName := h.name.text_eq
  rw [Member.isConstructor, hname]
  decide

theorem isReadable : ∀ item ∈ Attribute.withinAll method.attributes, item.IsReadable pool := by
  obtain ⟨code, valuesField, copyOf, arrayClass, -, -, -, -, hattributes⟩ := h.body
  rw [hattributes, Attribute.withinAll_eq_flatMap, List.flatMap_singleton, Attribute.within,
    Attribute.withinAll, List.forall_mem_singleton]
  refine ⟨id, ?_⟩
  intro info hinfo
  cases hinfo

end Member.IsAppendMethod

end ClassThaw
