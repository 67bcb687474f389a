import ClassThaw.EnumRule.Open
import ClassThaw.Proofs.ClassFile.Layout
import ClassThaw.Proofs.ConstantPool.Lookup

namespace ClassThaw

variable {before after : ConstantPool}

namespace Attribute

variable {pool : ConstantPool}

/-- The types of visible annotations lead to texts. -/
theorem checkUtf8_of_mem_visibleIn {attributes : List Attribute} {info : AnnotationInfo}
    (hcheck : checkAll pool attributes = .ok ()) (hinfo : info ∈ visibleIn attributes) :
    pool.checkUtf8 info.type = .ok () := by
  obtain ⟨item, hitem, hmem⟩ := List.mem_flatMap.mp hinfo
  have hitemCheck := checkAll_eq_ok_iff.mp hcheck item hitem
  cases item with
  | visibleAnnotations name infos =>
    rw [check, check_bind_eq_ok_iff, check_forM_eq_ok_iff] at hitemCheck
    exact (AnnotationInfo.check_eq_ok_iff.mp (hitemCheck.2 info hmem)).1
  | _ => cases hmem

theorem exists_descriptors {attributes : List Attribute}
    (hcheck : checkAll pool attributes = .ok ()) :
    ∃ descriptors, (visibleIn attributes).mapM (·.descriptor pool) = .ok descriptors := by
  apply exists_mapM
  intro info hinfo
  exact ConstantPool.exists_text (checkUtf8_of_mem_visibleIn hcheck hinfo)

theorem exists_text_of_checkName {name : UInt16} {kind? : Option AttributeKind}
    (h : checkName pool name kind? = .ok ()) : ∃ text, pool.text name = .ok text := by
  obtain ⟨text, htext, -⟩ := bind_eq_ok_iff.mp h
  exact ⟨text, htext⟩

/-- The names of an attribute and of all those inside it lead to texts. -/
theorem exists_nameText {item : Attribute} (hcheck : item.check pool = .ok ()) :
    ∀ inner ∈ item.within, ∃ text, pool.text inner.name = .ok text := by
  induction item using induct with
  | code name body attributes ih =>
    rw [check, check_bind_eq_ok_iff, check_bind_eq_ok_iff] at hcheck
    obtain ⟨hname, -, hattributes⟩ := hcheck
    rw [within, List.forall_mem_cons, withinAll_eq_flatMap, List.forall_mem_flatMap]
    refine ⟨exists_text_of_checkName hname, ?_⟩
    intro item hitem
    exact ih item hitem (checkAll_eq_ok_iff.mp hattributes item hitem)
  | constantValue | visibleAnnotations | invisibleAnnotations =>
    rw [check, check_bind_eq_ok_iff] at hcheck
    rw [within, List.forall_mem_singleton]
    · exact exists_text_of_checkName hcheck.1
    · intro _ _ _ hcode
      cases hcode
  | raw =>
    rw [check] at hcheck
    rw [within, List.forall_mem_singleton]
    · exact exists_text_of_checkName hcheck
    · intro _ _ _ hcode
      cases hcode

/-- No name is taken for that of another kind in a pool that has grown. -/
theorem IsReadable.grow {item : Attribute} (hgrows : before.Grows after)
    (hname : ∃ text, before.text item.name = .ok text) (h : item.IsReadable before) :
    item.IsReadable after := by
  refine ⟨?_, h.shallow⟩
  intro hdisguised
  obtain ⟨text, htext⟩ := hname
  cases item with
  | raw name bytes =>
    obtain ⟨kind, hkind⟩ := hdisguised
    -- The name led to a text before, and leads to the same text now.
    have hsame : text = kind.name := Except.ok.inj ((hgrows.text htext).symm.trans hkind)
    exact h.plain ⟨kind, hsame ▸ htext⟩
  | _ => exact hdisguised

theorem forall_isReadable_grow {attributes : List Attribute} (hgrows : before.Grows after)
    (hcheck : checkAll before attributes = .ok ())
    (h : ∀ item ∈ withinAll attributes, item.IsReadable before) :
    ∀ item ∈ withinAll attributes, item.IsReadable after := by
  intro inner hinner
  have hreadable := h inner hinner
  rw [withinAll_eq_flatMap] at hinner
  obtain ⟨item, hitem, hmem⟩ := List.mem_flatMap.mp hinner
  have hname := exists_nameText (checkAll_eq_ok_iff.mp hcheck item hitem) inner hmem
  exact hreadable.grow hgrows hname

end Attribute

namespace Member

variable {F : Type} {pool : ConstantPool} {member member' : Member F}

theorem exists_nameText (h : member.check pool = .ok ()) :
    ∃ text, member.nameText pool = .ok text :=
  ConstantPool.exists_text (check_eq_ok_iff.mp h).1

theorem exists_descriptorText (h : member.check pool = .ok ()) :
    ∃ text, member.descriptorText pool = .ok text :=
  ConstantPool.exists_text (check_eq_ok_iff.mp h).2.1

theorem exists_annotationDescriptors (h : member.check pool = .ok ()) :
    ∃ descriptors, member.annotationDescriptors pool = .ok descriptors :=
  Attribute.exists_descriptors (check_eq_ok_iff.mp h).2.2

/-- Nothing but the flags of a member has changed. -/
structure Reflagged (member member' : Member F) : Prop where
  name : member'.name = member.name
  descriptor : member'.descriptor = member.descriptor
  attributes : member'.attributes = member.attributes

theorem Reflagged.refl (member : Member F) : member.Reflagged member := ⟨rfl, rfl, rfl⟩

theorem Reflagged.eq_of_access (h : member.Reflagged member')
    (haccess : member'.access = member.access) : member' = member := by
  cases member
  cases member'
  rw [Member.mk.injEq]
  exact ⟨haccess, h.name, h.descriptor, h.attributes⟩

theorem reflagged_thawed (field : Field) : field.Reflagged field.thawed := ⟨rfl, rfl, rfl⟩

theorem reflagged_opened (method : Method) : method.Reflagged method.opened := ⟨rfl, rfl, rfl⟩

theorem Reflagged.check_eq (h : member.Reflagged member') :
    member'.check pool = member.check pool := by
  rw [check, check, h.name, h.descriptor, h.attributes]

/-- Seen through their pools, two members have the same texts. -/
structure Alike (before after : ConstantPool) (member member' : Member F) : Prop where
  nameText : member'.nameText after = member.nameText before
  descriptorText : member'.descriptorText after = member.descriptorText before
  annotationDescriptors :
    member'.annotationDescriptors after = member.annotationDescriptors before

theorem Reflagged.alike (h : member.Reflagged member') (hgrows : before.Grows after)
    (hcheck : member.check before = .ok ()) : Alike before after member member' := by
  obtain ⟨hname, hdescriptor, hattributes⟩ := check_eq_ok_iff.mp hcheck
  constructor
  · rw [nameText, nameText, h.name, hgrows.text_eq hname]
  · rw [descriptorText, descriptorText, h.descriptor, hgrows.text_eq hdescriptor]
  -- Only the types of visible annotations are looked up, and the check covers each of them.
  · rw [annotationDescriptors, annotationDescriptors, h.attributes]
    apply mapM_congr_of_mem
    intro info hinfo
    exact hgrows.text_eq (Attribute.checkUtf8_of_mem_visibleIn hattributes hinfo)

end Member

namespace ClassFile

variable {file : ClassFile}

theorem exists_name (h : file.check = .ok ()) : ∃ text, file.name = .ok text := by
  obtain ⟨hpool, hindexed⟩ := check_eq_ok_iff.mp h
  exact ConstantPool.exists_className hpool hindexed.thisClass

theorem exists_superName (h : file.check = .ok ()) : ∃ name?, file.superName = .ok name? := by
  obtain ⟨hpool, hindexed⟩ := check_eq_ok_iff.mp h
  have hsuper := hindexed.superClass
  unfold ConstantPool.checkOptionalClass at hsuper
  unfold superName
  split at hsuper
  case isTrue hzero => exact ⟨none, if_pos hzero⟩
  case isFalse hnonzero =>
    obtain ⟨text, htext⟩ := ConstantPool.exists_className hpool hsuper
    exact ⟨some text, by rw [if_neg hnonzero, htext]; rfl⟩

end ClassFile

end ClassThaw
