import ClassThaw.Proofs.ClassFile.Frame
import ClassThaw.Proofs.ClassFile.Size

namespace ClassThaw

variable {before after : ConstantPool}

namespace ElementValue

theorem checkConstant_grow {tag : UInt8} {index : UInt16} (hgrows : before.Grows after)
    (h : checkConstant before tag index = .ok ()) : checkConstant after tag index = .ok () := by
  unfold checkConstant at *
  split at h
  case h_1 => cases h
  case h_2 kind hkind =>
    split at h
    case isFalse => cases h
    case isTrue hfound =>
      obtain ⟨constant, hget, hsame⟩ := Option.bind_eq_some_iff.mp hfound
      exact if_pos (Option.bind_eq_some_iff.mpr ⟨constant, hgrows.get? hget, hsame⟩)

theorem check_grow (hgrows : before.Grows after) (value : ElementValue)
    (h : value.check before = .ok ()) : value.check after = .ok () := by
  induction value using induct with
  | constant tag index => exact checkConstant_grow hgrows h
  | enum type name =>
    obtain ⟨htype, hname⟩ := check_bind_eq_ok_iff.mp h
    exact check_bind_eq_ok_iff.mpr ⟨hgrows.checkUtf8 htype, hgrows.checkUtf8 hname⟩
  | classes descriptor => exact hgrows.checkUtf8 h
  | nested type elements ih =>
    obtain ⟨htype, helements⟩ := check_bind_eq_ok_iff.mp h
    refine check_bind_eq_ok_iff.mpr ⟨hgrows.checkUtf8 htype, checkElements_eq_ok_iff.mpr ?_⟩
    intro element helement
    obtain ⟨hname, hvalue⟩ := checkElements_eq_ok_iff.mp helements element helement
    exact ⟨hgrows.checkUtf8 hname, ih element helement hvalue⟩
  | array values ih =>
    refine checkValues_eq_ok_iff.mpr ?_
    intro value hvalue
    exact ih value hvalue (checkValues_eq_ok_iff.mp h value hvalue)

end ElementValue

namespace Attribute

theorem checkName_grow {name : UInt16} {kind? : Option AttributeKind} (hgrows : before.Grows after)
    (h : checkName before name kind? = .ok ()) : checkName after name kind? = .ok () := by
  obtain ⟨text, htext, hkind⟩ := bind_eq_ok_iff.mp h
  exact bind_eq_ok_iff.mpr ⟨text, hgrows.text htext, hkind⟩

theorem forM_check_grow {infos : List AnnotationInfo} (hgrows : before.Grows after)
    (h : infos.forM (·.check before) = .ok ()) : infos.forM (·.check after) = .ok () := by
  refine check_forM_eq_ok_iff.mpr ?_
  intro info hinfo
  exact info.toValue.check_grow hgrows (check_forM_eq_ok_iff.mp h info hinfo)

theorem check_grow (hgrows : before.Grows after) (item : Attribute)
    (h : item.check before = .ok ()) : item.check after = .ok () := by
  induction item using induct with
  | constantValue name value =>
    obtain ⟨hname, hvalue⟩ := check_bind_eq_ok_iff.mp h
    exact check_bind_eq_ok_iff.mpr ⟨checkName_grow hgrows hname, hgrows.checkConstantValue hvalue⟩
  | code name body attributes ih =>
    rw [check, check_bind_eq_ok_iff, check_bind_eq_ok_iff, check_forM_eq_ok_iff,
      checkAll_eq_ok_iff] at h ⊢
    obtain ⟨hname, hhandlers, hattributes⟩ := h
    refine ⟨checkName_grow hgrows hname, ?_, ?_⟩
    · intro handler hhandler
      exact hgrows.checkOptionalClass (hhandlers handler hhandler)
    · intro item hitem
      exact ih item hitem (hattributes item hitem)
  | visibleAnnotations name infos | invisibleAnnotations name infos =>
    obtain ⟨hname, hinfos⟩ := check_bind_eq_ok_iff.mp h
    exact check_bind_eq_ok_iff.mpr ⟨checkName_grow hgrows hname, forM_check_grow hgrows hinfos⟩
  | raw name bytes =>
    rw [check] at h ⊢
    exact checkName_grow hgrows h

end Attribute

theorem Member.check_grow {F : Type} {member : Member F} (hgrows : before.Grows after)
    (h : member.check before = .ok ()) : member.check after = .ok () := by
  obtain ⟨hname, hdescriptor, hattributes⟩ := check_eq_ok_iff.mp h
  refine check_eq_ok_iff.mpr ⟨hgrows.checkUtf8 hname, hgrows.checkUtf8 hdescriptor, ?_⟩
  refine Attribute.checkAll_eq_ok_iff.mpr ?_
  intro item hitem
  exact item.check_grow hgrows (Attribute.checkAll_eq_ok_iff.mp hattributes item hitem)

theorem Member.Reflagged.fits_iff {F : Type} {member member' : Member F}
    (h : member.Reflagged member') : member'.Fits ↔ member.Fits := by
  rw [Member.Fits, Member.Fits, h.attributes]

namespace ClassFile

variable {before after : ClassFile} {appended? : Option Method}

/-- In a larger pool, every index of a class leads to what it has led to. -/
theorem check_grow {file : ClassFile} {pool : ConstantPool} (hgrows : file.pool.Grows pool)
    (hpool : pool.check = .ok ()) (hcheck : file.check = .ok ()) :
    { file with pool }.check = .ok () := by
  have hindexed := (check_eq_ok_iff.mp hcheck).2
  refine check_eq_ok_iff.mpr ⟨hpool, ?_⟩
  constructor
  · exact hgrows.checkClass hindexed.thisClass
  · exact hgrows.checkOptionalClass hindexed.superClass
  · intro index hindex
    exact hgrows.checkClass (hindexed.interfaces index hindex)
  · intro field hfield
    exact Member.check_grow hgrows (hindexed.fields field hfield)
  · intro method hmethod
    exact Member.check_grow hgrows (hindexed.methods method hmethod)
  · refine Attribute.checkAll_eq_ok_iff.mpr ?_
    intro item hitem
    exact item.check_grow hgrows (Attribute.checkAll_eq_ok_iff.mp hindexed.attributes item hitem)

/-- All indices of a revised class are old ones, but for those of the new method. -/
theorem Frame.check_append (h : before.Frame appended? after) (hcheck : before.check = .ok ())
    (hpool : after.pool.check = .ok ())
    (happended : ∀ method ∈ appended?, method.check after.pool = .ok ()) :
    after.check = .ok () := by
  have hindexed := (check_eq_ok_iff.mp (check_grow h.pool hpool hcheck)).2
  refine check_eq_ok_iff.mpr ⟨hpool, ?_⟩
  constructor
  · rw [h.thisClass]
    exact hindexed.thisClass
  · rw [h.superClass]
    exact hindexed.superClass
  · rw [h.interfaces]
    exact hindexed.interfaces
  · intro field' hfield'
    obtain ⟨field, hfield, hmay⟩ := exists_mem_of_forall₂ h.fields hfield'
    rw [hmay.reflagged.check_eq]
    exact hindexed.fields field hfield
  · intro method' hmethod'
    obtain ⟨existing, hsplit, hopen⟩ := h.methods
    rw [hsplit] at hmethod'
    rcases List.mem_append.mp hmethod' with hold | hnew
    · obtain ⟨method, hmethod, hmay⟩ := exists_mem_of_forall₂ hopen hold
      rw [hmay.reflagged.check_eq]
      exact hindexed.methods method hmethod
    · exact happended method' (Option.mem_toList.mp hnew)
  · rw [h.attributes]
    exact hindexed.attributes

/-- A class still passes its check with one more method that does. -/
theorem check_append {file : ClassFile} {method : Method} {pool : ConstantPool}
    (hcheck : file.check = .ok ()) (hgrows : file.pool.Grows pool) (hpool : pool.check = .ok ())
    (hmethod : method.check pool = .ok ()) :
    { file with pool, methods := file.methods ++ [method] }.check = .ok () := by
  apply ((Frame.refl file).append hgrows).check_append hcheck hpool
  rintro _ ⟨⟩
  exact hmethod

/-- Flags do not matter to the check of a class. -/
theorem Frame.check (h : before.Frame none after) (hcheck : before.check = .ok ()) :
    after.check = .ok () := by
  have hpool : after.pool.check = .ok () := by
    rw [h.pool_eq rfl]
    exact (check_eq_ok_iff.mp hcheck).1
  apply h.check_append hcheck hpool
  intro method hmethod
  cases hmethod

/-- Whatever a revised class has besides its methods has fitted the file before. -/
theorem Frame.fits_without_methods (h : before.Frame appended? after) (hfits : before.Fits)
    (hpool : after.pool.size < 0x10000) : { after with methods := [] }.Fits := by
  refine ⟨hpool, ?_, ?_, ⟨Nat.zero_lt_succ _, List.forall_mem_nil _⟩, ?_⟩
  · change after.interfaces.length < 0x10000
    rw [h.interfaces]
    exact hfits.interfaces
  · refine ⟨h.fields.length_eq ▸ hfits.fields.1, ?_⟩
    intro field' hfield'
    obtain ⟨field, hfield, hmay⟩ := exists_mem_of_forall₂ h.fields hfield'
    exact hmay.reflagged.fits_iff.mpr (hfits.fields.2 field hfield)
  · change Attribute.TableFits after.attributes
    rw [h.attributes]
    exact hfits.attributes

/-- If the class fits its file, the revised class does unless it has too many methods. -/
theorem Frame.fits_iff (h : before.Frame appended? after) (hfits : before.Fits)
    (hpool : after.pool.size < 0x10000) (happended : ∀ method ∈ appended?, method.Fits) :
    after.Fits ↔ after.methods.length < 0x10000 := by
  constructor
  · intro hafter
    exact hafter.methods.1
  · intro hcount
    obtain ⟨-, hinterfaces, hfields, -, hattributes⟩ := h.fits_without_methods hfits hpool
    refine ⟨hpool, hinterfaces, hfields, ⟨hcount, ?_⟩, hattributes⟩
    intro method' hmethod'
    obtain ⟨existing, hsplit, hopen⟩ := h.methods
    rw [hsplit] at hmethod'
    rcases List.mem_append.mp hmethod' with hold | hnew
    · obtain ⟨method, hmethod, hmay⟩ := exists_mem_of_forall₂ hopen hold
      exact hmay.reflagged.fits_iff.mpr (hfits.methods.2 method hmethod)
    · exact happended method' (Option.mem_toList.mp hnew)

end ClassFile

end ClassThaw
