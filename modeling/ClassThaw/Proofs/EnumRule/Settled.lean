import ClassThaw.Proofs.ClassFile.Growth
import ClassThaw.Proofs.EnumRule.Open
import ClassThaw.Proofs.EnumRule.Shape

namespace ClassThaw

theorem Member.isClosedConstructor_opened (method : Method) (pool : ConstantPool) :
    method.opened.isClosedConstructor pool = false := by
  have hpublic : method.opened.access.has .public = true := Access.has_set _ _
  rw [isClosedConstructor, hpublic, Bool.not_true, Bool.and_false]

namespace ClassFile

variable {file : ClassFile} {position : Nat}

theorem frame_withOpenMembers (file : ClassFile) (position : Nat) :
    file.Frame none (file.withOpenMembers position) := by
  refine { Frame.refl file with fields := ?_, methods := ?_ }
  · exact forall₂_modify (List.forall₂_same.mpr fun _ _ => .inl rfl)
      (fun field field' h => Member.MayThaw.thawed h) position
  · refine ⟨_, (List.append_nil _).symm, List.forall₂_map_right_iff.mpr (List.forall₂_same.mpr ?_)⟩
    intro method _
    split
    case isTrue hclosed =>
      have hconstructor := (Bool.and_eq_true_iff.mp hclosed).1
      exact .inr ⟨Member.isConstructor_iff.mp hconstructor, rfl⟩
    case isFalse => exact .inl rfl

/-- Without regard to whether its pool is sound, what may differ in a class that has got the method
is in the frame. -/
theorem HasAppend.exists_frame {className : String} {field : Field}
    {before middle after : ClassFile} (hframe : before.Frame none middle)
    (h : HasAppend className field middle after) : ∃ appended?, before.Frame appended? after := by
  unfold HasAppend at h
  split at h
  case isFalse =>
    subst h
    exact ⟨none, hframe⟩
  case isTrue =>
    obtain ⟨name, descriptor, method, pool, -, -, hgives, rfl⟩ := h
    have hgrows : middle.pool.Grows pool :=
      (extends_appendMethod className name descriptor middle.pool).of_gives hgives
    exact ⟨some method, hframe.append hgrows⟩

theorem EnumOutcome.exists_frame {before after : ClassFile} {patch : EnumPatch}
    (h : before.EnumOutcome patch after) :
    ∃ appended?, before.Frame appended? after := by
  cases h with
  | notEnum | leftAlone => exact ⟨none, .refl before⟩
  | opened _ hopens =>
    cases hopens with
    | astray => exact ⟨none, frame_withOpenMembers before _⟩
    | opened _ _ happend _ => exact happend.exists_frame (frame_withOpenMembers before _)

/-- The class that the rule has opened has just been checked. -/
theorem EnumOutcome.check {before after : ClassFile} {patch : EnumPatch}
    (hcheck : before.check = .ok ()) (h : before.EnumOutcome patch after) :
    after.check = .ok () := by
  cases h with
  | notEnum | leftAlone => exact hcheck
  | opened _ hopens =>
    cases hopens with
    | astray => exact (frame_withOpenMembers before _).check hcheck
    | opened _ _ _ hconsistent =>
      obtain ⟨_, _, -, -, -, hchecked⟩ := hconsistent
      exact hchecked

/-- The array of values at the position is not final, and all constructors are public. -/
structure IsOpen (file : ClassFile) (position : Nat) : Prop where
  values : ∀ field, file.fields[position]? = some field → field.thawed = field
  constructors : ∀ method ∈ file.methods, method.isClosedConstructor file.pool = false

theorem isOpen_withOpenMembers (file : ClassFile) (position : Nat) :
    (file.withOpenMembers position).IsOpen position := by
  constructor
  · intro field hfield
    rw [withOpenMembers, List.getElem?_modify_eq] at hfield
    obtain ⟨field', -, rfl⟩ := Option.map_eq_some_iff.mp hfield
    exact Member.thawed_thawed field'
  · intro method hmethod
    obtain ⟨method', -, rfl⟩ := List.mem_map.mp hmethod
    split
    case isTrue => exact Member.isClosedConstructor_opened method' _
    case isFalse hclosed => exact Bool.eq_false_iff.mpr hclosed

/-- A method that is not a constructor, and constants behind the others, leave the class open. -/
theorem IsOpen.append {method : Method} {pool : ConstantPool} (h : file.IsOpen position)
    (hcheck : ∀ method ∈ file.methods, method.check file.pool = .ok ())
    (hgrows : file.pool.Grows pool) (hmethod : method.isConstructor pool = false) :
    { file with pool, methods := file.methods ++ [method] }.IsOpen position := by
  refine ⟨h.values, ?_⟩
  intro found hfound
  rcases List.mem_append.mp hfound with hold | hnew
  -- An old method is looked at through the new pool.
  · have halike := (Member.Reflagged.refl found).alike hgrows (hcheck found hold)
    have hclosed := h.constructors found hold
    rw [Member.isClosedConstructor] at hclosed ⊢
    rwa [Member.isConstructor_congr halike]
  · obtain rfl := List.mem_singleton.mp hnew
    rw [Member.isClosedConstructor, hmethod, Bool.false_and]

theorem IsOpen.withOpenMembers_eq (h : file.IsOpen position) :
    file.withOpenMembers position = file := by
  have hmethods : file.methods.map (fun method =>
      if method.isClosedConstructor file.pool then method.opened else method) = file.methods := by
    apply map_eq_self
    intro method hmethod
    rw [h.constructors method hmethod, if_neg Bool.false_ne_true]
  rw [withOpenMembers, modify_eq_self h.values, hmethods]

theorem IsOpen.openPatch_eq (h : file.IsOpen position) : file.openPatch position false = {} := by
  have hvalues : file.fields[position]?.any (·.access.has .final) = false := by
    cases hfield : file.fields[position]? with
    | none => rfl
    | some field =>
      have hcleared := Access.has_clear field.access .final (by decide)
      rw [Option.any_some, ← h.values field hfield]
      exact hcleared
  have hconstructors : file.methods.countP (·.isClosedConstructor file.pool) = 0 := by
    refine List.countP_eq_zero.mpr ?_
    intro method hmethod
    exact Bool.eq_false_iff.mp (h.constructors method hmethod)
  rw [openPatch, hvalues, hconstructors]

/-- A class that has the method keeps it, as its texts stay the same. -/
theorem lacksAppend_append {className valuesName valuesDescriptor : String} {method : Method}
    {pool : ConstantPool}
    (hmethod : method.IsAppendMethod className valuesName valuesDescriptor pool) :
    { file with pool, methods := file.methods ++ [method] }.lacksAppend className = false := by
  rw [lacksAppend, findMethod?, List.findIdx?_isNone, List.all_eq_false]
  refine ⟨method, List.mem_append_right _ List.mem_cons_self, ?_⟩
  rw [decide_eq_true_iff, not_not]
  exact hmethod.isNamed

/-- In an open class that has the method and is consistent, opening changes nothing. -/
theorem IsOpen.opens {className : String} {field : Field} (h : file.IsOpen position)
    (hname : file.name = .ok className) (hfield : file.fields[position]? = some field)
    (hfound : file.lacksAppend className = false)
    (hconsistent : file.IsConsistent className field) :
    file.Opens position {} file := by
  have hself := h.withOpenMembers_eq
  have happend : HasAppend className field (file.withOpenMembers position) file := by
    rw [HasAppend, hself, hfound]
    rfl
  have hopens := Opens.opened hname (hself.symm ▸ hfield) happend hconsistent
  rwa [hself, hfound, h.openPatch_eq] at hopens

/-- Opening leads to a class in which opening changes nothing. -/
theorem Opens.again {before after : ClassFile} {patch : EnumPatch} (hsound : before.pool.Sound)
    (hcheck : before.check = .ok ()) (h : before.Opens position patch after) :
    after.Opens position {} after := by
  have hopen := isOpen_withOpenMembers before position
  have hpool : (before.withOpenMembers position).pool.Sound := hsound
  cases h with
  | astray hname hfield =>
    -- There is no field to open, and the constructors have been opened.
    have hself := hopen.withOpenMembers_eq
    have hname' : (before.withOpenMembers position).name = .ok _ := hname
    have hopens := Opens.astray hname' (hself.symm ▸ hfield)
    rwa [hself] at hopens
  | opened hname hfield happend hconsistent =>
    -- The class had the method before, or it has been added now.
    rcases happend.cases hpool with ⟨hfound, rfl⟩ | ⟨method, pool, _, _, hgrows, -, hmethod, rfl⟩
    · exact hopen.opens hname hfield hfound hconsistent
    · have hchecked := (frame_withOpenMembers before position).check hcheck
      have hmethods := (check_eq_ok_iff.mp hchecked).2.methods
      exact (hopen.append hmethods hgrows hmethod.isConstructor).opens (hgrows.className hname)
        hfield (lacksAppend_append hmethod) hconsistent

end ClassFile

end ClassThaw
