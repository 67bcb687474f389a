import ClassThaw.EnumRule.Shape
import ClassThaw.Proofs.Access
import ClassThaw.Proofs.ClassFile.View
import ClassThaw.Proofs.Pointwise

namespace ClassThaw

variable {file file' : ClassFile}

/-- What a field at a position is worth as the array of a class's values. -/
def Member.candidate? (pool : ConstantPool) (className : String) (position : Nat) (field : Field) :
    Option ValuesCandidate :=
  if field.access.has .static ∧ field.descriptorText pool = .ok (arrayDescriptor className) then
    (field.nameText pool).toOption.map fun name =>
      { position, name, isSynthetic := field.access.has .synthetic }
  else none

theorem Member.of_candidate? {pool : ConstantPool} {className : String} {position : Nat}
    {field : Field} {candidate : ValuesCandidate}
    (h : field.candidate? pool className position = some candidate) :
    candidate.position = position ∧
      field.descriptorText pool = .ok (arrayDescriptor className) := by
  unfold candidate? at h
  split at h
  case isTrue htests =>
    obtain ⟨name, -, rfl⟩ := Option.map_eq_some_iff.mp h
    exact ⟨rfl, htests.2⟩
  case isFalse => cases h

theorem ValuesCandidate.mem_of_choose? {candidates : List ValuesCandidate} {position : Nat}
    (h : choose? candidates = some position) :
    ∃ candidate ∈ candidates, candidate.position = position := by
  obtain ⟨candidate, hchosen, rfl⟩ := Option.map_eq_some_iff.mp h
  refine ⟨candidate, ?_, rfl⟩
  rw [Option.orElse_eq_orElse, Option.orElse_eq_or] at hchosen
  rcases Option.or_eq_some_iff.mp hchosen with hnamed | ⟨-, hsynthetic⟩
  · obtain ⟨name, -, hfound⟩ := List.exists_of_findSome?_eq_some hnamed
    exact List.mem_of_find?_eq_some hfound
  · exact List.mem_of_find?_eq_some hsynthetic

/-- The position of a method, if it is a constructor. -/
def Member.constructorAt? (pool : ConstantPool) (position : Nat) (method : Method) : Option Nat :=
  if method.isConstructor pool then some position else none

theorem Member.isConstructor_iff {pool : ConstantPool} {method : Method} :
    method.isConstructor pool = true ↔ method.nameText pool = .ok constructorName := by
  rw [isConstructor]
  cases method.nameText pool with
  | error error => simp
  | ok name => simp

theorem Member.isConstructor_congr {before after : ConstantPool} {method method' : Method}
    (h : Member.Alike before after method method') :
    method'.isConstructor after = method.isConstructor before := by
  rw [isConstructor, isConstructor, h.nameText]

namespace ClassFile

theorem valuesCandidates_eq (className : String)
    (h : ∀ field ∈ file.fields, field.check file.pool = .ok ()) :
    file.valuesCandidates className = .ok (file.fields.zipIdx.filterMap fun (field, position) =>
      field.candidate? file.pool className position) := by
  apply filterMapM_eq_ok
  rintro ⟨field, position⟩ hfield
  have hcheck := h field (List.fst_mem_of_mem_zipIdx hfield)
  obtain ⟨name, hname⟩ := Member.exists_nameText hcheck
  obtain ⟨descriptor, hdescriptor⟩ := Member.exists_descriptorText hcheck
  simp only [Member.candidate?, hname, hdescriptor, ok_bind, Except.ok.injEq]
  -- The search drops a field at the first test that it fails; `candidate?` makes both tests at
  -- once.
  cases field.access.has .static with
  | false => rfl
  | true =>
    by_cases hsame : descriptor = arrayDescriptor className
    · simp only [hsame, ne_eq, not_true_eq_false, if_false, and_self, if_true]
      rfl
    · simp only [hsame, ne_eq, not_false_eq_true, if_true, and_false, if_false]
      rfl

theorem constructors_eq (h : ∀ method ∈ file.methods, method.check file.pool = .ok ()) :
    file.constructors = .ok (file.methods.zipIdx.filterMap fun (method, position) =>
      method.constructorAt? file.pool position) := by
  apply filterMapM_eq_ok
  rintro ⟨method, position⟩ hmethod
  obtain ⟨name, hname⟩ := Member.exists_nameText (h method (List.fst_mem_of_mem_zipIdx hmethod))
  simp only [Member.constructorAt?, Member.isConstructor, hname, beq_iff_eq]
  rfl

theorem exists_constructors_iff (h : ∀ method ∈ file.methods, method.check file.pool = .ok ()) :
    (∃ places, file.constructors = .ok places ∧ places ≠ []) ↔
      ∃ method ∈ file.methods, method.isConstructor file.pool = true := by
  rw [constructors_eq h]
  constructor
  · rintro ⟨_, ⟨⟩, hsome⟩
    obtain ⟨place, hplace⟩ := List.exists_mem_of_ne_nil _ hsome
    obtain ⟨⟨method, position⟩, hmethod, hfound⟩ := List.mem_filterMap.mp hplace
    have hat : method.constructorAt? file.pool position = some place := hfound
    refine ⟨method, List.fst_mem_of_mem_zipIdx hmethod, ?_⟩
    by_contra hother
    rw [Member.constructorAt?, if_neg hother] at hat
    cases hat
  · rintro ⟨method, hmethod, hconstructor⟩
    obtain ⟨position, hposition⟩ := List.mem_iff_getElem?.mp hmethod
    have hat : method.constructorAt? file.pool position = some position := by
      rw [Member.constructorAt?, if_pos hconstructor]
    exact ⟨_, rfl, List.ne_nil_of_mem (List.mem_filterMap.mpr
      ⟨(method, position), List.mem_zipIdx_iff_getElem?.mpr hposition, hat⟩)⟩

/-- What makes an enum one that can be opened. -/
theorem enumShape_eq_extensible_iff {position : Nat} {constructors : List Nat} :
    file.enumShape = .ok (.extensible position constructors) ↔
      file.isEnum = .ok true ∧ file.access.has .interface = false ∧
      (∃ className candidates, file.name = .ok className ∧
        file.valuesCandidates className = .ok candidates ∧
        ValuesCandidate.choose? candidates = some position) ∧
      file.constructors = .ok constructors ∧ constructors ≠ [] := by
  constructor
  · intro h
    obtain ⟨isEnum, hisEnum, hshape⟩ := bind_eq_ok_iff.mp h
    cases isEnum with
    | false => cases hshape
    | true =>
      split at hshape
      case isTrue hnot => cases hnot
      case isFalse =>
        split at hshape
        case isTrue => cases hshape
        case isFalse hclass =>
          obtain ⟨className, hname, hshape⟩ := bind_eq_ok_iff.mp hshape
          obtain ⟨candidates, hcandidates, hshape⟩ := bind_eq_ok_iff.mp hshape
          split at hshape
          case h_1 => cases hshape
          case h_2 valuesField hchoose =>
            obtain ⟨places, hplaces, hshape⟩ := bind_eq_ok_iff.mp hshape
            cases places with
            | nil => cases hshape
            | cons place places =>
              obtain ⟨rfl, rfl⟩ := EnumShape.extensible.inj (Except.ok.inj hshape)
              exact ⟨hisEnum, Bool.eq_false_iff.mpr hclass,
                ⟨className, candidates, hname, hcandidates, hchoose⟩, hplaces,
                List.cons_ne_nil place places⟩
  · rintro ⟨hisEnum, hclass, ⟨className, candidates, hname, hcandidates, hchoose⟩, hplaces, hsome⟩
    rw [enumShape, hisEnum, hname, hplaces]
    simp only [ok_bind, hclass, hcandidates, hchoose]
    cases constructors with
    | nil => exact absurd rfl hsome
    | cons place places => rfl

theorem of_mem_valuesCandidates {className : String} {candidates : List ValuesCandidate}
    {candidate : ValuesCandidate} (h : file.valuesCandidates className = .ok candidates)
    (hmem : candidate ∈ candidates) : ∃ field, file.fields[candidate.position]? = some field ∧
      field.access.has .static = true ∧
      field.descriptorText file.pool = .ok (arrayDescriptor className) := by
  obtain ⟨⟨field, position⟩, hfield, hlook⟩ := exists_of_mem_filterMapM h hmem
  rw [List.mem_zipIdx_iff_getElem?] at hfield
  cases hstatic : field.access.has .static with
  | false =>
    simp only [hstatic] at hlook
    cases hlook
  | true =>
    simp only [hstatic] at hlook
    obtain ⟨descriptor, hdescriptor, hlook⟩ := bind_eq_ok_iff.mp hlook
    split at hlook
    case isTrue => cases hlook
    case isFalse hsame =>
      obtain ⟨name, -, hlook⟩ := bind_eq_ok_iff.mp hlook
      obtain rfl := Option.some.inj (Except.ok.inj hlook)
      exact ⟨field, hfield, hstatic, not_not.mp hsame ▸ hdescriptor⟩

/-- The array of values of an enum that can be opened is one of its static fields, and its type is
the array of the class. -/
theorem exists_valuesField {position : Nat} {constructors : List Nat} (hcheck : file.check = .ok ())
    (h : file.enumShape = .ok (.extensible position constructors)) :
    ∃ className field, file.name = .ok className ∧ file.fields[position]? = some field ∧
      field.descriptorText file.pool = .ok (arrayDescriptor className) := by
  have hfields := (check_eq_ok_iff.mp hcheck).2.fields
  obtain ⟨-, -, ⟨className, candidates, hname, hcandidates, hchoose⟩, -⟩ :=
    enumShape_eq_extensible_iff.mp h
  rw [valuesCandidates_eq className hfields] at hcandidates
  obtain rfl := Except.ok.inj hcandidates
  obtain ⟨candidate, hmem, rfl⟩ := ValuesCandidate.mem_of_choose? hchoose
  obtain ⟨⟨field, place⟩, hfield, hcandidate⟩ := List.mem_filterMap.mp hmem
  obtain ⟨hplace, hdescriptor⟩ := Member.of_candidate? hcandidate
  rw [List.mem_zipIdx_iff_getElem?] at hfield
  exact ⟨className, field, hname, hplace ▸ hfield, hdescriptor⟩

/-- Two classes have the same shape if what is looked at is the same in both. -/
theorem enumShape_congr (haccess : file'.access = file.access)
    (hsuper : file'.superName = file.superName) (hname : file'.name = file.name)
    (hfields : ∀ className, file'.valuesCandidates className = file.valuesCandidates className)
    (hmethods : file'.constructors = file.constructors) : file'.enumShape = file.enumShape := by
  simp only [enumShape, isEnum, haccess, hsuper, hname, hfields, hmethods]

/-- Fields that look alike and agree in the flags that are looked at are the same candidates. -/
theorem valuesCandidates_congr (className : String)
    (h : ∀ field ∈ file.fields, field.check file.pool = .ok ())
    (h' : ∀ field ∈ file'.fields, field.check file'.pool = .ok ())
    (hfields : List.Forall₂ (fun field field' =>
      Member.Alike file.pool file'.pool field field' ∧
        field'.access.has .static = field.access.has .static ∧
        field'.access.has .synthetic = field.access.has .synthetic) file.fields file'.fields) :
    file'.valuesCandidates className = file.valuesCandidates className := by
  rw [valuesCandidates_eq className h, valuesCandidates_eq className h']
  refine congrArg Except.ok (filterMap_zipIdx_eq_of_forall₂ hfields ?_ 0)
  rintro field field' position ⟨halike, hstatic, hsynthetic⟩
  simp only [Member.candidate?, halike.nameText, halike.descriptorText, hstatic, hsynthetic]

/-- Methods behind the others that are not constructors do not matter. -/
theorem constructors_congr {existing appended : List Method}
    (h : ∀ method ∈ file.methods, method.check file.pool = .ok ())
    (h' : ∀ method ∈ file'.methods, method.check file'.pool = .ok ())
    (hsplit : file'.methods = existing ++ appended)
    (hmethods : List.Forall₂ (Member.Alike file.pool file'.pool) file.methods existing)
    (happended : ∀ method ∈ appended, method.isConstructor file'.pool = false) :
    file'.constructors = file.constructors := by
  -- What comes behind adds no position, and does not move the positions before it.
  have hnone : (appended.zipIdx existing.length).filterMap (fun (method, position) =>
      method.constructorAt? file'.pool position) = [] := by
    rw [List.filterMap_eq_nil_iff]
    rintro ⟨method, position⟩ hmethod
    have hother := happended method (List.fst_mem_of_mem_zipIdx hmethod)
    simp only [Member.constructorAt?, hother, if_neg Bool.false_ne_true]
  rw [constructors_eq h, constructors_eq h', hsplit, List.zipIdx_append, List.filterMap_append,
    Nat.zero_add, hnone, List.append_nil]
  refine congrArg Except.ok (filterMap_zipIdx_eq_of_forall₂ hmethods ?_ 0)
  intro method method' position halike
  simp only [Member.constructorAt?, Member.isConstructor_congr halike]

end ClassFile

end ClassThaw
