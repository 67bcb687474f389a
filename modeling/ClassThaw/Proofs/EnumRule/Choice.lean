import ClassThaw.Proofs.EnumRule.Shape

namespace ClassThaw

theorem ValuesCandidate.choose?_eq (candidates : List ValuesCandidate) : choose? candidates =
    ((candidates.find? (·.name == "$VALUES")).map (·.position)).or
      (((candidates.find? (·.name == "ENUM$VALUES")).map (·.position)).or
        ((candidates.find? (·.isSynthetic)).map (·.position))) := by
  rw [choose?, valuesFieldNames, List.findSome?_cons, List.findSome?_cons]
  cases candidates.find? (·.name == "$VALUES") with
  | some candidate => rfl
  | none => cases candidates.find? (·.name == "ENUM$VALUES") <;> rfl

namespace ClassFile

variable {file : ClassFile} {className : String} {kind : Field → Prop} {position : Nat}

/-- The first field of the kind is at the position. -/
def IsFirst (file : ClassFile) (kind : Field → Prop) (position : Nat) : Prop :=
  (∃ field, file.fields[position]? = some field ∧ kind field) ∧
    ∀ place < position, ∀ field, file.fields[place]? = some field → ¬ kind field

/-- The first field of the kind is at the position, or there is none and the position is another
choice. -/
def IsFirstOr (file : ClassFile) (kind : Field → Prop) (otherwise : Nat → Prop) (position : Nat) :
    Prop :=
  file.IsFirst kind position ∨ (∀ field ∈ file.fields, ¬ kind field) ∧ otherwise position

/-- A static field whose type is the array of the class. -/
def HoldsArray (file : ClassFile) (className : String) (field : Field) : Prop :=
  field.access.has .static = true ∧
    field.descriptorText file.pool = .ok ("[L" ++ className ++ ";")

def HoldsArrayAs (file : ClassFile) (className fieldName : String) (field : Field) : Prop :=
  file.HoldsArray className field ∧ field.nameText file.pool = .ok fieldName

def HoldsSyntheticArray (file : ClassFile) (className : String) (field : Field) : Prop :=
  file.HoldsArray className field ∧ field.access.has .synthetic = true

/-- The field at the position holds the array of values: the first with one of the names that
compilers give, or else the first that a compiler has added. -/
def IsValuesField (file : ClassFile) (className : String) : Nat → Prop :=
  file.IsFirstOr (file.HoldsArrayAs className "$VALUES") <|
    file.IsFirstOr (file.HoldsArrayAs className "ENUM$VALUES") <|
      file.IsFirst (file.HoldsSyntheticArray className)

/-- The class is an enum with all that the rule relies on. -/
structure IsExtensible (file : ClassFile) (className : String) (position : Nat) : Prop where
  isEnum : file.access.has .enum = true ∨ file.superName = .ok (some "java/lang/Enum")
  isClass : file.access.has .interface = false
  name : file.name = .ok className
  values : file.IsValuesField className position
  constructor : ∃ method ∈ file.methods, method.nameText file.pool = .ok "<init>"

instance : DecidablePred (file.HoldsArray className) :=
  fun _ => inferInstanceAs (Decidable (_ ∧ _))

instance {fieldName : String} : DecidablePred (file.HoldsArrayAs className fieldName) :=
  fun _ => inferInstanceAs (Decidable (_ ∧ _))

instance : DecidablePred (file.HoldsSyntheticArray className) :=
  fun _ => inferInstanceAs (Decidable (_ ∧ _))

theorem findIdx?_eq_some_iff_isFirst [DecidablePred kind] :
    file.fields.findIdx? (decide <| kind ·) = some position ↔ file.IsFirst kind position := by
  rw [List.findIdx?_eq_some_iff_getElem]
  constructor
  · rintro ⟨hlt, hkind, hbefore⟩
    refine ⟨⟨_, List.getElem?_eq_getElem hlt, of_decide_eq_true hkind⟩, ?_⟩
    intro place hplace field hfield
    obtain ⟨_, rfl⟩ := List.getElem?_eq_some_iff.mp hfield
    exact of_decide_eq_false (Bool.eq_false_iff.mpr (hbefore place hplace))
  · rintro ⟨⟨field, hfield, hkind⟩, hbefore⟩
    obtain ⟨hlt, rfl⟩ := List.getElem?_eq_some_iff.mp hfield
    refine ⟨hlt, decide_eq_true hkind, ?_⟩
    intro place hplace htest
    have hlt' := Nat.lt_trans hplace hlt
    exact hbefore place hplace _ (List.getElem?_eq_getElem hlt') (of_decide_eq_true htest)

theorem findIdx?_or_eq_some_iff [DecidablePred kind] {otherwise : Option Nat}
    {another : Nat → Prop} (h : otherwise = some position ↔ another position) :
    (file.fields.findIdx? (decide <| kind ·)).or otherwise = some position ↔
      file.IsFirstOr kind another position := by
  rw [Option.or_eq_some_iff, findIdx?_eq_some_iff_isFirst, List.findIdx?_eq_none_iff, h]
  simp only [decide_eq_false_iff_not]
  exact Iff.rfl

/-- To look among the candidates is to look among the fields. -/
theorem find?_candidates [DecidablePred kind] {test : ValuesCandidate → Bool}
    (h : ∀ field ∈ file.fields, ∀ place,
      (field.candidate? file.pool className place).any test = true ↔ kind field) :
    ((file.fields.zipIdx.filterMap fun (field, place) =>
      field.candidate? file.pool className place).find? test).map (·.position) =
        file.fields.findIdx? (decide <| kind ·) := by
  have hkind : ∀ field ∈ file.fields, ∀ place,
      (field.candidate? file.pool className place).any test = decide (kind field) := by
    intro field hfield place
    rw [Bool.eq_iff_iff, h field hfield, decide_eq_true_iff]
  rw [map_find?_filterMap_zipIdx (fun _ _ _ hfound => (Member.of_candidate? hfound).1) hkind]
  exact Option.map_id'

/-- A candidate with the name is a field with the name. -/
theorem any_candidate?_named_iff {field : Field} {place : Nat} (fieldName : String) :
    (field.candidate? file.pool className place).any (·.name == fieldName) = true ↔
      file.HoldsArrayAs className fieldName field := by
  rw [Member.candidate?, HoldsArrayAs]
  split
  case isFalse hother => exact iff_of_false Bool.false_ne_true (fun h => hother h.1)
  case isTrue harray =>
    have hholds : file.HoldsArray className field := harray
    rw [and_iff_right hholds]
    cases field.nameText file.pool with
    | error error =>
      refine iff_of_false Bool.false_ne_true ?_
      intro hname
      cases hname
    | ok name =>
      rw [Except.ok.injEq]
      exact beq_iff_eq

theorem any_candidate?_synthetic_iff {field : Field} {place : Nat}
    (hcheck : field.check file.pool = .ok ()) :
    (field.candidate? file.pool className place).any (·.isSynthetic) = true ↔
      file.HoldsSyntheticArray className field := by
  obtain ⟨name, hname⟩ := Member.exists_nameText hcheck
  rw [Member.candidate?, HoldsSyntheticArray, hname]
  split
  case isFalse hother => exact iff_of_false Bool.false_ne_true (fun h => hother h.1)
  case isTrue harray => exact (and_iff_right harray).symm

/-- The choice among the candidates is made field by field. -/
theorem choose?_eq_some_iff (hfields : ∀ field ∈ file.fields, field.check file.pool = .ok ()) :
    ValuesCandidate.choose? (file.fields.zipIdx.filterMap
      fun (field, place) => field.candidate? file.pool className place) = some position ↔
        file.IsValuesField className position := by
  have hnamed (fieldName : String) := @find?_candidates file className
    (file.HoldsArrayAs className fieldName) _ _ fun _ _ _ => any_candidate?_named_iff fieldName
  have hsynthetic := @find?_candidates file className (file.HoldsSyntheticArray className) _ _
    fun field hfield _ => any_candidate?_synthetic_iff (hfields field hfield)
  rw [ValuesCandidate.choose?_eq, hnamed, hnamed, hsynthetic]
  exact findIdx?_or_eq_some_iff (findIdx?_or_eq_some_iff findIdx?_eq_some_iff_isFirst)

theorem isEnum_eq_true_iff : file.isEnum = .ok true ↔
    file.access.has .enum = true ∨ file.superName = .ok (some "java/lang/Enum") := by
  rw [isEnum]
  cases file.access.has .enum with
  | true => exact iff_of_true rfl (.inl rfl)
  | false =>
    rw [if_neg Bool.false_ne_true, bind_eq_ok_iff, iff_false_intro Bool.false_ne_true, false_or]
    constructor
    · rintro ⟨found, hfound, htest⟩
      rw [hfound, beq_iff_eq.mp (Except.ok.inj htest)]
      rfl
    · intro hsuper
      exact ⟨_, hsuper, rfl⟩

/-- The classes that the recognition finds extensible, and the positions that it finds. -/
theorem isExtensible_iff (hcheck : file.check = .ok ()) :
    file.IsExtensible className position ↔ file.name = .ok className ∧
      ∃ constructors, file.enumShape = .ok (.extensible position constructors) := by
  have hindexed := (check_eq_ok_iff.mp hcheck).2
  have hvalues := @choose?_eq_some_iff file className position hindexed.fields
  have hconstructors : (∃ method ∈ file.methods, method.nameText file.pool = .ok "<init>") ↔
      ∃ places, file.constructors = .ok places ∧ places ≠ [] := by
    rw [exists_constructors_iff hindexed.methods]
    simp only [Member.isConstructor_iff]
    rfl
  simp only [enumShape_eq_extensible_iff, valuesCandidates_eq _ hindexed.fields,
    isEnum_eq_true_iff]
  constructor
  · rintro ⟨hisEnum, hclass, hname, hposition, hsome⟩
    obtain ⟨places, hplaces⟩ := hconstructors.mp hsome
    exact ⟨hname, places, hisEnum, hclass, ⟨className, _, hname, rfl, hvalues.mpr hposition⟩,
      hplaces⟩
  · rintro ⟨hname, places, hisEnum, hclass, ⟨_, _, hname', ⟨⟩, hchoose⟩, hplaces⟩
    obtain rfl := Except.ok.inj (hname.symm.trans hname')
    exact ⟨hisEnum, hclass, hname, hvalues.mp hchoose, hconstructors.mpr ⟨places, hplaces⟩⟩

end ClassFile

end ClassThaw
