import ClassThaw.Proofs.ClassFile.RoundTrip
import ClassThaw.Proofs.EnumRule.Choice
import ClassThaw.Proofs.EnumRule.Failure

namespace ClassThaw

namespace Member

variable {pool : ConstantPool} {method : Method} {className : String}

/-- A constructor that is not public. -/
def IsClosed (pool : ConstantPool) (method : Method) : Prop :=
  method.nameText pool = .ok "<init>" ∧ method.access.has .public = false

/-- The method has the name and the type of the one that appends a value of the class. -/
def IsAppender (pool : ConstantPool) (className : String) (method : Method) : Prop :=
  method.nameText pool = .ok "$addEnumValue" ∧
    method.descriptorText pool = .ok ("(L" ++ className ++ ";)V")

instance : DecidablePred (IsClosed pool) := fun _ => inferInstanceAs (Decidable (_ ∧ _))

theorem isClosedConstructor_iff : method.isClosedConstructor pool = true ↔ method.IsClosed pool :=
  Bool.and_eq_true_iff.trans (and_congr isConstructor_iff (by rw [Bool.not_eq_true']))

theorem isNamed_iff {F : Type} {member : Member F} {name descriptor : String} :
    member.isNamed pool name descriptor = true ↔
      member.nameText pool = .ok name ∧ member.descriptorText pool = .ok descriptor := by
  rw [isNamed]
  split
  case h_1 name' descriptor' hname hdescriptor =>
    rw [hname, hdescriptor, Bool.and_eq_true_iff, beq_iff_eq, beq_iff_eq, Except.ok.injEq,
      Except.ok.injEq]
  case h_2 hother =>
    refine iff_of_false Bool.false_ne_true ?_
    rintro ⟨hname, hdescriptor⟩
    exact hother name descriptor hname hdescriptor

end Member

namespace ClassFile

variable {before after : ClassFile} {className : String} {position : Nat} {patch : EnumPatch}

/-- What an enum has become with its members opened: the field at the position has lost `final`, the
constructors are public, and it has the method that appends a value. The patch says what of this was
not so before. -/
structure OpenedAt (before : ClassFile) (className : String) (position : Nat) (patch : EnumPatch)
    (after : ClassFile) : Prop where
  minor : after.minor = before.minor
  major : after.major = before.major
  access : after.access = before.access
  thisClass : after.thisClass = before.thisClass
  superClass : after.superClass = before.superClass
  interfaces : after.interfaces = before.interfaces
  attributes : after.attributes = before.attributes
  fields : after.fields = before.fields.modify position fun field =>
    { field with access := field.access.clear .final }
  methods : ∃ appended? : Option Method, after.methods = before.methods.map (fun method =>
      if method.IsClosed before.pool then
        { method with access := ((method.access.clear .private).clear .protected).set .public }
      else method) ++ appended?.toList ∧
    appended?.isSome = patch.appendAdded ∧
    ∀ method ∈ appended?, method.IsAppender after.pool className
  pool : before.pool.slots.toList <+: after.pool.slots.toList
  pool_eq : patch.appendAdded = false → after.pool = before.pool
  appender : ∃ method ∈ after.methods, method.IsAppender after.pool className
  valuesOpened : patch.valuesOpened = true ↔
    ∃ field, before.fields[position]? = some field ∧ field.access.has .final = true
  constructorsOpened :
    patch.constructorsOpened = before.methods.countP (Member.IsClosed before.pool ·)
  appendAdded : patch.appendAdded = true ↔
    ∀ method ∈ before.methods, ¬ method.IsAppender before.pool className

theorem lacksAppend_iff : before.lacksAppend className = true ↔
    ∀ method ∈ before.methods, ¬ method.IsAppender before.pool className := by
  rw [lacksAppend, findMethod?, Option.isNone_iff_eq_none, List.findIdx?_eq_none_iff]
  simp only [← Bool.not_eq_true, Member.isNamed_iff]
  exact Iff.rfl

theorem methods_withOpenMembers : (before.withOpenMembers position).methods =
    before.methods.map fun method =>
      if method.IsClosed before.pool then
        { method with access := ((method.access.clear .private).clear .protected).set .public }
      else method := by
  refine List.map_congr_left ?_
  intro method _
  exact if_congr Member.isClosedConstructor_iff rfl rfl

/-- A method that appends a value still does so when constructors have been opened. -/
theorem exists_isAppender_withOpenMembers (hlacks : before.lacksAppend className = false) :
    ∃ method ∈ (before.withOpenMembers position).methods,
      method.IsAppender before.pool className := by
  have hfound := lacksAppend_withOpenMembers before position className
  rw [hlacks, ← Bool.not_eq_true, lacksAppend_iff] at hfound
  push Not at hfound
  exact hfound

theorem IsValuesField.exists_field (h : before.IsValuesField className position) :
    ∃ field, before.fields[position]? = some field := by
  rcases h with ⟨⟨field, hfield, -⟩, -⟩ | ⟨-, ⟨⟨field, hfield, -⟩, -⟩ | ⟨-, ⟨field, hfield, -⟩, -⟩⟩
  · exact ⟨field, hfield⟩
  · exact ⟨field, hfield⟩
  · exact ⟨field, hfield⟩

/-- The members have been opened, and the method has been added where it was missing. -/
theorem openedAt_of_grows {appended? : Option Method} {pool : ConstantPool}
    (hgrows : before.pool.Grows pool)
    (hadded : appended?.isSome = before.lacksAppend className)
    (happender : ∀ method ∈ appended?, method.IsAppender pool className)
    (hpool : appended? = none → pool = before.pool) :
    before.OpenedAt className position
      (before.openPatch position (before.lacksAppend className))
      { before.withOpenMembers position with
        pool
        methods := (before.withOpenMembers position).methods ++ appended?.toList } where
  minor := rfl
  major := rfl
  access := rfl
  thisClass := rfl
  superClass := rfl
  interfaces := rfl
  attributes := rfl
  fields := rfl
  methods := ⟨appended?, congrArg (· ++ _) methods_withOpenMembers, hadded, happender⟩
  pool := hgrows
  pool_eq := by
    intro hlacks
    have hnone : appended?.isSome = false := hadded.trans hlacks
    exact hpool (Option.isNone_iff_eq_none.mp (Option.isSome_eq_false_iff.mp hnone))
  appender := by
    cases appended? with
    | none =>
      obtain rfl := hpool rfl
      obtain ⟨method, hmethod, hfound⟩ := exists_isAppender_withOpenMembers hadded.symm
      exact ⟨method, List.mem_append_left _ hmethod, hfound⟩
    | some method =>
      exact ⟨method, List.mem_append_right _ List.mem_cons_self, happender method rfl⟩
  valuesOpened := Option.any_eq_true _ _
  constructorsOpened := List.countP_congr fun method _ => by
    rw [Member.isClosedConstructor_iff, decide_eq_true_iff]
  appendAdded := lacksAppend_iff

theorem Opens.openedAt (hsound : before.pool.Sound)
    (hextensible : before.IsExtensible className position)
    (h : before.Opens position patch after) :
    before.OpenedAt className position patch after := by
  cases h with
  | astray _ hnone =>
    obtain ⟨field, hfield⟩ := hextensible.values.exists_field
    rw [withOpenMembers, List.getElem?_modify_eq, hfield] at hnone
    cases hnone
  | opened hname _ happend _ =>
    obtain rfl := Except.ok.inj (hextensible.name.symm.trans hname)
    rw [HasAppend, lacksAppend_withOpenMembers] at happend
    rw [lacksAppend_withOpenMembers]
    split at happend
    case isFalse hfound =>
      subst happend
      have hnone : (none : Option Method).isSome = before.lacksAppend className :=
        (Bool.eq_false_iff.mpr hfound).symm
      have hopened := @openedAt_of_grows before className position none before.pool
        (.refl before.pool) hnone (by simp) fun _ => rfl
      rwa [Option.toList_none, List.append_nil] at hopened
    case isTrue hlacks =>
      have hpool : (before.withOpenMembers position).pool.Sound := hsound
      obtain ⟨_, _, method, pool, -, -, hgrows, -, hmethod, rfl⟩ := happend.exists_method hpool
      have hsome : (some method).isSome = before.lacksAppend className := hlacks.symm
      refine @openedAt_of_grows before className position (some method) pool hgrows hsome ?_ ?_
      · rintro _ ⟨⟩
        exact Member.isNamed_iff.mp hmethod.isNamed
      · intro hnone
        cases hnone

/-- The rule opens the enums that have all that it relies on, and says what it has changed. Any
other class it leaves as it is. -/
theorem effect_of_openEnum {file : ClassFile} (debug : Bool) (log : Array Event)
    (hreachable : file.pool.Reachable) (hcheck : file.check = .ok ()) :
    ((¬ ∃ className position, file.IsExtensible className position) →
      ∃ log', Gives (openEnum debug) ⟨file, log⟩ {} ⟨file, log'⟩) ∧
    ∀ className position, file.IsExtensible className position → ∀ patch after,
      Gives (openEnum debug) ⟨file, log⟩ patch after →
        file.OpenedAt className position patch after.file := by
  constructor
  · intro hnone
    obtain ⟨shape, hshape⟩ := exists_enumShape hcheck
    obtain ⟨className, hname⟩ := exists_name hcheck
    cases shape with
    | notEnum => exact exists_gives_openEnum debug hname (.notEnum hshape)
    | unsupported obstacle => exact exists_gives_openEnum debug hname (.leftAlone hshape)
    | extensible position constructors =>
      have hextensible := (isExtensible_iff hcheck).mpr ⟨hname, constructors, hshape⟩
      exact absurd ⟨className, position, hextensible⟩ hnone
  · intro className position hextensible patch after hgives
    obtain ⟨hname, constructors, hshape⟩ := (isExtensible_iff hcheck).mp hextensible
    cases enumOutcome_of_gives hgives with
    | notEnum hother | leftAlone hother =>
      cases Except.ok.inj (hshape.symm.trans hother)
    | opened hshape' hopens =>
      obtain ⟨rfl, -⟩ := EnumShape.extensible.inj (Except.ok.inj (hshape.symm.trans hshape'))
      exact hopens.openedAt hreachable.sound hextensible

theorem gives_openEnum_enumSample : Gives (openEnum true) ⟨enumSample, #[]⟩
    { valuesOpened := true, constructorsOpened := 1, appendAdded := true }
    ((openEnum true).run ⟨enumSample, #[]⟩).2 := by
  refine gives_iff.mpr ⟨?_, rfl⟩
  decide +kernel

theorem effect_of_openEnum_enumSample :
    enumSample.pool.Reachable ∧ enumSample.check = .ok () ∧ enumSample.IsExtensible "E" 0 ∧
    ∃ after, Gives (openEnum true) ⟨enumSample, #[]⟩
        { valuesOpened := true, constructorsOpened := 1, appendAdded := true } after ∧
      enumSample.OpenedAt "E" 0
        { valuesOpened := true, constructorsOpened := 1, appendAdded := true } after.file := by
  have hparse : parse enumSampleBytes = .ok enumSample := by decide +kernel
  have hreachable : enumSample.pool.Reachable := .parsed hparse
  have hcheck := check_of_parse hparse
  have hname : enumSample.name = .ok "E" := by decide +kernel
  have hshape : enumSample.enumShape = .ok (.extensible 0 [0]) := by decide +kernel
  have hextensible := (isExtensible_iff hcheck).mpr ⟨hname, [0], hshape⟩
  obtain ⟨-, hopened⟩ := effect_of_openEnum true #[] hreachable hcheck
  exact ⟨hreachable, hcheck, hextensible, _, gives_openEnum_enumSample,
    hopened "E" 0 hextensible _ _ gives_openEnum_enumSample⟩

end ClassFile

end ClassThaw
