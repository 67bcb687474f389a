import ClassThaw.Proofs.EnumRule.Append
import ClassThaw.Proofs.Edit

namespace ClassThaw

variable {work after : Workpiece} {className : String} {field : Field} {found : Unit}

namespace ClassFile

/-- Every reference to the field resolves and agrees with its descriptor. -/
def ReferencesAgree (file : ClassFile) (className field descriptor : String) : Prop :=
  ∀ entry ∈ file.pool.entries, entry.2.kind? = some .fieldRef →
    ∃ reference, file.pool.memberReference entry.1 = .ok reference ∧
      (reference.owner = className → reference.name = field → reference.descriptor = descriptor)

/-- The class passes its check, and what refers to the field agrees with it. -/
def IsConsistent (file : ClassFile) (className : String) (field : Field) : Prop :=
  ∃ name descriptor, field.nameText file.pool = .ok name ∧
    field.descriptorText file.pool = .ok descriptor ∧
    file.ReferencesAgree className name descriptor ∧ file.check = .ok ()

/-- The class has got the method that appends a value to the array in the field, and the constants
which that method needs. -/
def GainsAppend (className : String) (field : Field) (before after : ClassFile) : Prop :=
  ∃ name descriptor method pool, field.nameText before.pool = .ok name ∧
    field.descriptorText before.pool = .ok descriptor ∧
    Gives (appendMethod className name descriptor) before.pool method pool ∧
    after = { before with pool, methods := before.methods ++ [method] }

/-- The class has got the method unless it had it before. -/
def HasAppend (className : String) (field : Field) (before after : ClassFile) : Prop :=
  if before.lacksAppend className then GainsAppend className field before after else after = before

/-- The array of values at a position and the constructors have been opened. -/
inductive Opens (position : Nat) (before : ClassFile) : EnumPatch → ClassFile → Prop
  -- Without a field at the position nothing counts as done.
  | astray {className : String} : before.name = .ok className →
      (before.withOpenMembers position).fields[position]? = none →
      Opens position before {} (before.withOpenMembers position)
  | opened {className : String} {field : Field} {after : ClassFile} :
      before.name = .ok className →
      (before.withOpenMembers position).fields[position]? = some field →
      HasAppend className field (before.withOpenMembers position) after →
      after.IsConsistent className field →
      Opens position before
        (before.openPatch position ((before.withOpenMembers position).lacksAppend className)) after

/-- What the enum rule makes of a class. -/
inductive EnumOutcome (before : ClassFile) : EnumPatch → ClassFile → Prop
  | notEnum : before.enumShape = .ok .notEnum → EnumOutcome before {} before
  | leftAlone {obstacle : EnumObstacle} : before.enumShape = .ok (.unsupported obstacle) →
      EnumOutcome before {} before
  | opened {position : Nat} {constructors : List Nat} {patch : EnumPatch} {after : ClassFile} :
      before.enumShape = .ok (.extensible position constructors) →
      Opens position before patch after → EnumOutcome before patch after

theorem gives_checkReferences {file : ClassFile} {fieldName descriptor : String} :
    Gives (file.checkReferences className fieldName descriptor) work found after ↔
      file.ReferencesAgree className fieldName descriptor ∧ after = work := by
  apply Edit.gives_forM
  rintro ⟨index, constant⟩ _ work after
  change Gives (if constant.kind? = some .fieldRef then _ else _) work () after ↔ _
  split
  case isFalse hother =>
    rw [gives_pure]
    exact ⟨fun h => ⟨fun hkind => absurd hkind hother, h.2⟩, fun h => ⟨rfl, h.2⟩⟩
  case isTrue hkind =>
    rw [Edit.gives_lookUp_bind]
    constructor
    · rintro ⟨reference, hreference, htest⟩
      split at htest
      case isTrue => exact absurd htest gives_throw
      case isFalse hagrees =>
        obtain ⟨-, hafter⟩ := gives_pure.mp htest
        refine ⟨fun _ => ⟨reference, hreference, fun howner hname => ?_⟩, hafter⟩
        exact not_not.mp fun hdiffers => hagrees ⟨howner, hname, hdiffers⟩
    · rintro ⟨hagrees, rfl⟩
      obtain ⟨reference, hreference, hsame⟩ := hagrees hkind
      refine ⟨reference, hreference, ?_⟩
      rw [if_neg fun h => h.2.2 (hsame h.1 h.2.1)]
      exact gives_pure.mpr ⟨rfl, rfl⟩

theorem gives_checkAfterEdit {file : ClassFile} :
    Gives (file.checkAfterEdit className) work found after ↔
      file.check = .ok () ∧ after = work := by
  unfold checkAfterEdit
  split
  case h_1 hcheck =>
    rw [gives_pure]
    exact ⟨fun h => ⟨hcheck, h.2⟩, fun h => ⟨rfl, h.2⟩⟩
  case h_2 error hcheck =>
    rw [hcheck]
    constructor
    · intro h
      exact absurd h gives_throw
    · rintro ⟨hpassed, -⟩
      cases hpassed

/-- The method comes behind the others, its constants come behind the others, and they lead to the
field. -/
theorem GainsAppend.exists_method {before after : ClassFile} (hsound : before.pool.Sound)
    (h : GainsAppend className field before after) :
    ∃ name descriptor method pool, field.nameText before.pool = .ok name ∧
      field.descriptorText before.pool = .ok descriptor ∧ before.pool.Grows pool ∧ pool.Sound ∧
      method.IsAppendMethod className name descriptor pool ∧
      after = { before with pool, methods := before.methods ++ [method] } := by
  obtain ⟨name, descriptor, method, pool, hname, hdescriptor, hmethod, rfl⟩ := h
  obtain ⟨hvalue, rfl⟩ := gives_iff.mp hmethod
  -- Nothing is known of the new constants but what the additions promise.
  obtain ⟨hpool, hgrows, happend⟩ :=
    adds_appendMethod className name descriptor before.pool hsound trivial
  exact ⟨name, descriptor, method, _, hname, hdescriptor, hgrows, hpool, happend method hvalue, rfl⟩

/-- Where the method was missing it comes behind the others, and its constants behind the others. -/
theorem HasAppend.cases {before after : ClassFile} (hsound : before.pool.Sound)
    (h : HasAppend className field before after) :
    before.lacksAppend className = false ∧ after = before ∨
      ∃ method pool name descriptor, before.pool.Grows pool ∧ pool.Sound ∧
        method.IsAppendMethod className name descriptor pool ∧
        after = { before with pool, methods := before.methods ++ [method] } := by
  unfold HasAppend at h
  split at h
  case isFalse hfound => exact .inl ⟨Bool.eq_false_iff.mpr hfound, h⟩
  case isTrue =>
    obtain ⟨name, descriptor, method, pool, -, -, hgained⟩ := h.exists_method hsound
    exact .inr ⟨method, pool, name, descriptor, hgained⟩

/-- The method that may have been added is all that is new among the members. -/
theorem HasAppend.members_eq {before after : ClassFile}
    (h : HasAppend className field before after) :
    after.fields = before.fields ∧ ∃ added, after.methods = before.methods ++ added ∧
      added.length = (before.lacksAppend className).toNat := by
  unfold HasAppend at h
  split at h
  case isFalse hfound =>
    subst h
    rw [Bool.eq_false_iff.mpr hfound]
    exact ⟨rfl, [], (List.append_nil _).symm, rfl⟩
  case isTrue hlacks =>
    obtain ⟨_, _, method, _, -, -, -, rfl⟩ := h
    rw [hlacks]
    exact ⟨rfl, [method], rfl, rfl⟩

end ClassFile

theorem gives_addAppendMethod : Gives (addAppendMethod className field) work found after ↔
    ∃ file, work.file.GainsAppend className field file ∧ after = { work with file } := by
  unfold addAppendMethod
  simp only [Edit.gives_file_bind, Edit.gives_lookUp_bind]
  simp only [gives_bind, Edit.gives_changePool, Edit.gives_change]
  constructor
  · rintro ⟨name, hname, descriptor, hdescriptor, method, _, ⟨pool, hmethod, rfl⟩, rfl⟩
    exact ⟨_, ⟨name, descriptor, method, pool, hname, hdescriptor, hmethod, rfl⟩, rfl⟩
  · rintro ⟨_, ⟨name, descriptor, method, pool, hname, hdescriptor, hmethod, rfl⟩, rfl⟩
    exact ⟨name, hname, descriptor, hdescriptor, method, _, ⟨pool, hmethod, rfl⟩, rfl⟩

theorem gives_addAppendMethod_if {α : Type} {next : Unit → Edit α} {result : α} :
    Gives (if work.file.lacksAppend className then addAppendMethod className field >>= next
        else next ()) work result after ↔
      ∃ file, work.file.HasAppend className field file ∧
        Gives (next ()) { work with file } result after := by
  unfold ClassFile.HasAppend
  split
  · simp only [gives_bind, gives_addAppendMethod]
    constructor
    · rintro ⟨_, _, ⟨file, hgains, rfl⟩, hnext⟩
      exact ⟨file, hgains, hnext⟩
    · rintro ⟨file, hgains, hnext⟩
      exact ⟨(), _, ⟨file, hgains, rfl⟩, hnext⟩
  · constructor
    · intro hnext
      exact ⟨work.file, rfl, hnext⟩
    · rintro ⟨_, rfl, hnext⟩
      exact hnext

theorem gives_checkOpened : Gives (checkOpened className field) work found after ↔
    work.file.IsConsistent className field ∧ after = work := by
  unfold checkOpened
  simp only [Edit.gives_file_bind, Edit.gives_lookUp_bind]
  simp only [gives_bind, ClassFile.gives_checkReferences, ClassFile.gives_checkAfterEdit]
  constructor
  · rintro ⟨name, hname, descriptor, hdescriptor, _, _, ⟨hagree, rfl⟩, hcheck, rfl⟩
    exact ⟨⟨name, descriptor, hname, hdescriptor, hagree, hcheck⟩, rfl⟩
  · rintro ⟨⟨name, descriptor, hname, hdescriptor, hagree, hcheck⟩, rfl⟩
    exact ⟨name, hname, descriptor, hdescriptor, (), _, ⟨hagree, rfl⟩, hcheck, rfl⟩

variable {position : Nat} {patch : EnumPatch}

/-- What is done to a class whose members are open already. -/
theorem gives_afterOpening (opened : Workpiece) {patch' : EnumPatch} :
    Gives (do
        if opened.file.lacksAppend className then
          addAppendMethod className field
        checkOpened className field
        return patch')
      opened patch after ↔
    (∃ file, opened.file.HasAppend className field file ∧ file.IsConsistent className field ∧
      after = { opened with file }) ∧ patch = patch' := by
  rw [gives_addAppendMethod_if]
  simp only [gives_bind, gives_checkOpened, gives_pure]
  constructor
  · rintro ⟨file, happend, _, _, ⟨hconsistent, rfl⟩, rfl, rfl⟩
    exact ⟨⟨file, happend, hconsistent, rfl⟩, rfl⟩
  · rintro ⟨⟨file, happend, hconsistent, rfl⟩, rfl⟩
    exact ⟨file, happend, (), _, ⟨hconsistent, rfl⟩, rfl, rfl⟩

theorem gives_openShape : Gives (openShape position) work patch after ↔
    work.file.Opens position patch after.file ∧ after.log = work.log := by
  unfold openShape
  simp only [Edit.gives_file_bind, Edit.gives_change_bind, Edit.gives_lookUp_bind]
  constructor
  · rintro ⟨className, hname, hrest⟩
    cases hfield : (work.file.withOpenMembers position).fields[position]? with
    | none =>
      rw [hfield] at hrest
      obtain ⟨rfl, rfl⟩ := gives_pure.mp hrest
      exact ⟨.astray hname hfield, rfl⟩
    | some field =>
      rw [hfield] at hrest
      obtain ⟨⟨file, happend, hconsistent, rfl⟩, rfl⟩ :=
        (gives_afterOpening ⟨work.file.withOpenMembers position, work.log⟩).mp hrest
      exact ⟨.opened hname hfield happend hconsistent, rfl⟩
  · rintro ⟨hopens, hlog⟩
    -- The reports are the same, so the class alone tells the two workpieces apart.
    obtain ⟨file, log⟩ := after
    obtain rfl := hlog
    cases hopens with
    | astray hname hfield =>
      refine ⟨_, hname, ?_⟩
      rw [hfield]
      exact gives_pure.mpr ⟨rfl, rfl⟩
    | opened hname hfield happend hconsistent =>
      refine ⟨_, hname, ?_⟩
      rw [hfield]
      exact (gives_afterOpening ⟨work.file.withOpenMembers position, work.log⟩).mpr
        ⟨⟨_, happend, hconsistent, rfl⟩, rfl⟩

theorem enumOutcome_of_gives {debug : Bool} (h : Gives (openEnum debug) work patch after) :
    work.file.EnumOutcome patch after.file := by
  rw [openEnum, Edit.gives_file_bind, Edit.gives_lookUp_bind] at h
  obtain ⟨shape, hshape, hrest⟩ := h
  cases shape with
  | notEnum =>
    obtain ⟨rfl, rfl⟩ := gives_pure.mp hrest
    exact .notEnum hshape
  | unsupported obstacle =>
    -- Whether or not it is reported, the class stays as it is.
    dsimp only at hrest
    split at hrest
    case isTrue =>
      obtain ⟨className, -, hreport⟩ := Edit.gives_lookUp_bind.mp hrest
      obtain ⟨_, _, hreported, hpure⟩ := gives_bind.mp hreport
      obtain rfl := Edit.gives_report.mp hreported
      obtain ⟨rfl, rfl⟩ := gives_pure.mp hpure
      exact .leftAlone hshape
    case isFalse =>
      obtain ⟨rfl, rfl⟩ := gives_pure.mp hrest
      exact .leftAlone hshape
  | extensible position constructors => exact .opened hshape (gives_openShape.mp hrest).1

/-- On a class that has a name the enum rule comes to its outcome, whatever is reported. -/
theorem exists_gives_openEnum {outcome : ClassFile} (debug : Bool) {className : String}
    (hname : work.file.name = .ok className) (h : work.file.EnumOutcome patch outcome) :
    ∃ log, Gives (openEnum debug) work patch ⟨outcome, log⟩ := by
  simp only [openEnum, Edit.gives_file_bind, Edit.gives_lookUp_bind]
  cases h with
  | notEnum hshape => exact ⟨_, _, hshape, gives_pure.mpr ⟨rfl, rfl⟩⟩
  | leftAlone hshape =>
    cases debug with
    | true =>
      exact ⟨_, _, hshape, Edit.gives_lookUp_bind.mpr ⟨className, hname, gives_bind.mpr
        ⟨(), _, Edit.gives_report.mpr rfl, gives_pure.mpr ⟨rfl, rfl⟩⟩⟩⟩
    | false => exact ⟨_, _, hshape, gives_pure.mpr ⟨rfl, rfl⟩⟩
  | opened hshape hopens => exact ⟨_, _, hshape, gives_openShape.mpr ⟨hopens, rfl⟩⟩

end ClassThaw
