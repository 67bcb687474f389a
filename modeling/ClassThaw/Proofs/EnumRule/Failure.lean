import ClassThaw.Proofs.EnumRule.References
import ClassThaw.Proofs.EnumRule.Settled

namespace ClassThaw

open ConstantPool

/-- The calls for the constants of the method that appends to an array of values. -/
def appendCalls (className valuesName valuesDescriptor : String) : List Addition :=
  [.fieldRef className valuesName valuesDescriptor,
    .methodRef "java/util/Arrays" "copyOf" "([Ljava/lang/Object;I)[Ljava/lang/Object;",
    .class valuesDescriptor,
    .text AttributeKind.code.name,
    .text appendMethodName,
    .text (appendDescriptor className)]

/-- The entries that some calls need. -/
def needsOf (calls : List Addition) : Finset Addition :=
  calls.foldr (fun call needed => call.needs ∪ needed) ∅

theorem mem_needsOf {calls : List Addition} {addition : Addition} :
    addition ∈ needsOf calls ↔ ∃ call ∈ calls, addition ∈ call.needs := by
  induction calls with
  | nil => simp [needsOf]
  | cons call calls ih =>
    rw [needsOf, List.foldr_cons, Finset.mem_union]
    change _ ∨ addition ∈ needsOf calls ↔ _
    rw [ih, List.exists_mem_cons_iff]

theorem eq_of_fieldRef_mem_needs {call : Addition} {owner name descriptor : String}
    (h : .fieldRef owner name descriptor ∈ call.needs) :
    call = .fieldRef owner name descriptor := by
  cases call <;> simp [Addition.needs] at h
  obtain ⟨rfl, rfl, rfl⟩ := h
  rfl

/-- The only reference to a field among the entries is the one that the method uses. -/
theorem eq_of_fieldRef_mem {className valuesName valuesDescriptor owner name descriptor : String}
    (h : .fieldRef owner name descriptor ∈
      needsOf (appendCalls className valuesName valuesDescriptor)) :
    descriptor = valuesDescriptor := by
  obtain ⟨call, hcall, hneeds⟩ := mem_needsOf.mp h
  obtain rfl := eq_of_fieldRef_mem_needs hneeds
  simp only [appendCalls, List.mem_cons, Addition.fieldRef.injEq, reduceCtorEq, List.not_mem_nil,
    or_false] at hcall
  exact hcall.2.2

theorem fills_appendMethod (className valuesName valuesDescriptor : String) :
    Fills (fun _ => True) (needsOf (appendCalls className valuesName valuesDescriptor))
      (appendMethod className valuesName valuesDescriptor) fun _ _ => True := by
  have hcall (call : Addition) :
      Fills (fun _ => True) call.needs call.change fun _ _ => True :=
    call.fills_change.weaken (fun _ _ => trivial) fun _ _ _ => trivial
  apply (hcall (.fieldRef className valuesName valuesDescriptor)).bind
  intro valuesField
  apply (hcall (.methodRef _ _ _)).bind
  intro copyOf
  apply (hcall (.class valuesDescriptor)).bind
  intro arrayClass
  apply (hcall (.text AttributeKind.code.name)).bind
  intro code
  apply (hcall (.text appendMethodName)).bind
  intro name
  apply (hcall (.text (appendDescriptor className))).bind
  intro descriptor
  exact fills_pure _ fun _ _ => trivial

namespace ClassFile

variable {file : ClassFile} {className name descriptor : String} {field : Field} {position : Nat}

/-- The class lacks the method, and its pool lacks the room for what the method needs. -/
def LacksRoom (file : ClassFile) (className name descriptor : String) : Prop :=
  file.lacksAppend className = true ∧
    file.pool.Overflows (needsOf (appendCalls className name descriptor))

end ClassFile

theorem Member.IsAppendMethod.check {className name descriptor : String} {method : Method}
    {pool : ConstantPool} (h : method.IsAppendMethod className name descriptor pool) :
    method.check pool = .ok () := by
  obtain ⟨code, valuesField, copyOf, arrayClass, hcode, -, -, -, hattributes⟩ := h.body
  have hname : pool.text code = .ok AttributeKind.code.name := hcode.text_eq
  refine Member.check_eq_ok_iff.mpr ⟨h.name.check, h.descriptor.check, ?_⟩
  rw [hattributes, Attribute.checkAll_eq_ok_iff, List.forall_mem_singleton, Attribute.check,
    Attribute.checkName, hname]
  rfl

theorem Member.IsAppendMethod.fits {className name descriptor : String} {method : Method}
    {pool : ConstantPool} (h : method.IsAppendMethod className name descriptor pool) :
    method.Fits := by
  obtain ⟨code, valuesField, copyOf, arrayClass, -, -, -, -, hattributes⟩ := h.body
  have hlength : (Instruction.assemble
      (appendInstructions valuesField copyOf arrayClass)).length = 26 := rfl
  rw [Member.Fits, hattributes, Attribute.TableFits, List.forall_mem_singleton]
  refine ⟨show 1 < 0x10000 by decide, ?_⟩
  simp [Attribute.Fits, Attribute.FitAll, MethodBody.Fits, Attribute.contentSize, MethodBody.size,
    Attribute.sizeOfAll, hlength]

namespace ClassFile

variable {file : ClassFile} {className name descriptor : String} {field : Field} {position : Nat}

/-- A class that has the method, or has got it, is in order and contradicts its array of values only
if it did so before. -/
structure Completes (className name descriptor : String) (before after : ClassFile) : Prop where
  check : after.check = .ok ()
  sound : after.pool.Sound
  grows : before.pool.Grows after.pool
  isMismatch_iff : ∀ index found, after.pool.IsMismatch className name descriptor index found ↔
    before.pool.IsMismatch className name descriptor index found

theorem Completes.contradicts_iff {before after : ClassFile}
    (h : Completes className name descriptor before after) :
    after.pool.Contradicts className name descriptor ↔
      before.pool.Contradicts className name descriptor := by
  simp only [ConstantPool.contradicts_iff, h.isMismatch_iff]

theorem completes_append {method : Method} {pool : ConstantPool} (hcheck : file.check = .ok ())
    (hsound : file.pool.Sound)
    (hfilled : Filled (needsOf (appendCalls className name descriptor)) file.pool pool)
    (happend : method.IsAppendMethod className name descriptor pool) :
    file.Completes className name descriptor
      { file with pool, methods := file.methods ++ [method] } where
  check := check_append hcheck hfilled.grows hfilled.sound.check happend.check
  sound := hfilled.sound
  grows := hfilled.grows
  isMismatch_iff _ _ := hfilled.isMismatch_iff hsound fun _ => eq_of_fieldRef_mem

/-- The method is there, or is added, or its constants do not fit the pool. -/
theorem hasAppend_or_lacksRoom (className : String) (hcheck : file.check = .ok ())
    (hsound : file.pool.Sound) (hname : field.nameText file.pool = .ok name)
    (hdescriptor : field.descriptorText file.pool = .ok descriptor) (log : Array Event) :
    (¬ file.LacksRoom className name descriptor ∧ ∃ after,
      file.HasAppend className field after ∧ file.Completes className name descriptor after) ∨
    file.LacksRoom className name descriptor ∧ ∃ what count,
      Fails (addAppendMethod className field) ⟨file, log⟩
        (.malformed (.limitExceeded what count)) := by
  cases hlacks : file.lacksAppend className with
  | false =>
    refine .inl ⟨?_, file, ?_, hcheck, hsound, .refl file.pool, fun _ _ => Iff.rfl⟩
    · rintro ⟨hmissing, -⟩
      rw [hlacks] at hmissing
      cases hmissing
    · rw [HasAppend, hlacks]
      rfl
  | true =>
    rcases fills_appendMethod className name descriptor file.pool hsound trivial with
      ⟨method, pool, hgives, hfilled, -⟩ | ⟨⟨what, count, hlimit⟩, hover⟩
    · refine .inl ⟨fun hroom => hfilled.not_overflows hroom.2, _, ?_,
        completes_append hcheck hsound hfilled (isAppendMethod_of_gives hsound hgives)⟩
      rw [HasAppend, if_pos hlacks]
      exact ⟨name, descriptor, method, pool, hname, hdescriptor, hgives, rfl⟩
    · refine .inr ⟨⟨hlacks, hover⟩, what, count, ?_⟩
      rw [addAppendMethod, Edit.fails_file_bind, Edit.fails_lookUp_bind hname,
        Edit.fails_lookUp_bind hdescriptor]
      have hchange : Fails (appendMethod className name descriptor) file.pool
        (.limitExceeded what count) := hlimit
      have hchanged : Fails (Edit.changePool (appendMethod className name descriptor)) ⟨file, log⟩
        (.malformed (.limitExceeded what count)) := Edit.fails_changePool hchange
      exact hchanged.bind

/-- The class is an enum that the rule opens, with its name and the name and the type of its array
of values. -/
def IsOpenable (file : ClassFile) (className name descriptor : String) : Prop :=
  ∃ position constructors field, file.enumShape = .ok (.extensible position constructors) ∧
    file.name = .ok className ∧ file.fields[position]? = some field ∧
    field.nameText file.pool = .ok name ∧ field.descriptorText file.pool = .ok descriptor

/-- If there is something to open, neither the pool nor a reference is in the way. -/
def AdmitsOpening (file : ClassFile) : Prop :=
  ∀ className name descriptor, file.IsOpenable className name descriptor →
    ¬ file.LacksRoom className name descriptor ∧
      ¬ file.pool.Contradicts className name descriptor

/-- Why opening an enum is refused. The reasons are looked at one after the other. -/
inductive Refuses (file : ClassFile) (className name descriptor : String) : RevisionError → Prop
  | room {what : Quantity} {count : Nat} : file.LacksRoom className name descriptor →
      Refuses file className name descriptor (.malformed (.limitExceeded what count))
  | reference {index : UInt16} {found : String} : ¬ file.LacksRoom className name descriptor →
      file.pool.Contradicts className name descriptor →
      Refuses file className name descriptor
        (.inconsistent className (.fieldType index name found descriptor))
  -- The method is one too many for the table of methods.
  | methods {what : Quantity} {count : Nat} : ¬ file.LacksRoom className name descriptor →
      ¬ file.pool.Contradicts className name descriptor → file.lacksAppend className = true →
      file.methods.length = 65535 →
      Refuses file className name descriptor (.malformed (.limitExceeded what count))

/-- How a refusal is reported: something does not fit, or a reference that the class holds gives the
array of values another type. -/
inductive OpeningFault (file : ClassFile) (className name descriptor : String) :
    RevisionError → Prop
  | limit {what : Quantity} {count : Nat} :
      OpeningFault file className name descriptor (.malformed (.limitExceeded what count))
  | mismatch {index : UInt16} {found : String} :
      file.pool.IsMismatch className name descriptor index found →
      OpeningFault file className name descriptor
        (.inconsistent className (.fieldType index name found descriptor))

/-- The test after opening passes, or a reference contradicts the array of values. -/
theorem isConsistent_or_contradicts (className : String) (hcheck : file.check = .ok ())
    (hsound : file.pool.Sound) (hname : field.nameText file.pool = .ok name)
    (hdescriptor : field.descriptorText file.pool = .ok descriptor) (log : Array Event) :
    (¬ file.pool.Contradicts className name descriptor ∧ file.IsConsistent className field) ∨
    ∃ index found, file.pool.IsMismatch className name descriptor index found ∧
      Fails (checkOpened className field) ⟨file, log⟩
        (.inconsistent className (.fieldType index name found descriptor)) := by
  rcases @gives_or_fails_checkReferences file className name descriptor ⟨file, log⟩ hsound with
    hgives | ⟨_, ⟨index, found, hmismatch, rfl⟩, hfails⟩
  · have hagree := (gives_checkReferences.mp hgives).1
    have hnone := (referencesAgree_iff hsound).mp hagree
    exact .inl ⟨hnone, name, descriptor, hname, hdescriptor, hagree, hcheck⟩
  · refine .inr ⟨index, found, hmismatch, ?_⟩
    rw [checkOpened, Edit.fails_file_bind, Edit.fails_lookUp_bind hname,
      Edit.fails_lookUp_bind hdescriptor]
    exact hfails.bind

theorem lacksAppend_withOpenMembers (file : ClassFile) (position : Nat) (className : String) :
    (file.withOpenMembers position).lacksAppend className = file.lacksAppend className := by
  have hnamed (method : Method) :
      (if method.isClosedConstructor file.pool then method.opened else method).isNamed file.pool
        appendMethodName (appendDescriptor className) =
      method.isNamed file.pool appendMethodName (appendDescriptor className) := by
    split <;> rfl
  rw [lacksAppend, lacksAppend, findMethod?, findMethod?, withOpenMembers, List.findIdx?_map]
  simp only [Function.comp_def, hnamed]

theorem fails_addAppendMethod_if {α : Type} {after : ClassFile} {log : Array Event}
    {next : Unit → Edit α} {error : RevisionError} (h : file.HasAppend className field after) :
    Fails (if file.lacksAppend className then addAppendMethod className field >>= next
        else next ()) ⟨file, log⟩ error ↔ Fails (next ()) ⟨after, log⟩ error := by
  unfold HasAppend at h
  split
  case isTrue hlacks =>
    rw [if_pos hlacks] at h
    exact fails_bind_of (gives_addAppendMethod.mpr ⟨after, h, rfl⟩)
  case isFalse hfound =>
    rw [if_neg hfound] at h
    rw [h]

theorem fails_openShape {log : Array Event} {error : RevisionError}
    (hname : file.name = .ok className)
    (hfield : (file.withOpenMembers position).fields[position]? = some field) :
    Fails (openShape position) ⟨file, log⟩ error ↔
      Fails (do
        if (file.withOpenMembers position).lacksAppend className then
          addAppendMethod className field
        checkOpened className field
        return file.openPatch position ((file.withOpenMembers position).lacksAppend className))
      ⟨file.withOpenMembers position, log⟩ error := by
  have hname' : (file.withOpenMembers position).name = .ok className := hname
  unfold openShape
  rw [Edit.fails_file_bind, Edit.fails_change_bind, Edit.fails_file_bind,
    Edit.fails_lookUp_bind hname', hfield]

/-- Opening the enum whose array of values is the field at a position succeeds or is refused. -/
theorem opens_or_refuses (hcheck : file.check = .ok ()) (hsound : file.pool.Sound)
    (hname : file.name = .ok className) (hfield : file.fields[position]? = some field)
    (hnameText : field.nameText file.pool = .ok name)
    (hdescriptor : field.descriptorText file.pool = .ok descriptor) (log : Array Event) :
    (¬ file.LacksRoom className name descriptor ∧
      ¬ file.pool.Contradicts className name descriptor ∧
      ∃ patch after, file.Opens position patch after) ∨
    ∃ error, file.Refuses className name descriptor error ∧
      file.OpeningFault className name descriptor error ∧
      (file.LacksRoom className name descriptor ∨
        file.pool.Contradicts className name descriptor) ∧
      Fails (openShape position) ⟨file, log⟩ error := by
  have hopened := (frame_withOpenMembers file position).check hcheck
  have hpool : (file.withOpenMembers position).pool.Sound := hsound
  have hthawed : (file.withOpenMembers position).fields[position]? = some field.thawed := by
    rw [withOpenMembers, List.getElem?_modify_eq, hfield]
    rfl
  -- Opening the members does not change what is looked at for the method.
  have hroom : (file.withOpenMembers position).LacksRoom className name descriptor ↔
      file.LacksRoom className name descriptor := by
    rw [LacksRoom, LacksRoom, lacksAppend_withOpenMembers]
    rfl
  simp only [fails_openShape hname hthawed]
  have hnameText' : field.thawed.nameText (file.withOpenMembers position).pool = .ok name :=
    hnameText
  have happends := hasAppend_or_lacksRoom className hopened hpool hnameText' hdescriptor log
  rcases happends with ⟨hfits, middle, happend, hcompletes⟩ | ⟨hover, what, count, hfails⟩
  · have hname' : field.thawed.nameText middle.pool = .ok name := hcompletes.grows.text hnameText
    have hdescriptor' : field.thawed.descriptorText middle.pool = .ok descriptor :=
      hcompletes.grows.text hdescriptor
    have hsame : middle.pool.Contradicts className name descriptor ↔
      file.pool.Contradicts className name descriptor := hcompletes.contradicts_iff
    have htest := isConsistent_or_contradicts className hcompletes.check hcompletes.sound hname'
      hdescriptor' log
    rcases htest with ⟨hagrees, hconsistent⟩ | ⟨index, found, hmismatch, hfails⟩
    · exact .inl ⟨fun h => hfits (hroom.mpr h), fun h => hagrees (hsame.mpr h), _, middle,
        .opened hname hthawed happend hconsistent⟩
    · have hbefore : file.pool.IsMismatch className name descriptor index found :=
        (hcompletes.isMismatch_iff index found).mp hmismatch
      have hcontradicts : file.pool.Contradicts className name descriptor :=
        ConstantPool.contradicts_iff.mpr ⟨index, found, hbefore⟩
      refine .inr ⟨.inconsistent className (.fieldType index name found descriptor),
        .reference (fun h => hfits (hroom.mpr h)) hcontradicts, .mismatch hbefore,
        .inr hcontradicts, ?_⟩
      exact (fails_addAppendMethod_if happend).mpr hfails.bind
  · refine .inr ⟨.malformed (.limitExceeded what count), .room (hroom.mp hover), .limit,
      .inl (hroom.mp hover), ?_⟩
    rw [if_pos hover.1]
    exact hfails.bind

theorem exists_isEnum (hcheck : file.check = .ok ()) : ∃ answer, file.isEnum = .ok answer := by
  obtain ⟨name?, hsuper⟩ := exists_superName hcheck
  rw [isEnum, hsuper]
  split
  · exact ⟨true, rfl⟩
  · exact ⟨_, rfl⟩

theorem exists_enumShape (hcheck : file.check = .ok ()) :
    ∃ shape, file.enumShape = .ok shape := by
  have hindexed := (check_eq_ok_iff.mp hcheck).2
  obtain ⟨className, hname⟩ := exists_name hcheck
  obtain ⟨isEnum, hisEnum⟩ := exists_isEnum hcheck
  rw [enumShape, hisEnum, hname]
  simp only [ok_bind, valuesCandidates_eq className hindexed.fields,
    constructors_eq hindexed.methods]
  split
  · exact ⟨_, rfl⟩
  · split
    · exact ⟨_, rfl⟩
    · split
      · exact ⟨_, rfl⟩
      · split
        · exact ⟨_, rfl⟩
        · exact ⟨_, rfl⟩

/-- An enum of the shape that is opened has all that the rule looks at. -/
theorem exists_isOpenable {constructors : List Nat} (hcheck : file.check = .ok ())
    (hshape : file.enumShape = .ok (.extensible position constructors)) :
    ∃ className name descriptor field, file.name = .ok className ∧
      file.fields[position]? = some field ∧ field.nameText file.pool = .ok name ∧
      field.descriptorText file.pool = .ok descriptor ∧
      file.IsOpenable className name descriptor := by
  obtain ⟨className, field, hname, hfield, hdescriptor⟩ := exists_valuesField hcheck hshape
  have hfields := (check_eq_ok_iff.mp hcheck).2.fields
  obtain ⟨name, hnameText⟩ := Member.exists_nameText (hfields field (List.mem_of_getElem? hfield))
  exact ⟨className, name, _, field, hname, hfield, hnameText, hdescriptor,
    position, constructors, field, hshape, hname, hfield, hnameText, hdescriptor⟩

/-- A class says in one way only what there is to open. -/
theorem IsOpenable.unique {className' name' descriptor' : String}
    (h : file.IsOpenable className name descriptor)
    (h' : file.IsOpenable className' name' descriptor') :
    className' = className ∧ name' = name ∧ descriptor' = descriptor := by
  obtain ⟨position, _, field, hshape, hname, hfield, hnameText, hdescriptor⟩ := h
  obtain ⟨_, _, _, hshape', hname', hfield', hnameText', hdescriptor'⟩ := h'
  obtain ⟨rfl, rfl⟩ := EnumShape.extensible.inj (Except.ok.inj (hshape.symm.trans hshape'))
  obtain rfl := Option.some.inj (hfield.symm.trans hfield')
  exact ⟨Except.ok.inj (hname'.symm.trans hname), Except.ok.inj (hnameText'.symm.trans hnameText),
    Except.ok.inj (hdescriptor'.symm.trans hdescriptor)⟩

/-- What the rule makes of a class has one more method exactly if the class is an enum that lacked
it. -/
theorem EnumOutcome.length_methods {after : ClassFile} {patch : EnumPatch}
    (hcheck : file.check = .ok ()) (h : file.EnumOutcome patch after) :
    (after.methods.length = file.methods.length ∧
      ∀ className name descriptor, file.IsOpenable className name descriptor →
        file.lacksAppend className = false) ∨
    ∃ className name descriptor, file.IsOpenable className name descriptor ∧
      file.lacksAppend className = true ∧ patch.appendAdded = true ∧
      after.methods.length = file.methods.length + 1 := by
  cases h with
  | notEnum hshape | leftAlone hshape =>
    refine .inl ⟨rfl, ?_⟩
    rintro _ _ _ ⟨_, _, _, hextensible, -⟩
    cases hshape.symm.trans hextensible
  | @opened position constructors _ _ hshape hopens =>
    obtain ⟨className, name, _, field, hname, hfield, -, -, hopenable⟩ :=
      exists_isOpenable hcheck hshape
    cases hopens with
    | astray _ hnone =>
      rw [withOpenMembers, List.getElem?_modify_eq, hfield] at hnone
      cases hnone
    | opened hname' _ happend _ =>
      obtain rfl := Except.ok.inj (hname'.symm.trans hname)
      obtain ⟨-, added, hmethods, hadded⟩ := happend.members_eq
      have hlength : (file.withOpenMembers position).methods.length = file.methods.length :=
        List.length_map _
      rw [lacksAppend_withOpenMembers] at hadded ⊢
      rw [hmethods, List.length_append, hlength, hadded]
      cases hlacks : file.lacksAppend _ with
      | false =>
        refine .inl ⟨rfl, ?_⟩
        intro className' name' descriptor' hopenable'
        obtain ⟨rfl, -, -⟩ := hopenable.unique hopenable'
        exact hlacks
      | true => exact .inr ⟨_, name, _, hopenable, hlacks, rfl, rfl⟩

end ClassFile

/-- The enum rule succeeds on a class that passes its check, or refuses to open it. -/
theorem gives_or_fails_openEnum {work : Workpiece} (debug : Bool)
    (hcheck : work.file.check = .ok ()) (hsound : work.file.pool.Sound) :
    ((∃ patch after, Gives (openEnum debug) work patch after) ∧ work.file.AdmitsOpening) ∨
    ¬ work.file.AdmitsOpening ∧ ∃ className name descriptor error,
      work.file.IsOpenable className name descriptor ∧
      work.file.Refuses className name descriptor error ∧
      work.file.OpeningFault className name descriptor error ∧
      Fails (openEnum debug) work error := by
  obtain ⟨shape, hshape⟩ := ClassFile.exists_enumShape hcheck
  obtain ⟨className, hname⟩ := ClassFile.exists_name hcheck
  -- An enum that is not opened has nothing that could be refused.
  have hother {patch : EnumPatch} (houtcome : work.file.EnumOutcome patch work.file)
      (hnone : ∀ position constructors, shape ≠ .extensible position constructors) :
      (∃ patch after, Gives (openEnum debug) work patch after) ∧ work.file.AdmitsOpening := by
    obtain ⟨log, hgives⟩ := exists_gives_openEnum debug hname houtcome
    refine ⟨⟨patch, _, hgives⟩, ?_⟩
    rintro _ _ _ ⟨position, constructors, _, hextensible, -⟩
    exact absurd (Except.ok.inj (hshape.symm.trans hextensible)) (hnone position constructors)
  cases shape with
  | notEnum => exact .inl (hother (.notEnum hshape) fun _ _ => EnumShape.noConfusion)
  | unsupported obstacle => exact .inl (hother (.leftAlone hshape) fun _ _ => EnumShape.noConfusion)
  | extensible position constructors =>
    obtain ⟨className, name, descriptor, field, hname, hfield, hnameText, hdescriptor, hopenable⟩ :=
      ClassFile.exists_isOpenable hcheck hshape
    rcases ClassFile.opens_or_refuses hcheck hsound hname hfield hnameText hdescriptor work.log with
      ⟨hroom, hagrees, patch, after, hopens⟩ | ⟨error, hrefuses, hfault, hreason, hfails⟩
    · obtain ⟨log, hgives⟩ := exists_gives_openEnum debug hname (.opened hshape hopens)
      refine .inl ⟨⟨patch, _, hgives⟩, ?_⟩
      intro className' name' descriptor' hopenable'
      obtain ⟨rfl, rfl, rfl⟩ := hopenable.unique hopenable'
      exact ⟨hroom, hagrees⟩
    · have hnot : ¬ work.file.AdmitsOpening := by
        intro hadmits
        obtain ⟨hroom, hagrees⟩ := hadmits className name descriptor hopenable
        exact hreason.elim hroom hagrees
      refine .inr ⟨hnot, className, name, descriptor, error, hopenable, hrefuses, hfault, ?_⟩
      rw [openEnum, Edit.fails_file_bind, Edit.fails_lookUp_bind hshape]
      exact hfails

end ClassThaw
