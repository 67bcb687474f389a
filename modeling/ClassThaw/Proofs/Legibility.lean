import ClassThaw.Proofs.Revision.Failure
import ClassThaw.Summary

namespace ClassThaw

variable {file : ClassFile}

/-- All texts that a member leads to are there. -/
structure Member.IsLegible {F : Type} (pool : ConstantPool) (member : Member F) : Prop where
  nameText : ∃ text, member.nameText pool = .ok text
  descriptorText : ∃ text, member.descriptorText pool = .ok text
  annotationDescriptors : ∃ descriptors, member.annotationDescriptors pool = .ok descriptors

theorem Member.isLegible_of_check {F : Type} {pool : ConstantPool} {member : Member F}
    (h : member.check pool = .ok ()) : member.IsLegible pool :=
  ⟨exists_nameText h, exists_descriptorText h, exists_annotationDescriptors h⟩

namespace ClassFile

/-- All that a class says about itself can be read. -/
structure IsLegible (file : ClassFile) : Prop where
  name : ∃ text, file.name = .ok text
  superName : ∃ name?, file.superName = .ok name?
  interfaceNames : ∃ names, file.interfaceNames = .ok names
  annotationDescriptors : ∃ descriptors, file.annotationDescriptors = .ok descriptors
  fields : ∀ field ∈ file.fields, field.IsLegible file.pool
  methods : ∀ method ∈ file.methods, method.IsLegible file.pool
  isEnum : ∃ answer, file.isEnum = .ok answer
  enumShape : ∃ shape, file.enumShape = .ok shape
  memberReference : ∀ index owner member, file.pool.RefersTo index owner member →
    ∃ reference, file.pool.memberReference index = .ok reference

theorem isLegible_of_check (h : file.check = .ok ()) : file.IsLegible := by
  obtain ⟨hpool, hindexed⟩ := check_eq_ok_iff.mp h
  have hinterfaces : ∃ names, file.interfaceNames = .ok names := by
    apply exists_mapM
    intro index hindex
    exact ConstantPool.exists_className hpool (hindexed.interfaces index hindex)
  exact {
    name := exists_name h
    superName := exists_superName h
    interfaceNames := hinterfaces
    annotationDescriptors := Attribute.exists_descriptors hindexed.attributes
    fields := fun field hfield => Member.isLegible_of_check (hindexed.fields field hfield)
    methods := fun method hmethod => Member.isLegible_of_check (hindexed.methods method hmethod)
    isEnum := exists_isEnum h
    enumShape := exists_enumShape h
    memberReference := fun _ _ _ => ConstantPool.exists_memberReference hpool }

end ClassFile

namespace Summary

variable {pool : ConstantPool}

theorem exists_ofField (rules : HolderRules) {field : Field} (h : field.IsLegible pool) :
    ∃ summary, ofField rules pool field = .ok summary := by
  obtain ⟨name, hname⟩ := h.nameText
  obtain ⟨descriptor, hdescriptor⟩ := h.descriptorText
  obtain ⟨descriptors, hdescriptors⟩ := h.annotationDescriptors
  rw [ofField, hdescriptors, hname, hdescriptor]
  exact ⟨_, rfl⟩

theorem exists_ofMethod {method : Method} (h : method.IsLegible pool) :
    ∃ summary, ofMethod pool method = .ok summary := by
  obtain ⟨name, hname⟩ := h.nameText
  obtain ⟨descriptor, hdescriptor⟩ := h.descriptorText
  rw [ofMethod, hname, hdescriptor]
  exact ⟨_, rfl⟩

theorem exists_describeShape (h : file.IsLegible) : ∃ text, describeShape file = .ok text := by
  obtain ⟨shape, hshape⟩ := h.enumShape
  rw [describeShape, hshape, ok_bind]
  cases shape with
  | notEnum | unsupported => exact ⟨_, rfl⟩
  | extensible valuesField constructors =>
    dsimp only
    cases hfield : file.fields[valuesField]? with
    | none => exact ⟨_, rfl⟩
    | some field =>
      obtain ⟨name, hname⟩ := (h.fields field (List.mem_of_getElem? hfield)).nameText
      dsimp only
      rw [hname]
      exact ⟨_, rfl⟩

/-- An overview can be given of every class that passes its check. -/
theorem exists_ofClass (rules : HolderRules) (h : file.check = .ok ()) :
    ∃ summary, ofClass rules file = .ok summary := by
  have hlegible := ClassFile.isLegible_of_check h
  have hattributes := Attribute.checkAll_eq_ok_iff.mp (ClassFile.check_eq_ok_iff.mp h).2.attributes
  obtain ⟨fields, hfields⟩ := exists_mapM fun field hfield =>
    exists_ofField rules (hlegible.fields field hfield)
  obtain ⟨methods, hmethods⟩ := exists_mapM fun method hmethod =>
    exists_ofMethod (hlegible.methods method hmethod)
  obtain ⟨shape, hshape⟩ := exists_describeShape hlegible
  obtain ⟨name, hname⟩ := hlegible.name
  obtain ⟨superName?, hsuper⟩ := hlegible.superName
  obtain ⟨interfaces, hinterfaces⟩ := hlegible.interfaceNames
  obtain ⟨annotations, hannotations⟩ := hlegible.annotationDescriptors
  obtain ⟨names, hnames⟩ := exists_mapM fun item hitem =>
    Attribute.exists_nameText (hattributes item hitem) item item.mem_within
  rw [ofClass, hfields, hmethods, hshape, hname, hsuper, hinterfaces, hannotations, hnames]
  exact ⟨_, rfl⟩

end Summary

/-- The enum rule fails only if something does not fit, or if a reference of the class gives the
array of values another type. -/
theorem openingFault_of_fails {debug : Bool} {log : Array Event} {error : RevisionError}
    (hreachable : file.pool.Reachable) (hcheck : file.check = .ok ())
    (h : Fails (openEnum debug) ⟨file, log⟩ error) : ∃ className name descriptor,
      file.IsOpenable className name descriptor ∧
        file.OpeningFault className name descriptor error := by
  rcases @gives_or_fails_openEnum ⟨file, log⟩ debug hcheck hreachable.sound with
    ⟨⟨patch, after, hgives⟩, -⟩ |
    ⟨-, className, name, descriptor, error', hopenable, -, hfault, hfails⟩
  · exact absurd h hgives.not_fails
  · obtain rfl := hfails.unique h
    exact ⟨className, name, descriptor, hopenable, hfault⟩

namespace ClassFile

/-- Every class that has been read passes its check. Of a class that passes it everything can be
read, however markers are matched: no text is missing, the overview can be given, and the holder
rule comes to its end. The enum rule can only fail for lack of room, or because of a reference that
gives the array of values another type. -/
theorem legible_of_check (file : ClassFile) :
    (∀ bytes, parse bytes = .ok file → file.check = .ok () ∧ file.pool.Reachable) ∧
    (file.check = .ok () →
      file.IsLegible ∧
      (∀ rules : HolderRules, (∃ summary, Summary.ofClass rules file = .ok summary) ∧
        ∀ debug className log, ∃ count after,
          Gives (rules.thawFields debug className) ⟨file, log⟩ count after) ∧
      (file.pool.Reachable → ∀ debug log error, Fails (openEnum debug) ⟨file, log⟩ error →
        ∃ className name descriptor, file.IsOpenable className name descriptor ∧
          file.OpeningFault className name descriptor error)) := by
  refine ⟨fun bytes hparse => ⟨check_of_parse hparse, .parsed hparse⟩, ?_⟩
  intro hcheck
  refine ⟨isLegible_of_check hcheck, ?_, fun hreachable debug log error =>
    openingFault_of_fails hreachable hcheck⟩
  intro rules
  refine ⟨Summary.exists_ofClass rules hcheck, ?_⟩
  intro debug className log
  obtain ⟨events, -, hgives⟩ :=
    @HolderRules.gives_thawFields rules debug className ⟨file, log⟩ hcheck
  exact ⟨_, _, hgives⟩

/-- The enum rule names the tenth constant of the sample, which gives the array of values the type
of a constructor. -/
theorem legible_of_check_contradictingSample : ∃ file,
    parse Settings.contradictingSampleBytes = .ok file ∧ file.check = .ok () ∧
    file.pool.Reachable ∧
    (∃ summary, Summary.ofClass ({} : Settings).toHolderRules file = .ok summary) ∧
    Fails (openEnum true) ⟨file, #[]⟩ (.inconsistent "E" (.fieldType 10 "$VALUES" "()V" "[LE;")) ∧
    file.pool.IsMismatch "E" "$VALUES" "[LE;" 10 "()V" := by
  have hfails : (parse Settings.contradictingSampleBytes).toOption.any (fun file =>
      ((openEnum true).run ⟨file, #[]⟩).1 ==
        .error (.inconsistent "E" (.fieldType 10 "$VALUES" "()V" "[LE;"))) = true := by
    decide +kernel
  cases hparse : parse Settings.contradictingSampleBytes with
  | error error =>
    rw [hparse] at hfails
    cases hfails
  | ok file =>
    rw [hparse] at hfails
    have hopen : Fails (openEnum true) ⟨file, #[]⟩
      (.inconsistent "E" (.fieldType 10 "$VALUES" "()V" "[LE;")) := beq_iff_eq.mp hfails
    obtain ⟨hparsed, hlegible⟩ := legible_of_check file
    obtain ⟨hcheck, hreachable⟩ := hparsed _ hparse
    obtain ⟨-, hrules, hfault⟩ := hlegible hcheck
    obtain ⟨className, name, descriptor, -, hfault⟩ := hfault hreachable true #[] _ hopen
    cases hfault with
    | mismatch hmismatch =>
      exact ⟨file, rfl, hcheck, hreachable, (hrules _).1, hopen, hmismatch⟩

end ClassFile

end ClassThaw
