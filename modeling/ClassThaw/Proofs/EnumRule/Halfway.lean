import ClassThaw.Proofs.EnumRule.Failure

namespace ClassThaw

open ConstantPool

variable {work : Workpiece} {className : String} {field : Field}

namespace ClassFile

variable {before middle after : ClassFile}

/-- The class afterwards is in order, and its pool has what the pool before had. -/
structure Intact (before after : ClassFile) : Prop where
  reachable : after.pool.Reachable
  check : after.check = .ok ()
  grows : before.pool.Grows after.pool

theorem Intact.refl (hreachable : before.pool.Reachable) (hcheck : before.check = .ok ()) :
    before.Intact before :=
  ⟨hreachable, hcheck, .refl before.pool⟩

theorem Intact.trans (h : before.Intact middle) (h' : middle.Intact after) :
    before.Intact after :=
  ⟨h'.reachable, h'.check, h.grows.trans h'.grows⟩

end ClassFile

/-- The class is still in order, and nothing but remarks have been added to the events. -/
structure Workpiece.Proceeds (before after : Workpiece) : Prop where
  intact : before.file.Intact after.file
  quiet : ∀ level ≠ .debug, eventsAt level after.log = eventsAt level before.log

namespace Workpiece.Proceeds

variable {before middle after : Workpiece}

theorem refl (hreachable : before.file.pool.Reachable) (hcheck : before.file.check = .ok ()) :
    before.Proceeds before :=
  ⟨.refl hreachable hcheck, fun _ _ => rfl⟩

theorem trans (h : before.Proceeds middle) (h' : middle.Proceeds after) : before.Proceeds after :=
  ⟨h.intact.trans h'.intact, fun level hlevel =>
    (h'.quiet level hlevel).trans (h.quiet level hlevel)⟩

end Workpiece.Proceeds

/-- The constants of the method are added by six calls, each of which may be the last. -/
theorem leaves_appendMethod {pool : ConstantPool} (className valuesName valuesDescriptor : String)
    (hreachable : pool.Reachable) :
    Leaves (appendMethod className valuesName valuesDescriptor) pool Reachable := by
  have hcall (call : Addition) (pool : ConstantPool) (h : pool.Reachable) :
      Leaves call.change pool Reachable := .added call h
  apply leaves_bind (hcall (.fieldRef className valuesName valuesDescriptor) pool hreachable)
  intro valuesField pool _ hreachable
  apply leaves_bind (hcall (.methodRef _ _ _) pool hreachable)
  intro copyOf pool _ hreachable
  apply leaves_bind (hcall (.class valuesDescriptor) pool hreachable)
  intro arrayClass pool _ hreachable
  apply leaves_bind (hcall (.text AttributeKind.code.name) pool hreachable)
  intro code pool _ hreachable
  apply leaves_bind (hcall (.text appendMethodName) pool hreachable)
  intro name pool _ hreachable
  apply leaves_bind (hcall (.text (appendDescriptor className)) pool hreachable)
  intro descriptor pool _ hreachable
  exact leaves_pure hreachable

/-- Constants that have been added for a method that is not added after all do no harm. -/
theorem leaves_addAppendMethod (className : String) (field : Field)
    (hreachable : work.file.pool.Reachable) (hcheck : work.file.check = .ok ()) :
    Leaves (addAppendMethod className field) work work.Proceeds := by
  have hself := Workpiece.Proceeds.refl hreachable hcheck
  unfold addAppendMethod
  rw [Edit.leaves_file_bind]
  apply Edit.leaves_lookUp_bind hself
  intro name _
  apply Edit.leaves_lookUp_bind hself
  intro descriptor _
  obtain ⟨hsound, hgrows, happend⟩ :=
    adds_appendMethod className name descriptor work.file.pool hreachable.sound trivial
  have hreachable' := leaves_appendMethod className name descriptor hreachable
  apply leaves_bind
  · refine Edit.leaves_changePool.mpr ⟨⟨hreachable', ?_, hgrows⟩, fun _ _ => rfl⟩
    exact ClassFile.check_grow hgrows hsound.check hcheck
  · intro method _ hgives _
    obtain ⟨_, hmethod, rfl⟩ := Edit.gives_changePool.mp hgives
    obtain ⟨hvalue, rfl⟩ := gives_iff.mp hmethod
    refine Edit.leaves_change.mpr ⟨⟨hreachable', ?_, hgrows⟩, fun _ _ => rfl⟩
    -- The method is the one whose constants have been added.
    have hmethod := (happend method hvalue).check
    exact @ClassFile.check_append work.file method _ hcheck hgrows hsound.check hmethod

/-- The tests after opening change nothing. -/
theorem leaves_checkOpened {holds : Workpiece → Prop} (className : String) (field : Field)
    (h : holds work) : Leaves (checkOpened className field) work holds := by
  unfold checkOpened
  rw [Edit.leaves_file_bind]
  apply Edit.leaves_lookUp_bind h
  intro name _
  apply Edit.leaves_lookUp_bind h
  intro descriptor _
  have hreferences : Leaves (work.file.checkReferences className name descriptor) work holds := by
    refine leaves_forM ?_ h
    rintro ⟨index, constant⟩ _ state hstate
    dsimp only
    split
    case isFalse => exact leaves_pure hstate
    case isTrue =>
      apply Edit.leaves_lookUp_bind hstate
      intro reference _
      split
      · exact leaves_throw hstate
      · exact leaves_pure hstate
  apply leaves_bind hreferences
  intro _ middle _ hmiddle
  unfold ClassFile.checkAfterEdit
  split
  · exact leaves_pure hmiddle
  · exact leaves_throw hmiddle

theorem leaves_openShape (valuesField : Nat) (hreachable : work.file.pool.Reachable)
    (hcheck : work.file.check = .ok ()) : Leaves (openShape valuesField) work work.Proceeds := by
  have hchecked := (ClassFile.frame_withOpenMembers work.file valuesField).check hcheck
  have hopened : work.Proceeds ⟨work.file.withOpenMembers valuesField, work.log⟩ :=
    ⟨⟨hreachable, hchecked, .refl work.file.pool⟩, fun _ _ => rfl⟩
  unfold openShape
  rw [Edit.leaves_file_bind, Edit.leaves_change_bind, Edit.leaves_file_bind]
  apply Edit.leaves_lookUp_bind hopened
  intro className _
  split
  case h_2 => exact leaves_pure hopened
  case h_1 field _ =>
    have hrest (work' : Workpiece) (h : work.Proceeds work') (added : Bool) :
        Leaves (checkOpened className field >>= fun _ =>
          pure (work.file.openPatch valuesField added)) work' work.Proceeds :=
      leaves_bind (leaves_checkOpened className field h) fun _ _ _ hafter => leaves_pure hafter
    dsimp only
    split
    case isFalse => exact hrest _ hopened _
    case isTrue =>
      have hadded : Leaves (addAppendMethod className field)
          ⟨work.file.withOpenMembers valuesField, work.log⟩ work.Proceeds :=
        hopened.trans (leaves_addAppendMethod className field hreachable hchecked)
      exact leaves_bind hadded fun _ _ _ hafter => hrest _ hafter _

/-- Wherever the enum rule stops, it leaves the class in order, and has reported no more than what
it has left alone. -/
theorem leaves_openEnum (debug : Bool) (hreachable : work.file.pool.Reachable)
    (hcheck : work.file.check = .ok ()) : Leaves (openEnum debug) work work.Proceeds := by
  have hself := Workpiece.Proceeds.refl hreachable hcheck
  unfold openEnum
  rw [Edit.leaves_file_bind]
  apply Edit.leaves_lookUp_bind hself
  intro shape _
  cases shape with
  | notEnum => exact leaves_pure hself
  | unsupported obstacle =>
    cases debug with
    | false => exact leaves_pure hself
    | true =>
      apply Edit.leaves_lookUp_bind hself
      intro className _
      refine Edit.leaves_report_bind.mpr (leaves_pure ⟨hself.intact, ?_⟩)
      intro level hlevel
      have hremark : (Event.enumLeftAlone className obstacle.text).level ≠ level := hlevel.symm
      rw [Workpiece.reported, eventsAt_push, if_neg hremark, List.append_nil]
  | extensible valuesField constructors => exact leaves_openShape valuesField hreachable hcheck

end ClassThaw
