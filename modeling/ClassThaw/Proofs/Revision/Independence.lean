import ClassThaw.Proofs.Revision.Outcome

namespace ClassThaw

variable {earlier : Array Event}

namespace HolderRules

variable (rules : HolderRules) (debug : Bool)

theorem commutes_survey (pool : ConstantPool) (whole : Bool) (fields : List Field) :
    Commutes (earlier ++ ·) (rules.survey debug pool whole fields) := by
  induction fields generalizing whole with
  | nil => exact commutes_pure whole
  | cons field fields ih =>
    apply (commutes_lift (field.annotationDescriptors pool)).bind
    intro descriptors
    dsimp only
    split
    case isFalse => exact ih whole
    case isTrue =>
      split
      case isFalse => exact ih true
      case isTrue =>
        apply (commutes_lift (field.nameText pool)).bind
        intro name
        exact (commutes_log_report _).bind fun _ => ih true

theorem commutes_coversClass (className : String) (file : ClassFile) :
    Commutes (earlier ++ ·) (rules.coversClass debug className file) := by
  unfold coversClass
  split
  case isTrue => exact rules.commutes_survey debug file.pool true file.fields
  case isFalse =>
    apply (commutes_lift file.annotationDescriptors).bind
    intro descriptors
    exact rules.commutes_survey debug file.pool _ file.fields

theorem commutes_thawFields (className : String) :
    Commutes (Workpiece.since earlier) (rules.thawFields debug className) := by
  apply Edit.commutes_file.bind
  intro file
  apply (Edit.commutes_logged (rules.commutes_coversClass debug className file)).bind
  intro whole
  exact (Edit.commutes_change _).bind fun _ => commutes_pure _

end HolderRules

namespace ClassFile

theorem commutes_checkReferences (file : ClassFile) (className field descriptor : String) :
    Commutes (Workpiece.since earlier) (file.checkReferences className field descriptor) := by
  apply commutes_forM
  rintro ⟨index, constant⟩ _
  dsimp only
  split
  case isFalse => exact commutes_pure _
  case isTrue =>
    apply (Edit.commutes_lookUp (file.pool.memberReference index)).bind
    intro reference
    split
    case isTrue => exact commutes_throw _
    case isFalse => exact commutes_pure _

theorem commutes_checkAfterEdit (file : ClassFile) (className : String) :
    Commutes (Workpiece.since earlier) (file.checkAfterEdit className) := by
  unfold checkAfterEdit
  split
  case h_1 => exact commutes_pure _
  case h_2 => exact commutes_throw _

end ClassFile

theorem commutes_addAppendMethod (className : String) (field : Field) :
    Commutes (Workpiece.since earlier) (addAppendMethod className field) := by
  apply Edit.commutes_file.bind
  intro file
  apply (Edit.commutes_lookUp (field.nameText file.pool)).bind
  intro name
  apply (Edit.commutes_lookUp (field.descriptorText file.pool)).bind
  intro descriptor
  apply (Edit.commutes_changePool (appendMethod className name descriptor)).bind
  intro method
  exact Edit.commutes_change _

theorem commutes_checkOpened (className : String) (field : Field) :
    Commutes (Workpiece.since earlier) (checkOpened className field) := by
  apply Edit.commutes_file.bind
  intro file
  apply (Edit.commutes_lookUp (field.nameText file.pool)).bind
  intro name
  apply (Edit.commutes_lookUp (field.descriptorText file.pool)).bind
  intro descriptor
  apply (file.commutes_checkReferences className name descriptor).bind
  intro _
  exact file.commutes_checkAfterEdit className

theorem commutes_openShape (valuesField : Nat) :
    Commutes (Workpiece.since earlier) (openShape valuesField) := by
  apply Edit.commutes_file.bind
  intro before
  apply (Edit.commutes_change _).bind
  intro _
  apply Edit.commutes_file.bind
  intro file
  apply (Edit.commutes_lookUp file.name).bind
  intro className
  split
  case h_2 => exact commutes_pure _
  case h_1 field _ =>
    have hrest : Commutes (Workpiece.since earlier) (checkOpened className field >>= fun _ =>
        pure (before.openPatch valuesField (file.lacksAppend className))) :=
      (commutes_checkOpened className field).bind fun _ => commutes_pure _
    dsimp only
    split
    case isTrue => exact (commutes_addAppendMethod className field).bind fun _ => hrest
    case isFalse => exact hrest

theorem commutes_openEnum (debug : Bool) :
    Commutes (Workpiece.since earlier) (openEnum debug) := by
  apply Edit.commutes_file.bind
  intro file
  apply (Edit.commutes_lookUp file.enumShape).bind
  intro shape
  cases shape with
  | notEnum => exact commutes_pure _
  | unsupported obstacle =>
    cases debug with
    | false => exact commutes_pure _
    | true =>
      apply (Edit.commutes_lookUp file.name).bind
      intro className
      exact (Edit.commutes_report _).bind fun _ => commutes_pure _
  | extensible valuesField constructors => exact commutes_openShape valuesField

namespace Settings

variable (settings : Settings) (className : String)

theorem commutes_apply : Commutes (Workpiece.since earlier) (settings.apply className) := by
  apply (settings.commutes_thawFields settings.debug className).bind
  intro holderFields
  have hrest : Commutes (Workpiece.since earlier) (if !settings.openEnums then
      pure { holderFields } else openEnum settings.debug >>= fun enumPatch => do
        if !enumPatch.isEmpty then
          Edit.report (.enumOpened className)
        return { holderFields, enumPatch } : Edit Mutations) := by
    split
    case isTrue => exact commutes_pure _
    case isFalse =>
      apply (commutes_openEnum settings.debug).bind
      intro enumPatch
      dsimp only
      split
      case isTrue => exact (Edit.commutes_report _).bind fun _ => commutes_pure _
      case isFalse => exact commutes_pure _
  dsimp only
  split
  case isTrue => exact (Edit.commutes_report _).bind fun _ => hrest
  case isFalse => exact hrest

theorem commutes_orThrow {ε α : Type} (result : Except ε α) :
    Commutes (earlier ++ ·) (orThrow result) := by
  cases result with
  | error error => exact commutes_throw error
  | ok value => exact commutes_pure value

theorem commutes_conclude (debug : Bool) (mutations : Mutations) (file : ClassFile) :
    Commutes (earlier ++ ·) (conclude debug className mutations file) := by
  unfold conclude
  split
  case isTrue =>
    cases debug with
    | false => exact commutes_pure _
    | true => exact (commutes_log_report _).bind fun _ => commutes_pure _
  case isFalse =>
    apply (commutes_orThrow _).bind
    intro _
    exact (commutes_orThrow _).bind fun _ => commutes_pure _

theorem commutes_revise (bytes : Bytes) :
    Commutes (earlier ++ ·) (settings.revise className bytes) := by
  intro log
  cases hparse : ClassFile.parse bytes with
  | error cause => rw [run_revise_of_malformed hparse, run_revise_of_malformed hparse]
  | ok file =>
    -- The events before become part of the workpiece, and of the log again after the rules.
    have happly : (settings.apply className).run ⟨file, earlier ++ log⟩ =
        (((settings.apply className).run ⟨file, log⟩).1,
          ((settings.apply className).run ⟨file, log⟩).2.since earlier) :=
      settings.commutes_apply className ⟨file, log⟩
    rw [run_revise_of_parse hparse, run_revise_of_parse hparse, happly]
    exact (commutes_orThrow _).bind
      (fun mutations => commutes_conclude className settings.debug mutations _) _

/-- What revising the bytes of a class comes to. -/
def outcome (bytes : Bytes) : Except RevisionError Revision :=
  ((settings.revise className bytes).run.run #[]).1

/-- What is reported while the bytes of a class are revised. -/
def reports (bytes : Bytes) : Array Event :=
  ((settings.revise className bytes).run.run #[]).2

/-- A revision comes to the same result after any events, and puts its own behind them. -/
theorem run_revise (bytes : Bytes) (log : Array Event) :
    (settings.revise className bytes).run.run log =
      (settings.outcome className bytes, log ++ settings.reports className bytes) := by
  have hafter : (settings.revise className bytes).run.run (log ++ #[]) =
      (settings.outcome className bytes, log ++ settings.reports className bytes) :=
    settings.commutes_revise className bytes #[]
  rwa [Array.append_empty] at hafter

end Settings

end ClassThaw
