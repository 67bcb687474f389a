import ClassThaw.Proofs.EnumRule.Open
import ClassThaw.Proofs.HolderRule
import ClassThaw.Revision

/-! A class that has been read passes its check, so that the holder rule cannot fail on it. What is
left to fail is the enum rule, and the file may become too large to be written. -/

namespace ClassThaw

variable {ε α : Type}

theorem mapError_eq_ok_iff {ε' : Type} {result : Except ε α} {f : ε → ε'} {value : α} :
    result.mapError f = .ok value ↔ result = .ok value := by
  cases result with
  | error error => simp [Except.mapError]
  | ok found => simp [Except.mapError]

theorem Mutations.total_eq (mutations : Mutations) :
    mutations.total = mutations.holderFields + mutations.enumPatch.total := by
  simp only [total, Mutation.all, count, EnumPatch.total, List.foldl_cons, List.foldl_nil]
  omega

theorem Mutations.isEmpty_eq_false {mutations : Mutations}
    (h : mutations.enumPatch.isEmpty = false) : mutations.isEmpty = false := by
  have htotal := mutations.total_eq
  rw [EnumPatch.isEmpty, beq_eq_false_iff_ne] at h
  rw [isEmpty, beq_eq_false_iff_ne]
  omega

namespace Settings

variable {settings : Settings} {className : String} {mutations : Mutations}

theorem gives_orThrow_bind {β : Type} {result : Except ε α} {next : α → Logged ε β}
    {log after : Array Event} {value : β} :
    Gives (orThrow result >>= next) log value after ↔
      ∃ found, result = .ok found ∧ Gives (next found) log value after := by
  cases result with
  | error error =>
    constructor
    · intro h
      obtain ⟨_, _, hthrow, -⟩ := gives_bind.mp h
      exact absurd hthrow gives_throw
    · rintro ⟨_, hfound, -⟩
      cases hfound
  | ok found =>
    constructor
    · intro h
      exact ⟨found, rfl, h⟩
    · rintro ⟨_, hfound, h⟩
      cases hfound
      exact h

/-- What both rules make of a class that passes its check, and the edits that they count. -/
structure Revises (settings : Settings) (className : String) (before : ClassFile)
    (mutations : Mutations) (after : ClassFile) : Prop where
  holderFields : mutations.holderFields = before.fields.countP (settings.selects className before)
  enumPatch :
    if settings.openEnums then
      (settings.thaw className before).EnumOutcome mutations.enumPatch after
    else mutations.enumPatch = {} ∧ after = settings.thaw className before

/-- The rules fail on a class that passes its check only where `Revises` has nothing to offer. -/
theorem gives_apply {work : Workpiece} {after : ClassFile} (hcheck : work.file.check = .ok ()) :
    (∃ log, Gives (settings.apply className) work mutations ⟨after, log⟩) ↔
      settings.Revises className work.file mutations after := by
  obtain ⟨events, -, hthaw⟩ :=
    HolderRules.gives_thawFields settings.toHolderRules settings.debug className hcheck
  unfold apply
  simp only [gives_bind_of hthaw, Edit.gives_report_if]
  -- From here on it does not matter what has been reported.
  generalize (if 0 < _ then Array.push (work.log ++ events) _ else _) = reported
  constructor
  · rintro ⟨log, hgives⟩
    cases hopen : settings.openEnums with
    | false =>
      rw [hopen] at hgives
      obtain ⟨rfl, hafter⟩ := gives_pure.mp hgives
      refine ⟨rfl, ?_⟩
      rw [hopen]
      exact ⟨rfl, congrArg Workpiece.file hafter⟩
    -- With the enum rule switched on, its own outcome is what the class becomes.
    | true =>
      rw [hopen] at hgives
      obtain ⟨patch, middle, henum, hreport⟩ := gives_bind.mp hgives
      have houtcome := enumOutcome_of_gives henum
      rw [Edit.gives_report_if] at hreport
      obtain ⟨rfl, hafter⟩ := gives_pure.mp hreport
      obtain rfl : after = middle.file := congrArg Workpiece.file hafter
      refine ⟨rfl, ?_⟩
      rw [hopen]
      exact houtcome
  · rintro ⟨hholders, henum⟩
    obtain ⟨holderFields, patch⟩ := mutations
    obtain rfl := hholders
    cases hopen : settings.openEnums with
    | false =>
      rw [hopen] at henum
      obtain ⟨rfl, rfl⟩ := henum
      exact ⟨_, gives_pure.mpr ⟨rfl, rfl⟩⟩
    | true =>
      rw [hopen] at henum
      -- The holder rule leaves the name of the class alone.
      obtain ⟨name, hname⟩ := ClassFile.exists_name hcheck
      have houtcome : (settings.thaw className work.file).EnumOutcome patch after := henum
      obtain ⟨log, hgives⟩ := @exists_gives_openEnum
        ⟨settings.thaw className work.file, reported⟩ _ _ settings.debug _ hname houtcome
      simp only [Bool.not_true, Bool.false_eq_true, if_false, gives_bind_of hgives,
        Edit.gives_report_if]
      exact ⟨_, gives_pure.mpr ⟨rfl, rfl⟩⟩

/-- Where no edit has been made the bytes are left alone; otherwise the class is checked and
written. -/
theorem gives_conclude {debug : Bool} {file : ClassFile} {log after : Array Event}
    {revision : Revision} :
    Gives (conclude debug className mutations file) log revision after ↔
      if mutations.isEmpty then
        revision = .unchanged ∧ after = if debug then log.push (.unchanged className) else log
      else file.check = .ok () ∧ ∃ revised, file.write = .ok revised ∧
        revision = .modified revised mutations ∧ after = log := by
  unfold conclude
  split
  · cases debug with
    | false => exact gives_pure
    | true =>
      have hreport : Gives (Logged.report (.unchanged className) : Logged RevisionError Unit) log ()
          (log.push (.unchanged className)) := gives_modify.mpr rfl
      exact (gives_bind_of hreport).trans gives_pure
  · simp only [gives_orThrow_bind, mapError_eq_ok_iff, gives_pure]
    constructor
    · rintro ⟨_, hcheck, hwrite⟩
      exact ⟨hcheck, hwrite⟩
    · rintro ⟨hcheck, hwrite⟩
      exact ⟨(), hcheck, hwrite⟩

theorem exists_gives_conclude_of_isEmpty {file : ClassFile} (debug : Bool)
    (hempty : mutations.isEmpty = true) (log : Array Event) :
    ∃ reported, Gives (conclude debug className mutations file) log .unchanged reported := by
  refine ⟨if debug then log.push (.unchanged className) else log, ?_⟩
  rw [gives_conclude, if_pos hempty]
  exact ⟨rfl, rfl⟩

/-- Bytes that hold no class are refused before anything is reported. -/
theorem run_revise_of_malformed {bytes : Bytes} {cause : FormatError}
    (hparse : ClassFile.parse bytes = .error cause) (log : Array Event) :
    (settings.revise className bytes).run log = (.error (.malformed cause), log) := by
  rw [revise, hparse]
  rfl

/-- On a class that has been read, a revision is what the rules make of it, and the conclusion. -/
theorem run_revise_of_parse {bytes : Bytes} {file : ClassFile}
    (hparse : ClassFile.parse bytes = .ok file) (log : Array Event) :
    (settings.revise className bytes).run log =
      (orThrow ((settings.apply className).run ⟨file, log⟩).1 >>= fun mutations =>
        conclude settings.debug className mutations
          ((settings.apply className).run ⟨file, log⟩).2.file).run
            ((settings.apply className).run ⟨file, log⟩).2.log := by
  rw [revise, hparse]
  rfl

theorem gives_revise {bytes : Bytes} {log after : Array Event} {revision : Revision} :
    Gives (settings.revise className bytes) log revision after ↔ ∃ file mutations work,
      ClassFile.parse bytes = .ok file ∧
      Gives (settings.apply className) ⟨file, log⟩ mutations work ∧
      Gives (conclude settings.debug className mutations work.file) work.log revision after := by
  unfold revise
  simp only [gives_orThrow_bind, mapError_eq_ok_iff, gives_get_bind, gives_set_bind]
  constructor
  · rintro ⟨file, hparse, mutations, hmutations, hconclude⟩
    exact ⟨file, mutations, _, hparse, gives_iff.mpr ⟨hmutations, rfl⟩, hconclude⟩
  · rintro ⟨file, mutations, work, hparse, hgives, hconclude⟩
    obtain ⟨hmutations, rfl⟩ := gives_iff.mp hgives
    exact ⟨file, hparse, mutations, hmutations, hconclude⟩

end Settings

end ClassThaw
