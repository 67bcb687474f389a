import ClassThaw.Proofs.EnumRule.Halfway
import ClassThaw.Proofs.Revision.Crowded
import ClassThaw.Proofs.Revision.Independence

namespace ClassThaw

variable {className : String} {mutations : Mutations} {events : Array Event}

/-- What is reported about the edits that have been made to a class. -/
def Mutations.announcements (mutations : Mutations) (className : String) : List Event :=
  (if 0 < mutations.holderFields then [.holdersOpened mutations.holderFields className] else []) ++
    if mutations.enumPatch.isEmpty then [] else [.enumOpened className]

theorem Mutations.announcements_eq_nil_iff :
    mutations.announcements className = [] ↔ mutations.isEmpty = true := by
  have hempty : mutations.isEmpty = true ↔
      mutations.holderFields = 0 ∧ mutations.enumPatch.isEmpty = true := by
    rw [isEmpty, EnumPatch.isEmpty, beq_iff_eq, beq_iff_eq, mutations.total_eq, Nat.add_eq_zero_iff]
  rw [announcements, List.append_eq_nil_iff, hempty]
  simp

/-- The bytes that a class loader gets for those that it has given. -/
def Revision.delivery (given : Bytes) : Revision → Delivery
  | .unchanged => .given given
  | .modified revised _ => .revised revised

/-- The events announce these edits and nothing else, and tell of no error. -/
structure Announces (className : String) (mutations : Mutations) (events : Array Event) : Prop where
  infos : eventsAt .info events = mutations.announcements className
  errors : eventsAt .error events = []

theorem Announces.of_quiet {later : Array Event} (h : Announces className mutations events)
    (hquiet : ∀ level ≠ .debug, eventsAt level later = eventsAt level events) :
    Announces className mutations later := by
  constructor
  · rw [hquiet .info (by decide), h.infos]
  · rw [hquiet .error (by decide), h.errors]

theorem Announces.push_remark {event : Event} (h : Announces className mutations events)
    (hremark : event.level = .debug) : Announces className mutations (events.push event) := by
  apply h.of_quiet
  intro level hlevel
  rw [eventsAt_push, hremark, if_neg hlevel.symm, List.append_nil]

/-- The holder rule announces how many fields it has thawed. -/
theorem announces_holders {count : Nat} (hlevels : ∀ event ∈ events, event.level = .debug) :
    Announces className { holderFields := count }
      (if 0 < count then events.push (.holdersOpened count className) else events) := by
  have hnone (level : Level) (hlevel : level ≠ .debug) : eventsAt level events = [] := by
    apply eventsAt_eq_nil
    intro event hevent
    rw [hlevels event hevent]
    exact hlevel.symm
  have hinfos : eventsAt .info events = [] := hnone .info (by decide)
  have herrors : eventsAt .error events = [] := hnone .error (by decide)
  split
  case isTrue hsome =>
    constructor
    · rw [eventsAt_push, hinfos, Mutations.announcements, if_pos hsome]
      rfl
    · rw [eventsAt_push, herrors]
      rfl
  case isFalse hzero =>
    constructor
    · rw [hinfos, Mutations.announcements, if_neg hzero]
      rfl
    · exact herrors

/-- The enum rule is announced after the holder rule, if it has changed anything. -/
theorem Announces.enum {patch : EnumPatch} {count : Nat}
    (h : Announces className { holderFields := count } events) :
    Announces className { holderFields := count, enumPatch := patch }
      (if (!patch.isEmpty) = true then events.push (.enumOpened className) else events) := by
  have hinfos : eventsAt .info events =
      if 0 < count then [.holdersOpened count className] else [] :=
    h.infos.trans (List.append_nil _)
  cases hempty : patch.isEmpty with
  | true =>
    refine ⟨?_, h.errors⟩
    rw [Mutations.announcements, hempty, ← hinfos]
    exact (List.append_nil _).symm
  | false =>
    constructor
    · rw [Mutations.announcements, hempty, ← hinfos]
      exact eventsAt_push .info events (.enumOpened className)
    · have herrors := eventsAt_push .error events (.enumOpened className)
      rw [h.errors] at herrors
      exact herrors

namespace Settings

variable {settings : Settings} {file : ClassFile} {bytes revised : Bytes} {error : RevisionError}

/-- The rules announce what they have done to a class. If they are refused, the holder rule has
announced what it has done. -/
theorem announces_apply (settings : Settings) (className : String)
    (hreachable : file.pool.Reachable) (hcheck : file.check = .ok ()) :
    (∀ mutations work, Gives (settings.apply className) ⟨file, #[]⟩ mutations work →
      Announces className mutations work.log) ∧
    ∀ error, Fails (settings.apply className) ⟨file, #[]⟩ error →
      Leaves (settings.apply className) ⟨file, #[]⟩ fun left =>
        Announces className { holderFields := file.fields.countP (settings.selects className file) }
          left.log := by
  obtain ⟨events, hlevels, hthaw⟩ :=
    @HolderRules.gives_thawFields settings.toHolderRules settings.debug className ⟨file, #[]⟩ hcheck
  have hchecked := (HolderRules.frame_thaw settings.toHolderRules className file).check hcheck
  rw [Array.empty_append] at hthaw
  unfold apply
  simp only [gives_bind_of hthaw, fails_bind_of hthaw, leaves_bind_of hthaw, Edit.gives_report_if,
    Edit.fails_report_if, Edit.leaves_report_if]
  have hholders := @announces_holders className _
    (file.fields.countP (settings.selects className file)) hlevels
  generalize (if 0 < _ then Array.push events _ else _) = reported at *
  cases settings.openEnums with
  | false =>
    refine ⟨?_, fun _ _ => leaves_pure hholders⟩
    intro mutations work hgives
    obtain ⟨rfl, rfl⟩ := gives_pure.mp hgives
    exact hholders
  | true =>
    -- Opening an enum adds nothing to the announcements by itself.
    have hopen : Leaves (openEnum settings.debug) ⟨settings.thaw className file, reported⟩
        (Workpiece.Proceeds ⟨settings.thaw className file, reported⟩) :=
      leaves_openEnum settings.debug hreachable hchecked
    constructor
    · intro mutations work hgives
      obtain ⟨patch, middle, henum, hreport⟩ := gives_bind.mp hgives
      rw [Edit.gives_report_if] at hreport
      obtain ⟨rfl, rfl⟩ := gives_pure.mp hreport
      exact (hholders.of_quiet (hopen.of_gives henum).quiet).enum
    · intro error hfails
      rcases fails_bind.mp hfails with henum | ⟨patch, middle, -, hreport⟩
      · exact (leaves_bind_of_fails henum).mpr (hholders.of_quiet hopen.quiet)
      · rw [Edit.fails_report_if] at hreport
        exact absurd hreport (gives_pure.mpr ⟨rfl, rfl⟩).not_fails

/-- Revising the bytes fails with an error, after the rules have announced these edits. -/
inductive FailsAfter (settings : Settings) (className : String) (bytes : Bytes) :
    RevisionError → Mutations → Prop
  -- The bytes hold no class that can be edited.
  | unreadable {cause : FormatError} : ClassFile.parse bytes = .error cause →
      FailsAfter settings className bytes (.malformed cause) {}
  -- The holder rule is never refused, so that it has done its part.
  | refused {file : ClassFile} {error : RevisionError} : ClassFile.parse bytes = .ok file →
      Fails (settings.apply className) ⟨file, #[]⟩ error →
      FailsAfter settings className bytes error
        { holderFields := file.fields.countP (settings.selects className file) }
  -- Both rules have done their part, and have added one method more than can be written.
  | unwritten {file : ClassFile} {mutations : Mutations} {work : Workpiece} {what : Quantity}
      {count : Nat} : ClassFile.parse bytes = .ok file →
      Gives (settings.apply className) ⟨file, #[]⟩ mutations work →
      work.file.methods.length = 65536 → mutations.enumPatch.isEmpty = false →
      FailsAfter settings className bytes (.malformed (.limitExceeded what count)) mutations

/-- The conclusion of a class that has been edited adds no events, whether it succeeds or fails. -/
theorem leaves_conclude (debug : Bool) (hedited : mutations.isEmpty = false) (log : Array Event) :
    Leaves (conclude debug className mutations file) log (· = log) := by
  rw [Leaves, conclude, hedited]
  cases file.check with
  | error error => rfl
  | ok _ =>
    cases file.write with
    | error error => rfl
    | ok revised => rfl

theorem announces_of_modified
    (h : settings.outcome className bytes = .ok (.modified revised mutations)) :
    Announces className mutations (settings.reports className bytes) ∧
      mutations.isEmpty = false := by
  have hgives : Gives (settings.revise className bytes) #[] (.modified revised mutations)
      (settings.reports className bytes) := gives_iff.mpr ⟨h, rfl⟩
  obtain ⟨file, _, work, hparse, happly, hconclude⟩ := gives_revise.mp hgives
  rw [gives_conclude] at hconclude
  split at hconclude
  case isTrue => cases hconclude.1
  case isFalse hedited =>
    obtain ⟨-, _, -, ⟨⟩, hreports⟩ := hconclude
    have hannounces := announces_apply settings className (.parsed hparse)
      (ClassFile.check_of_parse hparse)
    rw [hreports]
    exact ⟨hannounces.1 _ _ happly, Bool.eq_false_iff.mpr hedited⟩

theorem announces_of_unchanged (h : settings.outcome className bytes = .ok .unchanged) :
    Announces className {} (settings.reports className bytes) := by
  have hgives : Gives (settings.revise className bytes) #[] .unchanged
      (settings.reports className bytes) := gives_iff.mpr ⟨h, rfl⟩
  obtain ⟨file, mutations, work, hparse, happly, hconclude⟩ := gives_revise.mp hgives
  rw [gives_conclude] at hconclude
  split at hconclude
  case isFalse =>
    obtain ⟨-, _, -, hmodified, -⟩ := hconclude
    cases hmodified
  case isTrue hempty =>
    have hannounces := (announces_apply settings className (.parsed hparse)
      (ClassFile.check_of_parse hparse)).1 _ _ happly
    have hquiet : Announces className {} work.log := by
      refine ⟨?_, hannounces.errors⟩
      rw [hannounces.infos, Mutations.announcements_eq_nil_iff.mpr hempty]
      rfl
    rw [hconclude.2]
    split
    case isTrue => exact hquiet.push_remark rfl
    case isFalse => exact hquiet

theorem announces_of_error (h : settings.outcome className bytes = .error error) :
    ∃ mutations, settings.FailsAfter className bytes error mutations ∧
      Announces className mutations (settings.reports className bytes) := by
  have hfails : Fails (settings.revise className bytes) #[] error := h
  cases hparse : ClassFile.parse bytes with
  | error cause =>
    have hrun : (settings.revise className bytes).run #[] = (.error (.malformed cause), #[]) :=
      run_revise_of_malformed hparse #[]
    have hreports : settings.reports className bytes = #[] := congrArg Prod.snd hrun
    have hcause : Fails (settings.revise className bytes) #[] (.malformed cause) :=
      congrArg Prod.fst hrun
    rw [hcause.unique hfails, hreports]
    exact ⟨{}, .unreadable hparse, rfl, rfl⟩
  | ok file =>
    have hannounces := announces_apply settings className (.parsed hparse)
      (ClassFile.check_of_parse hparse)
    rcases (fails_revise hparse).mp hfails with happly | ⟨mutations, work, hgives, hconclude⟩
    · have hreports : settings.reports className bytes =
          ((settings.apply className).run ⟨file, #[]⟩).2.log :=
        congrArg Prod.snd (run_revise_of_fails hparse happly)
      rw [hreports]
      exact ⟨_, .refused hparse happly, hannounces.2 error happly⟩
    · obtain ⟨⟨what, count, rfl⟩, hedited, hlength⟩ := overflows_of_fails hparse hgives hconclude
      have hreports : settings.reports className bytes = work.log :=
        (congrArg Prod.snd (run_revise_of_gives hparse hgives)).trans
          (leaves_conclude settings.debug (Mutations.isEmpty_eq_false hedited) work.log)
      rw [hreports]
      exact ⟨mutations, .unwritten hparse hgives hlength hedited,
        hannounces.1 mutations work hgives⟩

/-- An enum that has as many methods as a class can have is opened, which is announced, and is
refused when it is written. -/
theorem announces_of_crowded {owner name descriptor : String}
    (hparse : ClassFile.parse bytes = .ok file) (hopen : settings.openEnums = true)
    (hopenable : file.IsOpenable owner name descriptor) (hadmits : file.AdmitsOpening)
    (hlacks : file.lacksAppend owner = true) (hfull : file.methods.length = 65535) :
    (∃ error, settings.outcome className bytes = .error error) ∧
      .enumOpened className ∈ settings.reports className bytes := by
  have hcheck := ClassFile.check_of_parse hparse
  have hsound := ConstantPool.sound_of_parse hparse
  rcases @gives_or_fails_apply settings className ⟨file, #[]⟩ hcheck hsound with
    ⟨⟨mutations, work, hgives⟩, -⟩ | ⟨-, hnot, -⟩
  · have hrevises := (gives_apply hcheck).mp ⟨work.log, hgives⟩
    obtain ⟨hchecked, hcount⟩ := hrevises.fits_iff hparse
    rcases hrevises.length_methods hsound hcheck with
      ⟨-, hfound⟩ | ⟨-, _, _, _, -, -, hedited, hone⟩
    · rw [hfound hopen owner name descriptor hopenable] at hlacks
      cases hlacks
    · have hlarge : ¬ work.file.Fits := mt hcount.mp (by omega)
      obtain ⟨what, count, hconclude⟩ :=
        exists_fails_conclude settings.debug hchecked hlarge (Mutations.isEmpty_eq_false hedited)
          work.log
      have hfails : Fails (settings.revise className bytes) #[]
          (.malformed (.limitExceeded what count)) :=
        (fails_revise hparse).mpr (.inr ⟨mutations, work, hgives, hconclude⟩)
      obtain ⟨announced, hafter, hannounces⟩ := announces_of_error hfails
      suffices hmem : .enumOpened className ∈ announced.announcements className by
        rw [← hannounces.infos] at hmem
        exact ⟨⟨_, hfails⟩, mem_of_mem_eventsAt hmem⟩
      -- The rules have succeeded, so that it is the writer that has refused the class.
      cases hafter with
      | unreadable hnone => cases hparse.symm.trans hnone
      | refused hparse' happly =>
        obtain rfl := Except.ok.inj (hparse.symm.trans hparse')
        exact absurd happly hgives.not_fails
      | unwritten _ _ _ hedited' =>
        rw [Mutations.announcements, hedited']
        exact List.mem_append_right _ List.mem_cons_self
  · exact absurd hadmits hnot

theorem run_deliver_of_ok (requested : String) (log : Array Event) {revision : Revision}
    (h : settings.outcome className bytes = .ok revision) :
    (settings.deliver requested className (some bytes)).run log =
      (some (revision.delivery bytes), log ++ settings.reports className bytes) := by
  have hrevise := settings.run_revise className bytes log
  rw [h] at hrevise
  have hkeep : (settings.reviseOrKeep requested className bytes).run log =
      (revision, log ++ settings.reports className bytes) := run_bind_eq hrevise
  cases revision with
  | unchanged => exact run_bind_eq hkeep
  | modified revised mutations => exact run_bind_eq hkeep

theorem run_deliver_of_error (requested : String) (log : Array Event)
    (h : settings.outcome className bytes = .error error) :
    (settings.deliver requested className (some bytes)).run log =
      (some (.given bytes),
        log ++ (settings.reports className bytes).push (.failed requested className error)) := by
  have hrevise := settings.run_revise className bytes log
  have hfails : Fails (settings.revise className bytes) log error :=
    (congrArg Prod.fst hrevise).trans h
  rw [run_deliver_of_fails hfails, hrevise, Array.push_append]

/-- What is reported while a class is handed to a class loader. Where the bytes are revised, exactly
the edits are announced, of which there are some, and there is no error. Where the bytes are given
back because nothing was to be edited, nothing is announced and there is no error. Where they are
given back because of an error, that error is the last event and the only error, and announced are
the edits that the rules had made by then. -/
theorem diagnostics_of_deliver (settings : Settings) (requested className : String) (bytes : Bytes)
    (log : Array Event) :
    ∃ delivery events,
      (settings.deliver requested className (some bytes)).run log =
        (some delivery, log ++ events) ∧
      (∀ revised mutations, settings.outcome className bytes = .ok (.modified revised mutations) →
        delivery = .revised revised ∧ mutations.announcements className ≠ [] ∧
        eventsAt .info events = mutations.announcements className ∧
        eventsAt .error events = []) ∧
      (settings.outcome className bytes = .ok .unchanged →
        delivery = .given bytes ∧ eventsAt .info events = [] ∧ eventsAt .error events = []) ∧
      (∀ error, settings.outcome className bytes = .error error →
        delivery = .given bytes ∧
        eventsAt .error events = [.failed requested className error] ∧
        events.back? = some (.failed requested className error) ∧
        ∃ mutations, settings.FailsAfter className bytes error mutations ∧
          eventsAt .info events = mutations.announcements className) ∧
      (eventsAt .error events ≠ [] ↔ ∃ error, settings.outcome className bytes = .error error) := by
  cases houtcome : settings.outcome className bytes with
  | error error =>
    obtain ⟨mutations, hafter, hannounces⟩ := announces_of_error houtcome
    have hinfos := eventsAt_push .info (settings.reports className bytes)
      (.failed requested className error)
    have herrors := eventsAt_push .error (settings.reports className bytes)
      (.failed requested className error)
    rw [hannounces.infos] at hinfos
    rw [hannounces.errors] at herrors
    refine ⟨_, _, run_deliver_of_error requested log houtcome, ?_, ?_, ?_, ?_⟩
    · intro revised mutations hmodified
      cases hmodified
    · intro hunchanged
      cases hunchanged
    · rintro _ ⟨⟩
      exact ⟨rfl, herrors, Array.back?_push, mutations, hafter, hinfos.trans (List.append_nil _)⟩
    · refine iff_of_true ?_ ⟨error, rfl⟩
      rw [herrors]
      exact List.cons_ne_nil _ _
  | ok revision =>
    have hno : ¬ ∃ error, (Except.ok revision : Except RevisionError Revision) = .error error := by
      rintro ⟨_, ⟨⟩⟩
    cases revision with
    | unchanged =>
      have hannounces := announces_of_unchanged houtcome
      refine ⟨_, _, run_deliver_of_ok requested log houtcome, ?_, ?_, ?_, ?_⟩
      · intro revised mutations hmodified
        cases hmodified
      · intro _
        exact ⟨rfl, hannounces.infos, hannounces.errors⟩
      · intro error herror
        cases herror
      · exact iff_of_false (not_not_intro hannounces.errors) hno
    | modified revised mutations =>
      obtain ⟨hannounces, hedited⟩ := announces_of_modified houtcome
      refine ⟨_, _, run_deliver_of_ok requested log houtcome, ?_, ?_, ?_, ?_⟩
      · rintro _ _ ⟨⟩
        refine ⟨rfl, ?_, hannounces.infos, hannounces.errors⟩
        rw [Ne, Mutations.announcements_eq_nil_iff, hedited]
        exact Bool.false_ne_true
      · intro hunchanged
        cases hunchanged
      · intro error herror
        cases herror
      · exact iff_of_false (not_not_intro hannounces.errors) hno

theorem diagnostics_of_deliver_samples :
    (∃ events, ((({} : Settings).deliver "a" "E" (some enumSampleBytes)).run #[]) =
        (some (.revised openedSampleBytes), #[] ++ events) ∧
      eventsAt .info events = [.enumOpened "E"] ∧ eventsAt .error events = []) ∧
    ∃ events error mutations,
      ((({} : Settings).deliver "a" "E" (some contradictingSampleBytes)).run #[]) =
        (some (.given contradictingSampleBytes), #[] ++ events) ∧
      eventsAt .error events = [.failed "a" "E" error] ∧
      ({} : Settings).FailsAfter "E" contradictingSampleBytes error mutations ∧
      eventsAt .info events = mutations.announcements "E" := by
  have hmodified : ({} : Settings).outcome "E" enumSampleBytes = .ok (.modified openedSampleBytes
      { enumPatch := { valuesOpened := true, constructorsOpened := 1, appendAdded := true } }) := by
    decide +kernel
  have hfails : ({} : Settings).outcome "E" contradictingSampleBytes =
      .error (.inconsistent "E" (.fieldType 10 "$VALUES" "()V" "[LE;")) := by
    decide +kernel
  constructor
  · obtain ⟨_, events, hrun, hrevised, -⟩ :=
      diagnostics_of_deliver {} "a" "E" enumSampleBytes #[]
    obtain ⟨rfl, -, hinfos, herrors⟩ := hrevised _ _ hmodified
    exact ⟨events, hrun, hinfos, herrors⟩
  · obtain ⟨_, events, hrun, -, -, hgiven, -⟩ :=
      diagnostics_of_deliver {} "a" "E" contradictingSampleBytes #[]
    obtain ⟨rfl, herrors, -, mutations, hafter, hinfos⟩ := hgiven _ hfails
    exact ⟨events, _, mutations, hrun, herrors, hafter, hinfos⟩

/-- What is announced need not be handed over. The holder rule has thawed a field of the first class
when the enum rule refuses it, and the enum rule has opened the second when the writer refuses
it. -/
theorem announced_but_given :
    (((({} : Settings).deliver "a" "net.minecraft.init.Blocks"
        (some contradictingSampleBytes)).run #[]).1 = some (.given contradictingSampleBytes) ∧
      .holdersOpened 1 "net.minecraft.init.Blocks" ∈
        ((({} : Settings).deliver "a" "net.minecraft.init.Blocks"
          (some contradictingSampleBytes)).run #[]).2) ∧
    ∃ bytes, ((({} : Settings).deliver "a" "E" (some bytes)).run #[]).1 = some (.given bytes) ∧
      .enumOpened "E" ∈ ((({} : Settings).deliver "a" "E" (some bytes)).run #[]).2 := by
  constructor
  · decide +kernel
  · have hparse : ClassFile.parse enumSampleBytes = .ok enumSample := by decide +kernel
    have hshape : enumSample.enumShape = .ok (.extensible 0 [0]) := by decide +kernel
    have hopenable : enumSample.IsOpenable "E" "$VALUES" "[LE;" :=
      ⟨0, [0], ⟨⟨0x101A⟩, 3, 4, []⟩, hshape, by decide +kernel, rfl, by decide +kernel,
        by decide +kernel⟩
    have hlacks : enumSample.lacksAppend "E" = true := by decide +kernel
    have hadmits : enumSample.AdmitsOpening := by
      obtain ⟨_, _, work, hparse', happly, -⟩ := gives_revise.mp gives_revise_enumSample
      obtain rfl := Except.ok.inj (hparse.symm.trans hparse')
      rcases @gives_or_fails_apply {} "E" ⟨enumSample, #[]⟩ (ClassFile.check_of_parse hparse)
        (ConstantPool.sound_of_parse hparse) with
        ⟨-, hadmits⟩ | ⟨-, -, _, _, _, _, -, -, hfails⟩
      · exact hadmits rfl
      · exact absurd hfails happly.not_fails
    obtain ⟨bytes, crowded, hparse', hopenable', hadmits', hlacks', hfull⟩ :=
      ClassFile.exists_crowded hparse hopenable hadmits hlacks
    obtain ⟨⟨error, herror⟩, hopened⟩ :=
      @announces_of_crowded "E" {} _ _ _ _ _ hparse' rfl hopenable' hadmits' hlacks' hfull
    refine ⟨bytes, ?_⟩
    rw [run_deliver_of_error "a" #[] herror, Array.empty_append]
    exact ⟨rfl, Array.mem_push_of_mem _ hopened⟩

end Settings

end ClassThaw
