import ClassThaw.CommandLine.Tool
import ClassThaw.Proofs.Revision.Frame

namespace ClassThaw

variable {before after : ClassFile}

theorem Script.done_bind {α β : Type} {value : α} {next : α → Script β} :
    (Script.done value >>= next) = next value := rfl

/-- All tests of the tool that checks revised classes pass if the class is sound and settled. -/
theorem Tool.examine_eq {settings : Settings} {className : String} {bytes : Bytes}
    {file : ClassFile} {reported : Array Event} (hparse : ClassFile.parse bytes = .ok file)
    (hcheck : file.check = .ok ()) (hserialize : file.serialize = .ok bytes)
    (hagain : Gives (settings.revise className bytes) #[] .unchanged reported) :
    Tool.examine settings className bytes =
      (Script.reportAll reported.toList).andThen fun _ => Script.line "ok" := by
  have hrun : (settings.revise className bytes).run.run #[] = (.ok .unchanged, reported) := hagain
  simp only [Tool.examine, hparse, hcheck, hserialize, hrun, Tool.orFail, Script.done_bind]
  rw [if_neg (not_not_intro rfl)]
  rfl

namespace ClassFile

/-- The enum rule leaves alone what it has made. -/
theorem EnumOutcome.again {patch : EnumPatch} (hsound : before.pool.Sound)
    (hcheck : before.check = .ok ()) (hcheck' : after.check = .ok ())
    (h : before.EnumOutcome patch after) : after.EnumOutcome {} after := by
  obtain ⟨_, hrevised⟩ := h.isRevised hsound
  have hsame := hrevised.enumShape_eq hcheck hcheck'
  cases h with
  | notEnum hshape => exact .notEnum hshape
  | leftAlone hshape => exact .leftAlone hshape
  | opened hshape hopens => exact .opened (hsame.trans hshape) (hopens.again hsound hcheck)

end ClassFile

namespace Settings

variable {settings : Settings} {className : String} {mutations : Mutations}

/-- The holder rule selects nothing of what both rules have made. -/
theorem Revises.selects_eq_false (hsound : before.pool.Sound) (hcheck : before.check = .ok ())
    (h : settings.Revises className before mutations after) :
    ∀ field ∈ after.fields, settings.selects className after field = false := by
  obtain ⟨appended?, hthawed⟩ := h.isRevised_thaw hsound
  obtain ⟨_, hframe, -⟩ := h.isRevised hsound
  -- The holder rule has settled each field, and the enum rule can only have thawed one more.
  have hsettles := forall₂_comp (HolderRules.forall₂_settles_thaw _ className before)
    hthawed.1.fields fun _ _ _ => HolderRules.Settles.of_mayThaw
  exact HolderRules.selects_of_settles (hframe.annotationDescriptors_eq hcheck)
    (hframe.forall₂_alike_fields hcheck) hsettles

/-- Both rules leave alone what they have made. -/
theorem Revises.again (hsound : before.pool.Sound) (hcheck : before.check = .ok ())
    (hcheck' : after.check = .ok ()) (h : settings.Revises className before mutations after) :
    settings.Revises className after {} after := by
  have hnone := h.selects_eq_false hsound hcheck
  have hself := HolderRules.thaw_eq_self hnone
  constructor
  · refine (List.countP_eq_zero.mpr ?_).symm
    intro field hfield
    exact Bool.eq_false_iff.mp (hnone field hfield)
  · rw [hself]
    have houtcome := h.enumPatch
    split at houtcome
    case isTrue hopen =>
      have hpool : (settings.thaw className before).pool.Sound := hsound
      have hthawed := (HolderRules.frame_thaw settings.toHolderRules className before).check hcheck
      rw [if_pos hopen]
      exact houtcome.again hpool hthawed hcheck'
    case isFalse hopen =>
      rw [if_neg hopen]
      exact ⟨rfl, rfl⟩

/-- A revised class is sound, and revising it again changes nothing, so that no test of the tool
that checks revised classes can fail. -/
theorem revise_again {bytes revised : Bytes} {log reported : Array Event}
    (h : Gives (settings.revise className bytes) log (.modified revised mutations) reported) :
    (∃ after, ClassFile.parse revised = .ok after ∧ after.check = .ok () ∧
      after.serialize = .ok revised) ∧
    (∀ log, ∃ reported, Gives (settings.revise className revised) log .unchanged reported) ∧
    ∃ events, Tool.examine settings className revised =
      (Script.reportAll events).andThen fun _ => Script.line "ok" := by
  obtain ⟨before, after, _, hparse, hparse', -, hrevises, -⟩ := exists_of_gives_modified h
  have hsound := ConstantPool.sound_of_parse hparse
  have hcheck := ClassFile.check_of_parse hparse
  have hserialize := (ClassFile.parse_eq_ok_iff.mp hparse').2.2
  have hcheck' := ClassFile.check_of_parse hparse'
  -- The second run takes the same decisions, now without an edit to make.
  have hagain (log : Array Event) :
      ∃ reported, Gives (settings.revise className revised) log .unchanged reported := by
    obtain ⟨reported, happly⟩ : ∃ reported,
        Gives (settings.apply className) ⟨after, log⟩ {} ⟨after, reported⟩ :=
      (gives_apply hcheck').mpr (hrevises.again hsound hcheck hcheck')
    obtain ⟨_, hconclude⟩ :=
      @exists_gives_conclude_of_isEmpty className {} after settings.debug rfl reported
    exact ⟨_, gives_revise.mpr ⟨after, {}, _, hparse', happly, hconclude⟩⟩
  refine ⟨⟨after, hparse', hcheck', hserialize⟩, hagain, ?_⟩
  obtain ⟨reported, hsecond⟩ := hagain #[]
  exact ⟨reported.toList, Tool.examine_eq hparse' hcheck' hserialize hsecond⟩

theorem revise_again_enumSample :
    Gives (({} : Settings).revise "E" enumSampleBytes) #[]
      (.modified openedSampleBytes
        { enumPatch := { valuesOpened := true, constructorsOpened := 1, appendAdded := true } })
      #[.enumOpened "E"] ∧
    (∃ after, ClassFile.parse openedSampleBytes = .ok after ∧ after.check = .ok () ∧
      after.serialize = .ok openedSampleBytes) ∧
    (∀ log, ∃ reported,
      Gives (({} : Settings).revise "E" openedSampleBytes) log .unchanged reported) ∧
    ∃ events, Tool.examine {} "E" openedSampleBytes =
      (Script.reportAll events).andThen fun _ => Script.line "ok" :=
  ⟨gives_revise_enumSample, revise_again gives_revise_enumSample⟩

end Settings

end ClassThaw
