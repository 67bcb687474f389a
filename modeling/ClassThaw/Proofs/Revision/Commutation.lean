import ClassThaw.Proofs.EnumRule.Agreement
import ClassThaw.Proofs.Revision.Count

namespace ClassThaw

namespace ClassFile

variable {file after : ClassFile}

/-- Flags do not matter to the check, whether it passes or not. -/
theorem check_thawWhere (file : ClassFile) (thaws : Field → Bool) :
    (file.thawWhere thaws).check = file.check := by
  have hfields : (file.thawWhere thaws).fields.forM (·.check (file.thawWhere thaws).pool) =
      file.fields.forM (·.check file.pool) := by
    apply forM_map_eq
    intro field
    split
    · exact (Member.reflagged_thawed field).check_eq
    · rfl
  rw [check, check, hfields]
  rfl

/-- A field at the position is thawed in the end, whether it has been thawed before or not. -/
theorem withOpenMembers_thawWhere (file : ClassFile) (thaws : Field → Bool) (position : Nat) :
    (file.thawWhere thaws).withOpenMembers position =
      (file.withOpenMembers position).thawWhere thaws := by
  have hfields : (file.thawWhere thaws).fields.modify position Member.thawed =
      ((file.withOpenMembers position).thawWhere thaws).fields := by
    apply modify_map
    intro field
    split <;> split <;> simp only [Member.thawed_thawed]
  rw [withOpenMembers, hfields]
  rfl

/-- The enum rule does not see which fields have been thawed. -/
theorem indistinct_thawWhere (thaws : Field → Bool) :
    Indistinct fun file file' => file' = file.thawWhere thaws where
  name := by
    rintro file _ rfl
    rfl
  pool := by
    rintro file _ rfl
    rfl
  check := by
    rintro file _ rfl
    exact check_thawWhere file thaws
  lacksAppend := by
    rintro file _ rfl className
    rfl
  fields := by
    rintro file _ rfl
    refine List.forall₂_map_right_iff.mpr (List.forall₂_same.mpr ?_)
    intro field _
    split <;> exact ⟨rfl, rfl⟩
  withOpenMembers := by
    rintro file _ rfl position
    exact withOpenMembers_thawWhere file thaws position
  append := by
    rintro file _ rfl className name descriptor method pool _
    rfl

theorem thawWhere_congr {thaws thaws' : Field → Bool}
    (h : ∀ field ∈ file.fields, thaws' field = thaws field) :
    file.thawWhere thaws' = file.thawWhere thaws := by
  have hfields : (file.thawWhere thaws').fields = (file.thawWhere thaws).fields := by
    apply List.map_congr_left
    intro field hfield
    rw [h field hfield]
  exact congrArg (fun fields => { file with fields }) hfields

end ClassFile

namespace HolderRules

variable {rules : HolderRules} {className : String} {file after : ClassFile}

/-- In a revised class the rule decides on every field as in the class before. -/
theorem selects_eq {appended? : Option Method} (hframe : file.Frame appended? after)
    (hcheck : file.check = .ok ()) :
    ∀ field ∈ after.fields,
      rules.selects className after field = rules.selects className file field := by
  intro field hfield
  have hcovers : rules.covers className after = rules.covers className file :=
    covers_congr (hframe.annotationDescriptors_eq hcheck) (hframe.forall₂_alike_fields hcheck)
  -- The field has the attributes of a field of the class before.
  obtain ⟨original, horiginal, hmay⟩ := exists_mem_of_forall₂ hframe.fields hfield
  have hchecked : field.check file.pool = .ok () := by
    rw [hmay.reflagged.check_eq]
    exact (ClassFile.check_eq_ok_iff.mp hcheck).2.fields original horiginal
  have halike := (Member.Reflagged.refl field).alike hframe.pool hchecked
  rw [selects, selects, thaws, thaws, hcovers, carries_congr halike]

/-- The holder rule, and the enum rule after it. -/
def thawThenOpen (rules : HolderRules) (debug : Bool) (className : String) : Edit Mutations := do
  let holderFields ← rules.thawFields debug className
  let enumPatch ← openEnum debug
  return { holderFields, enumPatch }

/-- The enum rule, and the holder rule after it. -/
def openThenThaw (rules : HolderRules) (debug : Bool) (className : String) : Edit Mutations := do
  let enumPatch ← openEnum debug
  let holderFields ← rules.thawFields debug className
  return { holderFields, enumPatch }

/-- Whichever rule thaws a field first, the counts of both rules add up to the same. -/
theorem total_eq_of_thaw {patch patch' : EnumPatch}
    (hcheck : file.check = .ok ()) (h : file.EnumOutcome patch after)
    (h' : (rules.thaw className file).EnumOutcome patch' (rules.thaw className after)) :
    after.fields.countP (rules.selects className after) + patch.total =
      file.fields.countP (rules.selects className file) + patch'.total := by
  have hthaw := frame_thaw rules className file
  obtain ⟨_, hframe⟩ := h.exists_frame
  obtain ⟨_, hframe'⟩ := h'.exists_frame
  have hfirst := hthaw.changed_fields_trans hframe'
  have hlast := hframe.changed_fields_trans (frame_thaw rules className after)
  rw [Settings.changed_thaw] at hfirst hlast
  have hpatch := h.changes_eq hcheck
  have hpatch' := h'.changes_eq (hthaw.check hcheck)
  -- The holder rule leaves the methods alone, so that they change once in either order.
  have hmethods : (rules.thaw className file).methods = file.methods := rfl
  have hmethods' : (rules.thaw className after).methods = after.methods := rfl
  rw [ClassFile.changes] at hpatch hpatch'
  rw [hmethods, hmethods'] at hpatch'
  omega

/-- On a class that passes its check, the two rules come to the same in either order: they fail with
the same error, or make the same class of it and count as many edits in all. -/
theorem agree_openThenThaw (rules : HolderRules) (debug : Bool) (className : String)
    (log : Array Event) (hcheck : file.check = .ok ()) :
    Agree (rules.thawThenOpen debug className) ⟨file, log⟩
      (rules.openThenThaw debug className) ⟨file, log⟩
      fun mutations after mutations' after' =>
        after'.file = after.file ∧ mutations'.total = mutations.total := by
  obtain ⟨events, -, hthaw⟩ := @gives_thawFields rules debug className ⟨file, log⟩ hcheck
  have hframe := frame_thaw rules className file
  have hshape : (rules.thaw className file).enumShape = file.enumShape := by
    apply hframe.enumShape_eq hcheck (hframe.check hcheck)
    intro method hmethod
    cases hmethod
  -- The enum rule is run on the class itself in one order, and on the thawed class in the other.
  have hopen := @Indistinct.agree_openEnum ⟨file, log⟩
    ⟨rules.thaw className file, log ++ events⟩ _
    debug
    (ClassFile.indistinct_thawWhere (rules.selects className file)) rfl hshape
  rcases hopen with ⟨patch, after, patch', after', hgives, hgives', hafter, -⟩ |
    ⟨error, hfails, hfails'⟩
  · have houtcome := enumOutcome_of_gives hgives
    have houtcome' := enumOutcome_of_gives hgives'
    obtain ⟨_, hframe'⟩ := houtcome.exists_frame
    have hsame : after'.file = rules.thaw className after.file :=
      hafter.trans (ClassFile.thawWhere_congr (selects_eq hframe' hcheck)).symm
    obtain ⟨events', -, hthaw'⟩ := gives_thawFields rules debug className (houtcome.check hcheck)
    refine .inl ⟨⟨file.fields.countP (rules.selects className file), patch'⟩, after',
      ⟨after.file.fields.countP (rules.selects className after.file), patch⟩,
      ⟨rules.thaw className after.file, after.log ++ events'⟩, ?_, ?_, hsame.symm, ?_⟩
    · exact (gives_bind_of hthaw).mpr ((gives_bind_of hgives').mpr (gives_pure.mpr ⟨rfl, rfl⟩))
    · exact (gives_bind_of hgives).mpr ((gives_bind_of hthaw').mpr (gives_pure.mpr ⟨rfl, rfl⟩))
    · rw [hsame] at houtcome'
      rw [Mutations.total_eq, Mutations.total_eq]
      exact total_eq_of_thaw hcheck houtcome houtcome'
  · exact .inr ⟨error, (fails_bind_of hthaw).mpr hfails'.bind, hfails.bind⟩

/-- All fields of the sample are holders, so that both rules would thaw its array of values. The one
that comes first counts it. -/
theorem agree_openThenThaw_enumSample : ∃ rules : HolderRules, enumSample.check = .ok () ∧
    ((rules.thawThenOpen true "E").on enumSample #[]).1 = .ok
      { holderFields := 1
        enumPatch := { valuesOpened := false, constructorsOpened := 1, appendAdded := true } } ∧
    ((rules.openThenThaw true "E").on enumSample #[]).1 = .ok
      { holderFields := 0
        enumPatch := { valuesOpened := true, constructorsOpened := 1, appendAdded := true } } ∧
    Agree (rules.thawThenOpen true "E") ⟨enumSample, #[]⟩
      (rules.openThenThaw true "E") ⟨enumSample, #[]⟩
      fun mutations after mutations' after' =>
        after'.file = after.file ∧ mutations'.total = mutations.total := by
  have hcheck : enumSample.check = .ok () := by decide +kernel
  refine ⟨{ forcedClasses := ["E"] }, hcheck, ?_, ?_, ?_⟩
  · decide +kernel
  · decide +kernel
  · exact agree_openThenThaw _ true "E" #[] hcheck

end HolderRules

end ClassThaw
