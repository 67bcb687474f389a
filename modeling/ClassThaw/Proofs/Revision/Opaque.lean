import ClassThaw.Proofs.ClassFile.Outline
import ClassThaw.Proofs.EnumRule.Agreement
import ClassThaw.Proofs.Revision.Failure
import ClassThaw.Proofs.Revision.Independence

/-! The rules run in step on two classes of the same outline: what they look up in one they find in
the other, and what they change in one they change in the other. -/

namespace ClassThaw

variable {work work' : Workpiece} {added : Nat}

namespace ClassFile

/-- Classes in order that differ only in content that is carried along, and not even in that in
their methods from a place on. -/
structure SameOutline (added : Nat) (file file' : ClassFile) : Prop where
  outline : file'.outline = file.outline
  appended : file'.methods.drop added = file.methods.drop added
  le : added ≤ file.methods.length
  sound : file.pool.Sound
  check : file.check = .ok ()
  check' : file'.check = .ok ()

variable {file file' : ClassFile}

theorem length_methods_eq_of_outline (h : file'.outline = file.outline) :
    file'.methods.length = file.methods.length := by
  have hmethods : file'.methods.map Member.outline = file.methods.map Member.outline :=
    congrArg ClassFile.methods h
  rw [← List.length_map, hmethods, List.length_map]

namespace SameOutline

theorem pool_eq (h : file.SameOutline added file') : file'.pool = file.pool := by
  have hpool : file'.outline.pool = file.outline.pool := congrArg ClassFile.pool h.outline
  exact hpool

theorem withOpenMembers (h : file.SameOutline added file') (position : Nat) :
    (file.withOpenMembers position).SameOutline added (file'.withOpenMembers position) where
  outline := by rw [← withOpenMembers_outline, h.outline, withOpenMembers_outline]
  appended := by
    simp only [ClassFile.withOpenMembers, ← List.map_drop, h.appended, h.pool_eq]
  le := by
    rw [ClassFile.withOpenMembers, List.length_map]
    exact h.le
  sound := h.sound
  check := (frame_withOpenMembers file position).check h.check
  check' := (frame_withOpenMembers file' position).check h.check'

theorem append (h : file.SameOutline added file') {className name descriptor : String}
    {method : Method} {pool : ConstantPool}
    (hgives : Gives (appendMethod className name descriptor) file.pool method pool) :
    { file with pool, methods := file.methods ++ [method] }.SameOutline added
      { file' with pool, methods := file'.methods ++ [method] } := by
  -- The pools are the same, so it is one method, with one body, that is added to both classes.
  have happend := isAppendMethod_of_gives h.sound hgives
  obtain ⟨-, rfl⟩ := gives_iff.mp hgives
  obtain ⟨hsound, hgrows, -⟩ :=
    adds_appendMethod className name descriptor file.pool h.sound trivial
  constructor
  · rw [outline_append, outline_append, h.outline]
  · have hle : added ≤ file'.methods.length :=
      h.le.trans_eq (length_methods_eq_of_outline h.outline).symm
    rw [List.drop_append_of_le_length hle, List.drop_append_of_le_length h.le, h.appended]
  · exact h.le.trans (List.length_append ▸ Nat.le_add_right _ _)
  · exact hsound
  · exact check_append h.check hgrows hsound.check happend.check
  · exact check_append h.check' (h.pool_eq ▸ hgrows) hsound.check happend.check

theorem thaw (h : file.SameOutline added file') (rules : HolderRules) (className : String) :
    (rules.thaw className file).SameOutline added (rules.thaw className file') where
  outline := by rw [← HolderRules.thaw_outline, h.outline, HolderRules.thaw_outline]
  appended := h.appended
  le := h.le
  sound := h.sound
  check := (HolderRules.frame_thaw rules className file).check h.check
  check' := (HolderRules.frame_thaw rules className file').check h.check'

end SameOutline

/-- The enum rule does not see content that is only carried along. -/
theorem indistinct_sameOutline (added : Nat) : Indistinct (SameOutline added) where
  name := by
    intro file file' h
    have hname : file'.outline.name = file.outline.name := congrArg ClassFile.name h.outline
    exact hname
  pool h := h.pool_eq
  check h := h.check'.trans h.check.symm
  lacksAppend h className := by
    rw [← lacksAppend_outline, h.outline, lacksAppend_outline]
  fields := by
    intro file file' h
    have houtlines : List.Forall₂ Eq (file.fields.map Member.outline)
        (file'.fields.map Member.outline) := by
      rw [List.forall₂_eq_eq_eq]
      exact congrArg ClassFile.fields h.outline.symm
    rw [List.forall₂_map_left_iff, List.forall₂_map_right_iff] at houtlines
    refine houtlines.imp ?_
    intro field field' hsame
    have hname : field'.outline.name = field.outline.name := congrArg Member.name hsame.symm
    have hdescriptor : field'.outline.descriptor = field.outline.descriptor :=
      congrArg Member.descriptor hsame.symm
    exact ⟨hname, hdescriptor⟩
  withOpenMembers h position := h.withOpenMembers position
  append h _ _ _ _ _ hgives := h.append hgives

end ClassFile

open ClassFile

theorem HolderRules.agree_thawFields (rules : HolderRules) (debug : Bool) (className : String)
    (h : work.file.SameOutline added work'.file) :
    Agree (rules.thawFields debug className) work (rules.thawFields debug className) work'
      fun count after count' after' =>
        count' = count ∧ after.file.SameOutline added after'.file := by
  obtain ⟨_, -, hgives⟩ := gives_thawFields rules debug className h.check
  obtain ⟨_, -, hgives'⟩ := gives_thawFields rules debug className h.check'
  refine .inl ⟨_, _, _, _, hgives, hgives', ?_, h.thaw rules className⟩
  rw [← countP_selects_outline, h.outline, countP_selects_outline]

/-- The enum rule opens the same in classes of the same outline. -/
theorem agree_openEnum_of_sameOutline (debug : Bool) (h : work.file.SameOutline added work'.file) :
    Agree (openEnum debug) work (openEnum debug) work' fun patch after patch' after' =>
      patch' = patch ∧ after.file.SameOutline added after'.file := by
  have hshape : work'.file.enumShape = work.file.enumShape := by
    rw [← enumShape_outline, h.outline, enumShape_outline]
  apply ((indistinct_sameOutline added).agree_openEnum debug h hshape).weaken
  rintro patch after patch' after' ⟨hafter, hpatch⟩
  refine ⟨hpatch ?_, hafter⟩
  intro position appendAdded
  rw [← openPatch_outline, h.outline, openPatch_outline]

namespace Settings

variable {settings : Settings} {className : String} {mutations : Mutations}

/-- Both rules do the same to classes of the same outline, and count the same. -/
theorem agree_apply (settings : Settings) (className : String)
    (h : work.file.SameOutline added work'.file) :
    Agree (settings.apply className) work (settings.apply className) work'
      fun mutations after mutations' after' =>
        mutations' = mutations ∧ after.file.SameOutline added after'.file := by
  unfold apply
  apply (settings.agree_thawFields settings.debug className h).bind
  rintro holderFields after _ after' ⟨rfl, hthawed⟩
  rw [Edit.agree_report_if]
  split
  case isTrue => exact agree_pure ⟨rfl, hthawed⟩
  case isFalse =>
    -- What has been reported by now is not compared, so the rule has to agree after any events.
    have hopen (log log' : Array Event) :=
      @agree_openEnum_of_sameOutline ⟨after.file, log⟩ ⟨after'.file, log'⟩ added settings.debug
        hthawed
    apply (hopen _ _).bind
    rintro enumPatch last _ last' ⟨rfl, hlast⟩
    rw [Edit.agree_report_if]
    exact agree_pure ⟨rfl, hlast⟩

variable {bytes bytes' : Bytes} {before before' : ClassFile}

theorem outcome_of_fails {error : RevisionError} (hparse : ClassFile.parse bytes = .ok before)
    (hfails : Fails (settings.apply className) ⟨before, #[]⟩ error) :
    settings.outcome className bytes = .error error :=
  congrArg Prod.fst (run_revise_of_fails hparse hfails)

section conclusions

variable (hparse : ClassFile.parse bytes = .ok before)
  (hgives : Gives (settings.apply className) ⟨before, #[]⟩ mutations work)

include hparse hgives

theorem outcome_of_gives : settings.outcome className bytes =
    ((conclude settings.debug className mutations work.file).run work.log).1 :=
  congrArg Prod.fst (run_revise_of_gives hparse hgives)

/-- Where the rules have changed nothing, neither have the bytes. -/
theorem outcome_of_isEmpty (hempty : mutations.isEmpty = true) :
    settings.outcome className bytes = .ok .unchanged := by
  obtain ⟨_, hconclude⟩ := exists_gives_conclude_of_isEmpty settings.debug hempty work.log
  rw [outcome_of_gives hparse hgives]
  exact (gives_iff.mp hconclude).1

/-- A class that has been edited is written, and read back from what has been written. -/
theorem outcome_of_lt_length_methods (hedited : mutations.isEmpty = false)
    (hfew : work.file.methods.length < 0x10000) :
    ∃ revised, ClassFile.parse revised = .ok work.file ∧
      settings.outcome className bytes = .ok (.modified revised mutations) := by
  have hrevises := (gives_apply (ClassFile.check_of_parse hparse)).mp ⟨work.log, hgives⟩
  obtain ⟨hcheck, hfits⟩ := hrevises.fits_iff hparse
  obtain ⟨revised, hserialize, -⟩ := (ClassFile.serialize_of_check hcheck).1 (hfits.mpr hfew)
  have hwrite : work.file.write = .ok revised := (check_bind_eq_ok_iff.mp hserialize).2
  refine ⟨revised, hrevises.parse_of_write hparse hcheck hwrite, ?_⟩
  have hconclude : Gives (conclude settings.debug className mutations work.file) work.log
      (.modified revised mutations) work.log := by
    rw [gives_conclude, hedited, if_neg Bool.false_ne_true]
    exact ⟨hcheck, revised, hwrite, rfl, rfl⟩
  rw [outcome_of_gives hparse hgives]
  exact (gives_iff.mp hconclude).1

/-- A class that has been edited and has too many methods is refused with their number. -/
theorem outcome_of_le_length_methods (hedited : mutations.isEmpty = false)
    (hmany : 0x10000 ≤ work.file.methods.length) :
    settings.outcome className bytes =
      .error (.malformed (.limitExceeded .method work.file.methods.length)) := by
  have hrevises := (gives_apply (ClassFile.check_of_parse hparse)).mp ⟨work.log, hgives⟩
  obtain ⟨hcheck, -⟩ := hrevises.fits_iff hparse
  obtain ⟨appended?, hframe, hsound, -⟩ :=
    hrevises.isRevised (ConstantPool.sound_of_parse hparse)
  -- The writer has come as far as the methods, as all that stands before them fits.
  have hfits := hframe.fits_without_methods (ClassFile.fits_of_parse hparse) hsound.size_lt
  have hwrite := ClassFile.write_of_le_length_methods hfits hmany
  rw [outcome_of_gives hparse hgives, conclude, hedited, hcheck, hwrite]
  rfl

end conclusions

/-- Two revisions of the same kind: they fail with the same error, change nothing, or make the same
edits, and then each file differs from the class that it has been made of in flags and in the same
method behind the others, and both differ from each other only in content that is carried along. -/
inductive SameKind (before before' : ClassFile) :
    Except RevisionError Revision → Except RevisionError Revision → Prop
  | failed (error : RevisionError) : SameKind before before' (.error error) (.error error)
  | unchanged : SameKind before before' (.ok .unchanged) (.ok .unchanged)
  | modified {revised revised' : Bytes} {mutations : Mutations} {after after' : ClassFile}
      {appended? : Option Method}
      (parse : ClassFile.parse revised = .ok after) (parse' : ClassFile.parse revised' = .ok after')
      (frame : before.Frame appended? after) (frame' : before'.Frame appended? after')
      (outline : after'.outline = after.outline) :
      SameKind before before' (.ok (.modified revised mutations))
        (.ok (.modified revised' mutations))

/-- Content that is only carried along does not influence a revision, whatever its length is. -/
theorem sameKind_outcome (settings : Settings) (className : String)
    (hparse : ClassFile.parse bytes = .ok before)
    (hparse' : ClassFile.parse bytes' = .ok before') (h : before'.outline = before.outline) :
    SameKind before before' (settings.outcome className bytes)
      (settings.outcome className bytes') := by
  have hlength := length_methods_eq_of_outline h
  -- Nothing has been added yet, and whatever will be added is to be the same in both.
  have hsame : before.SameOutline before.methods.length before' :=
    { outline := h
      appended := by rw [List.drop_length, ← hlength, List.drop_length]
      le := le_rfl
      sound := ConstantPool.sound_of_parse hparse
      check := ClassFile.check_of_parse hparse
      check' := ClassFile.check_of_parse hparse' }
  rcases @agree_apply ⟨before, #[]⟩ ⟨before', #[]⟩ _ settings className hsame with
    ⟨_, after, mutations, after', hgives, hgives', rfl, hafter⟩ | ⟨error, hfails, hfails'⟩
  · have hlengths := length_methods_eq_of_outline hafter.outline
    cases hempty : mutations.isEmpty with
    | true =>
      rw [outcome_of_isEmpty hparse hgives hempty, outcome_of_isEmpty hparse' hgives' hempty]
      exact .unchanged
    | false =>
      by_cases hfew : after.file.methods.length < 0x10000
      · obtain ⟨revised, hrevised, hmodified⟩ :=
          outcome_of_lt_length_methods hparse hgives hempty hfew
        obtain ⟨revised', hrevised', hmodified'⟩ :=
          outcome_of_lt_length_methods hparse' hgives' hempty (hlengths ▸ hfew)
        obtain ⟨appended?, hframe, -⟩ := ((gives_apply hsame.check).mp ⟨_, hgives⟩).isRevised
          (ConstantPool.sound_of_parse hparse)
        obtain ⟨appended?', hframe', -⟩ := ((gives_apply hsame.check').mp ⟨_, hgives'⟩).isRevised
          (ConstantPool.sound_of_parse hparse')
        -- The methods behind the old ones are the same in both.
        obtain rfl : appended?' = appended? := by
          rw [← hframe.getElem?_methods, ← hframe'.getElem?_methods, hlength, ← List.head?_drop,
            ← List.head?_drop, hafter.appended]
        rw [hmodified, hmodified']
        exact .modified hrevised hrevised' hframe hframe' hafter.outline
      · have hmany := Nat.not_lt.mp hfew
        rw [outcome_of_le_length_methods hparse hgives hempty hmany,
          outcome_of_le_length_methods hparse' hgives' hempty (hlengths ▸ hmany), hlengths]
        exact .failed _
  · rw [outcome_of_fails hparse hfails, outcome_of_fails hparse' hfails']
    exact .failed error

/-- The sample with other and longer content in its attribute. -/
def longSample : ClassFile := { enumSample with attributes := [.raw 1 [9, 8, 7, 6, 5, 4]] }

def longSampleBytes : Bytes :=
  enumSampleBytes.take (enumSampleBytes.length - 4) ++ [6, 9, 8, 7, 6, 5, 4]

/-- Both samples are opened, and both come out with the attribute that they came with. -/
theorem sameKind_outcome_longSample : ∃ revised revised' mutations,
    ClassFile.parse enumSampleBytes = .ok enumSample ∧
    ClassFile.parse longSampleBytes = .ok longSample ∧
    longSample.outline = enumSample.outline ∧
    ({} : Settings).outcome "E" enumSampleBytes = .ok (.modified revised mutations) ∧
    ({} : Settings).outcome "E" longSampleBytes = .ok (.modified revised' mutations) ∧
    SameKind enumSample longSample (({} : Settings).outcome "E" enumSampleBytes)
      (({} : Settings).outcome "E" longSampleBytes) := by
  have hparse : ClassFile.parse enumSampleBytes = .ok enumSample := by decide +kernel
  have hparse' : ClassFile.parse longSampleBytes = .ok longSample := by decide +kernel
  have hsame := sameKind_outcome {} "E" hparse hparse' rfl
  have hmodified : (({} : Settings).outcome "E" enumSampleBytes).toOption.any
      Revision.isModified = true := by
    decide +kernel
  -- Only in the last case has the first sample been changed.
  generalize hfirst : ({} : Settings).outcome "E" enumSampleBytes = first at hsame hmodified
  generalize hsecond : ({} : Settings).outcome "E" longSampleBytes = second at hsame
  cases id hsame with
  | failed error => cases hmodified
  | unchanged => cases hmodified
  | modified => exact ⟨_, _, _, hparse, hparse', rfl, rfl, rfl, hsame⟩

end Settings

end ClassThaw
