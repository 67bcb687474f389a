import ClassThaw.Proofs.EnumRule.Failure
import ClassThaw.Proofs.Revision.Frame

namespace ClassThaw

variable {before after : ClassFile} {className name descriptor : String}

namespace HolderRules

variable {rules : HolderRules} {requested : String}

theorem isOpenable_of_thaw (hsound : before.pool.Sound) (hcheck : before.check = .ok ())
    (h : (rules.thaw requested before).IsOpenable className name descriptor) :
    before.IsOpenable className name descriptor := by
  have hsame := Settings.enumShape_thaw rules requested hsound hcheck
  obtain ⟨position, constructors, field, hshape, hname, hfield, hnameText, hdescriptor⟩ := h
  obtain ⟨original, horiginal, hreflagged⟩ := exists_field_of_thaw hfield
  rw [Member.nameText, hreflagged.name] at hnameText
  rw [Member.descriptorText, hreflagged.descriptor] at hdescriptor
  exact ⟨position, constructors, original, hsame.symm.trans hshape, hname, horiginal, hnameText,
    hdescriptor⟩

/-- The holder rule does not matter to what there is to open. -/
theorem isOpenable_thaw_iff (hsound : before.pool.Sound) (hcheck : before.check = .ok ()) :
    (rules.thaw requested before).IsOpenable className name descriptor ↔
      before.IsOpenable className name descriptor := by
  constructor
  · exact isOpenable_of_thaw hsound hcheck
  · intro hopenable
    obtain ⟨position, constructors, _, hshape, -⟩ := id hopenable
    have hsame := Settings.enumShape_thaw rules requested hsound hcheck
    have hchecked := (frame_thaw rules requested before).check hcheck
    -- The class after the rule has something to open, which can only be the same.
    obtain ⟨_, _, _, _, -, -, -, -, hthawed⟩ :=
      ClassFile.exists_isOpenable hchecked (hsame.trans hshape)
    obtain ⟨rfl, rfl, rfl⟩ := hopenable.unique (isOpenable_of_thaw hsound hcheck hthawed)
    exact hthawed

end HolderRules

namespace Settings

variable {settings : Settings} {mutations : Mutations}

/-- Both rules succeed on a class that passes its check, or an enum is refused. -/
theorem gives_or_fails_apply (settings : Settings) (requested : String) {work : Workpiece}
    (hcheck : work.file.check = .ok ()) (hsound : work.file.pool.Sound) :
    ((∃ mutations after, Gives (settings.apply requested) work mutations after) ∧
      (settings.openEnums = true → work.file.AdmitsOpening)) ∨
    settings.openEnums = true ∧ ¬ work.file.AdmitsOpening ∧ ∃ className name descriptor error,
      work.file.IsOpenable className name descriptor ∧
      work.file.Refuses className name descriptor error ∧
      Fails (settings.apply requested) work error := by
  obtain ⟨events, -, hthaw⟩ :=
    HolderRules.gives_thawFields settings.toHolderRules settings.debug requested hcheck
  unfold apply
  simp only [gives_bind_of hthaw, fails_bind_of hthaw, Edit.gives_report_if, Edit.fails_report_if]
  generalize (if 0 < _ then Array.push (work.log ++ events) _ else _) = reported
  cases hopen : settings.openEnums with
  | false =>
    refine .inl ⟨⟨_, _, gives_pure.mpr ⟨rfl, rfl⟩⟩, ?_⟩
    intro hon
    cases hon
  | true =>
    have hchecked :=
      (HolderRules.frame_thaw settings.toHolderRules requested work.file).check hcheck
    have hsame {className name descriptor : String} :
        (settings.thaw requested work.file).IsOpenable className name descriptor ↔
          work.file.IsOpenable className name descriptor :=
      HolderRules.isOpenable_thaw_iff hsound hcheck
    rcases @gives_or_fails_openEnum ⟨settings.thaw requested work.file, reported⟩ settings.debug
      hchecked hsound with ⟨⟨patch, after, hgives⟩, hfits⟩ |
        ⟨hnot, className, name, descriptor, error, hopenable, hrefuses, -, hfails⟩
    · refine .inl ⟨?_, ?_⟩
      · simp only [Bool.not_true, Bool.false_eq_true, if_false, gives_bind_of hgives,
          Edit.gives_report_if]
        exact ⟨_, _, gives_pure.mpr ⟨rfl, rfl⟩⟩
      · intro _ className name descriptor hopenable
        exact hfits className name descriptor (hsame.mpr hopenable)
    · have hnot' : ¬ work.file.AdmitsOpening := by
        intro hadmits
        apply hnot
        intro className name descriptor hopenable
        exact hadmits className name descriptor (hsame.mp hopenable)
      refine .inr ⟨rfl, hnot', className, name, descriptor, error, hsame.mp hopenable, ?_,
        hfails.bind⟩
      -- The methods and the pool, on which the reasons depend, are those of the class itself.
      cases hrefuses with
      | room hroom => exact .room hroom
      | reference hroom hcontradicts => exact .reference hroom hcontradicts
      | methods hroom hagrees hlacks hfull => exact .methods hroom hagrees hlacks hfull

/-- A class that passes its check and fits a file is written, or there was nothing to write. -/
theorem exists_gives_conclude {file : ClassFile} (debug : Bool) (hcheck : file.check = .ok ())
    (hfits : file.Fits) (log : Array Event) :
    ∃ revision reported, Gives (conclude debug className mutations file) log revision reported := by
  cases hempty : mutations.isEmpty with
  | true =>
    obtain ⟨reported, hunchanged⟩ := exists_gives_conclude_of_isEmpty debug hempty log
    exact ⟨_, reported, hunchanged⟩
  | false =>
    obtain ⟨revised, hserialize, -⟩ := (ClassFile.serialize_of_check hcheck).1 hfits
    have hwrite : file.write = .ok revised := (check_bind_eq_ok_iff.mp hserialize).2
    refine ⟨.modified revised mutations, log, gives_conclude.mpr ?_⟩
    rw [hempty, if_neg Bool.false_ne_true]
    exact ⟨hcheck, revised, hwrite, rfl, rfl⟩

/-- A class that has been edited and is too large for a file is refused when it is written. -/
theorem exists_fails_conclude {file : ClassFile} (debug : Bool) (hcheck : file.check = .ok ())
    (hlarge : ¬ file.Fits) (hedited : mutations.isEmpty = false) (log : Array Event) :
    ∃ what count,
      Fails (conclude debug className mutations file) log
        (.malformed (.limitExceeded what count)) := by
  obtain ⟨what, count, -, hserialize⟩ := (ClassFile.serialize_of_check hcheck).2 hlarge
  rw [ClassFile.serialize, hcheck, ok_bind] at hserialize
  refine ⟨what, count, ?_⟩
  rw [Fails, conclude, hedited, hcheck, hserialize]
  rfl

/-- What edits have been made to a class that has been read passes its check, and fits a file unless
the class had as many methods as it can have. -/
theorem Revises.fits_iff {bytes : Bytes} (hparse : ClassFile.parse bytes = .ok before)
    (h : settings.Revises className before mutations after) :
    after.check = .ok () ∧ (after.Fits ↔ after.methods.length < 0x10000) := by
  have hsound := ConstantPool.sound_of_parse hparse
  have hcheck := ClassFile.check_of_parse hparse
  obtain ⟨appended?, hframe, hpool, happended⟩ := h.isRevised hsound
  refine ⟨hframe.check_append hcheck hpool.check ?_,
    hframe.fits_iff (ClassFile.fits_of_parse hparse) hpool.size_lt ?_⟩
  · intro method hmethod
    obtain ⟨_, _, _, happend⟩ := happended method hmethod
    exact happend.check
  · intro method hmethod
    obtain ⟨_, _, _, happend⟩ := happended method hmethod
    exact happend.fits

/-- Where the rules fail, so does the revision, and what has been reported by then is reported. -/
theorem run_revise_of_fails {bytes : Bytes} {file : ClassFile} {log : Array Event}
    {error : RevisionError} (hparse : ClassFile.parse bytes = .ok file)
    (hfails : Fails (settings.apply className) ⟨file, log⟩ error) :
    (settings.revise className bytes).run log =
      (.error error, ((settings.apply className).run ⟨file, log⟩).2.log) := by
  have hresult : ((settings.apply className).run ⟨file, log⟩).1 = .error error := hfails
  rw [run_revise_of_parse hparse, hresult]
  rfl

theorem run_revise_of_gives {bytes : Bytes} {file : ClassFile} {log : Array Event}
    {work : Workpiece} (hparse : ClassFile.parse bytes = .ok file)
    (hgives : Gives (settings.apply className) ⟨file, log⟩ mutations work) :
    (settings.revise className bytes).run log =
      (conclude settings.debug className mutations work.file).run work.log := by
  have hrun : (settings.apply className).run ⟨file, log⟩ = (.ok mutations, work) := hgives
  rw [run_revise_of_parse hparse, hrun]
  rfl

/-- A revision fails with what the rules fail with, or else when the class is written. -/
theorem fails_revise {bytes : Bytes} {file : ClassFile} {log : Array Event} {error : RevisionError}
    (hparse : ClassFile.parse bytes = .ok file) :
    Fails (settings.revise className bytes) log error ↔
      Fails (settings.apply className) ⟨file, log⟩ error ∨ ∃ mutations work,
        Gives (settings.apply className) ⟨file, log⟩ mutations work ∧
        Fails (conclude settings.debug className mutations work.file) work.log error := by
  cases hresult : ((settings.apply className).run ⟨file, log⟩).1 with
  | error cause =>
    have hfails : Fails (settings.apply className) ⟨file, log⟩ cause := hresult
    have hrevise : Fails (settings.revise className bytes) log cause :=
      congrArg Prod.fst (run_revise_of_fails hparse hfails)
    constructor
    · intro h
      exact .inl (hrevise.unique h ▸ hfails)
    · rintro (h | ⟨mutations, work, hgives, -⟩)
      · rwa [hfails.unique h]
      · exact absurd hfails hgives.not_fails
  | ok mutations =>
    have hgives : Gives (settings.apply className) ⟨file, log⟩ mutations
      ((settings.apply className).run ⟨file, log⟩).2 := gives_iff.mpr ⟨hresult, rfl⟩
    constructor
    · intro h
      rw [Fails, run_revise_of_gives hparse hgives] at h
      exact .inr ⟨mutations, _, hgives, h⟩
    · rintro (h | ⟨mutations', work, hgives', h⟩)
      · exact absurd h hgives.not_fails
      · rwa [Fails, run_revise_of_gives hparse hgives']

/-- A revision adds one method exactly if it opens an enum that lacks the method. -/
theorem Revises.length_methods (hsound : before.pool.Sound) (hcheck : before.check = .ok ())
    {requested : String} (h : settings.Revises requested before mutations after) :
    (after.methods.length = before.methods.length ∧
      (settings.openEnums = true → ∀ className name descriptor,
        before.IsOpenable className name descriptor → before.lacksAppend className = false)) ∨
    settings.openEnums = true ∧ ∃ className name descriptor,
      before.IsOpenable className name descriptor ∧ before.lacksAppend className = true ∧
      mutations.enumPatch.isEmpty = false ∧
      after.methods.length = before.methods.length + 1 := by
  have hchecked := (HolderRules.frame_thaw settings.toHolderRules requested before).check hcheck
  have hsame {className name descriptor : String} :
      (settings.thaw requested before).IsOpenable className name descriptor ↔
        before.IsOpenable className name descriptor :=
    HolderRules.isOpenable_thaw_iff hsound hcheck
  have houtcome := h.enumPatch
  split at houtcome
  case isFalse hoff =>
    refine .inl ⟨by rw [houtcome.2]; rfl, ?_⟩
    intro hon
    exact absurd hon hoff
  case isTrue hon =>
    rcases houtcome.length_methods hchecked with
      ⟨hlength, hfound⟩ | ⟨className, name, descriptor, hopenable, hlacks, hadded, hlength⟩
    · refine .inl ⟨hlength, ?_⟩
      intro _ className name descriptor hopenable
      exact hfound className name descriptor (hsame.mpr hopenable)
    · refine .inr ⟨hon, className, name, descriptor, hsame.mp hopenable, hlacks, ?_, hlength⟩
      -- The method that has been added is counted.
      rw [EnumPatch.isEmpty, beq_eq_false_iff_ne, EnumPatch.total, hadded, Bool.toNat_true]
      omega

/-- Once the rules have succeeded, a class is refused only if they have added one method too
many. -/
theorem overflows_of_fails {bytes : Bytes} {log : Array Event} {work : Workpiece}
    {error : RevisionError} (hparse : ClassFile.parse bytes = .ok before)
    (hgives : Gives (settings.apply className) ⟨before, log⟩ mutations work)
    (hfails : Fails (conclude settings.debug className mutations work.file) work.log error) :
    (∃ what count, error = .malformed (.limitExceeded what count)) ∧
      mutations.enumPatch.isEmpty = false ∧ work.file.methods.length = 65536 := by
  have hcheck := ClassFile.check_of_parse hparse
  have hrevises := (gives_apply hcheck).mp ⟨work.log, hgives⟩
  obtain ⟨hchecked, hcount⟩ := hrevises.fits_iff hparse
  have hlarge : ¬ work.file.Fits := by
    intro hfits
    obtain ⟨_, _, hgives⟩ := exists_gives_conclude settings.debug hchecked hfits work.log
    exact hgives.not_fails hfails
  have hbefore := (ClassFile.fits_of_parse hparse).methods.1
  have hafter := mt hcount.mpr hlarge
  rcases hrevises.length_methods (ConstantPool.sound_of_parse hparse) hcheck with
    ⟨hsame, -⟩ | ⟨-, _, _, _, -, -, hedited, hone⟩
  · omega
  · obtain ⟨what, count, hlimit⟩ :=
      exists_fails_conclude settings.debug hchecked hlarge (Mutations.isEmpty_eq_false hedited)
        work.log
    exact ⟨⟨what, count, hlimit.unique hfails⟩, hedited, by omega⟩

/-- A class that has been read is revised, or an enum is refused for the first reason that there
is. -/
theorem gives_or_fails_revise (settings : Settings) (requested : String) {bytes : Bytes}
    (hparse : ClassFile.parse bytes = .ok before) (log : Array Event) :
    ((∃ revision reported, Gives (settings.revise requested bytes) log revision reported) ∧
      (settings.openEnums = true → ∀ className name descriptor,
        before.IsOpenable className name descriptor →
          ¬ before.LacksRoom className name descriptor ∧
          ¬ before.pool.Contradicts className name descriptor ∧
          ¬ (before.lacksAppend className = true ∧ before.methods.length = 65535))) ∨
    settings.openEnums = true ∧ ∃ className name descriptor error,
      before.IsOpenable className name descriptor ∧
      before.Refuses className name descriptor error ∧
      Fails (settings.revise requested bytes) log error := by
  have hsound := ConstantPool.sound_of_parse hparse
  have hcheck := ClassFile.check_of_parse hparse
  rcases @gives_or_fails_apply settings requested ⟨before, log⟩ hcheck hsound with
    ⟨⟨mutations, work, hgives⟩, hfits⟩ |
    ⟨hon, -, className, name, descriptor, error, hopenable, hrefuses, hfails⟩
  · have hrevises := (gives_apply hcheck).mp ⟨work.log, hgives⟩
    obtain ⟨hchecked, hcount⟩ := hrevises.fits_iff hparse
    have hlength := hrevises.length_methods hsound hcheck
    by_cases hsmall : work.file.methods.length < 0x10000
    · obtain ⟨revision, reported, hrevision⟩ :=
        exists_gives_conclude settings.debug hchecked (hcount.mpr hsmall) work.log
      have hrevise := gives_revise.mpr ⟨before, mutations, work, hparse, hgives, hrevision⟩
      refine .inl ⟨⟨revision, reported, hrevise⟩, ?_⟩
      intro hon className name descriptor hopenable
      obtain ⟨hroom, hagrees⟩ := hfits hon className name descriptor hopenable
      refine ⟨hroom, hagrees, ?_⟩
      rintro ⟨hlacks, hfull⟩
      rcases hlength with ⟨-, hfound⟩ | ⟨-, _, _, _, -, -, -, hone⟩
      · rw [hfound hon className name descriptor hopenable] at hlacks
        cases hlacks
      · omega
    -- Only a method that has been added can be one too many.
    · have hbefore := (ClassFile.fits_of_parse hparse).methods.1
      rcases hlength with ⟨hsame, -⟩ |
        ⟨hon, className, name, descriptor, hopenable, hlacks, hedited, hone⟩
      · omega
      · obtain ⟨hroom, hagrees⟩ := hfits hon className name descriptor hopenable
        have hlarge : ¬ work.file.Fits := mt hcount.mp hsmall
        have hfull : before.methods.length = 65535 := by omega
        obtain ⟨what, count, hfails⟩ :=
          exists_fails_conclude settings.debug hchecked hlarge (Mutations.isEmpty_eq_false hedited)
            work.log
        have hrevise := (fails_revise hparse).mpr (.inr ⟨mutations, work, hgives, hfails⟩)
        exact .inr ⟨hon, className, name, descriptor, .malformed (.limitExceeded what count),
          hopenable, .methods hroom hagrees hlacks hfull, hrevise⟩
  · exact .inr ⟨hon, className, name, descriptor, error, hopenable, hrefuses,
      (fails_revise hparse).mpr (.inl hfails)⟩

/-- A class loader is handed the bytes that it has given if these cannot be revised, and the error
is the last event. -/
theorem run_deliver_of_fails {requested : String} {bytes : Bytes} {log : Array Event}
    {error : RevisionError} (h : Fails (settings.revise className bytes) log error) :
    (settings.deliver requested className (some bytes)).run log =
      (some (.given bytes), ((settings.revise className bytes).run.run log).2.push
        (.failed requested className error)) := by
  have hrevise : (settings.revise className bytes).run.run log =
      (.error error, ((settings.revise className bytes).run.run log).2) := Prod.ext h rfl
  have hkeep : (settings.reviseOrKeep requested className bytes).run log =
      (.unchanged, ((settings.revise className bytes).run.run log).2.push
        (.failed requested className error)) := run_bind_eq hrevise
  exact run_bind_eq hkeep

/-- Whatever a revision fails with, the class loader gets the bytes that it has given. -/
theorem deliver_of_fails {requested : String} {bytes : Bytes} {log : Array Event}
    {error : RevisionError} (h : Fails (settings.revise className bytes) log error) :
    ((settings.deliver requested className (some bytes)).run log).1 = some (.given bytes) :=
  congrArg Prod.fst (run_deliver_of_fails h)

/-- A class that has been read cannot be revised exactly if it is an enum that is to be opened, and
the pool lacks room for the method, a reference contradicts the array of values, or there are as
many methods as a class can have. No check of a class fails, and whatever fails, a class loader gets
the bytes that it has given. -/
theorem failure_of_revise (settings : Settings) (requested className : String) (bytes : Bytes)
    (log : Array Event) :
    (∀ file, ClassFile.parse bytes = .ok file →
      ((∃ error, Fails (settings.revise className bytes) log error) ↔
        settings.openEnums = true ∧ ∃ owner name descriptor,
          file.IsOpenable owner name descriptor ∧
          (file.LacksRoom owner name descriptor ∨ file.pool.Contradicts owner name descriptor ∨
            file.lacksAppend owner = true ∧ file.methods.length = 65535)) ∧
      ∀ error, Fails (settings.revise className bytes) log error →
        (∃ owner name descriptor, file.IsOpenable owner name descriptor ∧
          file.Refuses owner name descriptor error) ∧
        ∀ name cause, error ≠ .inconsistent name (.broken cause)) ∧
    ∀ error, Fails (settings.revise className bytes) log error →
      ((settings.deliver requested className (some bytes)).run log).1 = some (.given bytes) := by
  refine ⟨?_, fun error => deliver_of_fails⟩
  intro file hparse
  rcases gives_or_fails_revise settings className hparse log with
    ⟨⟨revision, reported, hgives⟩, hfits⟩ |
    ⟨hon, owner, name, descriptor, error, hopenable, hrefuses, hfails⟩
  · have hnever (error : RevisionError) : ¬ Fails (settings.revise className bytes) log error :=
      hgives.not_fails
    refine ⟨?_, fun error hfails => absurd hfails (hnever error)⟩
    constructor
    · rintro ⟨error, hfails⟩
      exact absurd hfails (hnever error)
    · rintro ⟨hon, owner, name, descriptor, hopenable, hreason⟩
      obtain ⟨hroom, hagrees, hcount⟩ := hfits hon owner name descriptor hopenable
      rcases hreason with h | h | h
      · exact absurd h hroom
      · exact absurd h hagrees
      · exact absurd h hcount
  · constructor
    · refine iff_of_true ⟨error, hfails⟩ ⟨hon, owner, name, descriptor, hopenable, ?_⟩
      cases hrefuses with
      | room hroom => exact .inl hroom
      | reference _ hcontradicts => exact .inr (.inl hcontradicts)
      | methods _ _ hlacks hfull => exact .inr (.inr ⟨hlacks, hfull⟩)
    · intro error' hfails'
      obtain rfl := hfails.unique hfails'
      refine ⟨⟨owner, name, descriptor, hopenable, hrefuses⟩, ?_⟩
      rintro name' cause rfl
      cases hrefuses

/-- The enum with a reference that takes its array of values for something else. -/
def contradictingSampleBytes : Bytes :=
  [0xCA, 0xFE, 0xBA, 0xBE, 0, 0, 0, 52, 0, 11, 1, 0, 1, 69, 7, 0, 1, 1, 0, 7, 36, 86, 65, 76, 85,
    69, 83, 1, 0, 4, 91, 76, 69, 59, 1, 0, 6, 60, 105, 110, 105, 116, 62, 1, 0, 3, 40, 41, 86, 5,
    0, 0, 0, 0, 0, 0, 0, 7, 12, 0, 3, 0, 6, 9, 0, 2, 0, 9, 0x40, 0x30, 0, 2, 0, 0, 0, 0, 0, 1,
    0x10, 0x1A, 0, 3, 0, 4, 0, 0, 0, 1, 0x80, 2, 0, 5, 0, 6, 0, 0, 0, 1, 0, 1, 0, 0, 0, 3, 1, 2, 3]

theorem failure_of_revise_contradictingSample :
    (∃ file, ClassFile.parse contradictingSampleBytes = .ok file ∧
      ∃ owner name descriptor, file.IsOpenable owner name descriptor ∧
        file.Refuses owner name descriptor
          (.inconsistent "E" (.fieldType 10 "$VALUES" "()V" "[LE;"))) ∧
    Fails (({} : Settings).revise "E" contradictingSampleBytes) #[]
      (.inconsistent "E" (.fieldType 10 "$VALUES" "()V" "[LE;")) ∧
    ((({} : Settings).deliver "E" "E" (some contradictingSampleBytes)).run #[]).1 =
      some (.given contradictingSampleBytes) := by
  have hfails : Fails (({} : Settings).revise "E" contradictingSampleBytes) #[]
      (.inconsistent "E" (.fieldType 10 "$VALUES" "()V" "[LE;")) := by
    unfold Fails
    decide +kernel
  have hreads : (ClassFile.parse contradictingSampleBytes).toOption.isSome = true := by
    decide +kernel
  obtain ⟨hparsed, hdelivered⟩ :=
    failure_of_revise {} "E" "E" contradictingSampleBytes #[]
  cases hparse : ClassFile.parse contradictingSampleBytes with
  | error error =>
    rw [hparse] at hreads
    cases hreads
  | ok file =>
    obtain ⟨-, herror⟩ := hparsed file hparse
    exact ⟨⟨file, rfl, (herror _ hfails).1⟩, hfails, hdelivered _ hfails⟩

end Settings

end ClassThaw
