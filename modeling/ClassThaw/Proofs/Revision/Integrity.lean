import ClassThaw.Proofs.EnumRule.Halfway
import ClassThaw.Proofs.Revision.Failure

namespace ClassThaw.Settings

variable {settings : Settings} {file : ClassFile}

theorem leaves_apply (settings : Settings) (className : String) {work : Workpiece}
    (hreachable : work.file.pool.Reachable) (hcheck : work.file.check = .ok ()) :
    Leaves (settings.apply className) work fun left => work.file.Intact left.file := by
  obtain ⟨events, -, hthaw⟩ :=
    HolderRules.gives_thawFields settings.toHolderRules settings.debug className hcheck
  have hchecked := (HolderRules.frame_thaw settings.toHolderRules className work.file).check hcheck
  unfold apply
  simp only [leaves_bind_of hthaw, Edit.leaves_report_if]
  -- From here on it does not matter what has been reported.
  generalize (if 0 < _ then Array.push (work.log ++ events) _ else _) = reported
  have hthawed : work.file.Intact (settings.thaw className work.file) :=
    ⟨hreachable, hchecked, .refl work.file.pool⟩
  split
  case isTrue => exact leaves_pure hthawed
  case isFalse =>
    have hopen : Leaves (openEnum settings.debug) ⟨settings.thaw className work.file, reported⟩
        (Workpiece.Proceeds ⟨settings.thaw className work.file, reported⟩) :=
      leaves_openEnum settings.debug hreachable hchecked
    have hintact : Leaves (openEnum settings.debug) ⟨settings.thaw className work.file, reported⟩
        fun left => work.file.Intact left.file := hthawed.trans hopen.intact
    apply leaves_bind hintact
    intro patch middle _ hmiddle
    rw [Edit.leaves_report_if]
    exact leaves_pure hmiddle

/-- The class that both rules leave, whether they succeed or fail. -/
def left (settings : Settings) (className : String) (file : ClassFile) (log : Array Event) :
    ClassFile :=
  ((settings.apply className).on file log).2.file

/-- A class that passes its check passes it after both rules, even if they have failed halfway. Its
pool is still one that calls can lead to, and has in every old slot what it had there. So the class
can be written afterwards, unless it has become too large. -/
theorem intact_of_apply (settings : Settings) (className : String) (log : Array Event)
    (hreachable : file.pool.Reachable) (hcheck : file.check = .ok ()) :
    (settings.left className file log).check = .ok () ∧
    (settings.left className file log).pool.Reachable ∧
    (∀ place < file.pool.size, (settings.left className file log).pool.slots[place]? =
      file.pool.slots[place]?) ∧
    ∀ error, (settings.left className file log).serialize = .error error →
      ∃ what count, error = .limitExceeded what count := by
  have hleaves : Leaves (settings.apply className) ⟨file, log⟩ fun left => file.Intact left.file :=
    leaves_apply settings className hreachable hcheck
  obtain ⟨hreachable', hcheck', added, hslots⟩ :
      file.Intact (settings.left className file log) := hleaves
  refine ⟨hcheck', hreachable', ?_, ?_⟩
  · intro place hplace
    rw [← Array.getElem?_toList, ← Array.getElem?_toList, ← hslots]
    exact List.getElem?_append_left hplace
  · intro error herror
    have hwritten := ClassFile.serialize_of_check hcheck'
    by_cases hfits : (settings.left className file log).Fits
    · obtain ⟨bytes, hbytes, -⟩ := hwritten.1 hfits
      rw [hbytes] at herror
      cases herror
    · obtain ⟨what, count, -, hlimit⟩ := hwritten.2 hfits
      rw [hlimit] at herror
      exact ⟨what, count, (Except.error.inj herror).symm⟩

/-- The enum rule refuses the sample after it has added the method, and leaves the class with it. -/
theorem intact_of_apply_contradictingSample : ∃ file,
    ClassFile.parse contradictingSampleBytes = .ok file ∧
    (((({} : Settings).apply "E").on file #[]).1.toOption.isNone = true ∧
      (({} : Settings).left "E" file #[]).methods.length = 2) ∧
    file.pool.Reachable ∧ file.check = .ok () ∧
    (({} : Settings).left "E" file #[]).check = .ok () ∧
    (({} : Settings).left "E" file #[]).pool.Reachable ∧
    (∀ place < file.pool.size, (({} : Settings).left "E" file #[]).pool.slots[place]? =
      file.pool.slots[place]?) ∧
    ∀ error, (({} : Settings).left "E" file #[]).serialize = .error error →
      ∃ what count, error = .limitExceeded what count := by
  have hfails : (ClassFile.parse contradictingSampleBytes).toOption.any (fun file =>
      ((({} : Settings).apply "E").on file #[]).1.toOption.isNone &&
        (({} : Settings).left "E" file #[]).methods.length == 2) = true := by
    decide +kernel
  cases hparse : ClassFile.parse contradictingSampleBytes with
  | error error =>
    rw [hparse] at hfails
    cases hfails
  | ok file =>
    rw [hparse] at hfails
    obtain ⟨hfails, hmethods⟩ := Bool.and_eq_true_iff.mp hfails
    have hreachable : file.pool.Reachable := .parsed hparse
    have hcheck := ClassFile.check_of_parse hparse
    exact ⟨file, rfl, ⟨hfails, beq_iff_eq.mp hmethods⟩, hreachable, hcheck,
      intact_of_apply {} "E" #[] hreachable hcheck⟩

end ClassThaw.Settings
