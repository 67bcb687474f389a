import ClassThaw.Proofs.ClassFile.RoundTrip
import ClassThaw.Proofs.EnumRule.Settled
import ClassThaw.Proofs.Revision.Outcome

namespace ClassThaw

variable {before after : ClassFile}

namespace ClassFile

/-- The frame of a revision, and what is known of the method and of the pool. -/
def IsRevised (before : ClassFile) (appended? : Option Method) (after : ClassFile) : Prop :=
  before.Frame appended? after ∧ after.pool.Sound ∧
    ∀ method ∈ appended?, ∃ className valuesName valuesDescriptor,
      method.IsAppendMethod className valuesName valuesDescriptor after.pool

variable {position : Nat} {patch : EnumPatch} {events : Array Event}

theorem IsRevised.of_frame (hframe : before.Frame none after) (hsound : after.pool.Sound) :
    before.IsRevised none after := by
  refine ⟨hframe, hsound, ?_⟩
  intro method hmethod
  cases hmethod

theorem Opens.isRevised (hsound : before.pool.Sound) (h : before.Opens position patch after) :
    ∃ appended?, before.IsRevised appended? after := by
  have hopen := frame_withOpenMembers before position
  have hpool : (before.withOpenMembers position).pool.Sound := hsound
  cases h with
  | astray => exact ⟨none, .of_frame hopen hsound⟩
  | opened _ _ happend =>
    rcases happend.cases hpool with ⟨-, rfl⟩ | ⟨method, pool, _, _, hgrows, hsound', hmethod, rfl⟩
    · exact ⟨none, .of_frame hopen hpool⟩
    · refine ⟨some method, hopen.append hgrows, hsound', ?_⟩
      rintro _ ⟨⟩
      exact ⟨_, _, _, hmethod⟩

theorem EnumOutcome.isRevised (hsound : before.pool.Sound)
    (h : before.EnumOutcome patch after) :
    ∃ appended?, before.IsRevised appended? after := by
  cases h with
  | notEnum | leftAlone => exact ⟨none, .of_frame (.refl before) hsound⟩
  | opened _ hopens => exact hopens.isRevised hsound

/-- What has been read can be read back after the revision: no name is another in the larger
pool. -/
theorem IsRevised.isReadable {appended? : Option Method} (hcheck : before.check = .ok ())
    (hreadable : before.IsReadable) (h : before.IsRevised appended? after) : after.IsReadable := by
  obtain ⟨hframe, -, happended⟩ := h
  have hindexed := (check_eq_ok_iff.mp hcheck).2
  obtain ⟨hclass, hfields, hmethods⟩ := forall_mem_allAttributes.mp hreadable.attributes
  refine ⟨hframe.major ▸ hreadable.supported, forall_mem_allAttributes.mpr ⟨?_, ?_, ?_⟩⟩
  · rw [hframe.attributes]
    exact Attribute.forall_isReadable_grow hframe.pool hindexed.attributes hclass
  · intro field' hfield'
    obtain ⟨field, hfield, hmay⟩ := exists_mem_of_forall₂ hframe.fields hfield'
    have hattributes := (Member.check_eq_ok_iff.mp (hindexed.fields field hfield)).2.2
    rw [hmay.reflagged.attributes]
    exact Attribute.forall_isReadable_grow hframe.pool hattributes (hfields field hfield)
  · intro method' hmethod'
    obtain ⟨existing, hsplit, hopen⟩ := hframe.methods
    rw [hsplit] at hmethod'
    rcases List.mem_append.mp hmethod' with hold | hnew
    -- An existing method keeps its attributes, and their names keep their texts.
    · obtain ⟨method, hmethod, hmay⟩ := exists_mem_of_forall₂ hopen hold
      have hattributes := (Member.check_eq_ok_iff.mp (hindexed.methods method hmethod)).2.2
      rw [hmay.reflagged.attributes]
      exact Attribute.forall_isReadable_grow hframe.pool hattributes (hmethods method hmethod)
    -- The body of the new method holds no attributes.
    · obtain ⟨_, _, _, hmethod⟩ := happended method' (Option.mem_toList.mp hnew)
      exact hmethod.isReadable

/-- The fields that are looked at as arrays of values are the same, whatever has been thawed. -/
theorem Frame.forall₂_fields {appended? : Option Method} (h : before.Frame appended? after)
    (hcheck : before.check = .ok ()) :
    List.Forall₂ (fun field field' => Member.Alike before.pool after.pool field field' ∧
      field'.access.has .static = field.access.has .static ∧
      field'.access.has .synthetic = field.access.has .synthetic) before.fields after.fields := by
  refine (h.forall₂_alike_fields hcheck).mp ?_ h.fields
  intro field field' halike hmay
  refine ⟨halike, ?_⟩
  rcases hmay with rfl | rfl
  · exact ⟨rfl, rfl⟩
  · exact ⟨Access.has_clear_of_apart _ _ rfl, Access.has_clear_of_apart _ _ rfl⟩

/-- A class within the frame is an enum of the same shape, if no constructor has been added. -/
theorem Frame.enumShape_eq {appended? : Option Method} (h : before.Frame appended? after)
    (hcheck : before.check = .ok ()) (hcheck' : after.check = .ok ())
    (happended : ∀ method ∈ appended?, method.isConstructor after.pool = false) :
    after.enumShape = before.enumShape := by
  have hindexed := (check_eq_ok_iff.mp hcheck).2
  have hindexed' := (check_eq_ok_iff.mp hcheck').2
  obtain ⟨existing, hsplit, halike⟩ := h.exists_forall₂_alike_methods hcheck
  apply enumShape_congr h.access (h.superName_eq hcheck) (h.name_eq hcheck)
  · intro className
    exact valuesCandidates_congr className hindexed.fields hindexed'.fields
      (h.forall₂_fields hcheck)
  · apply constructors_congr hindexed.methods hindexed'.methods hsplit halike
    intro method hmethod
    exact happended method (Option.mem_toList.mp hmethod)

/-- A revised class is an enum of the same shape: the method that has been added has another name
than constructors have. -/
theorem IsRevised.enumShape_eq {appended? : Option Method} (h : before.IsRevised appended? after)
    (hcheck : before.check = .ok ()) (hcheck' : after.check = .ok ()) :
    after.enumShape = before.enumShape := by
  obtain ⟨hframe, -, happended⟩ := h
  apply hframe.enumShape_eq hcheck hcheck'
  intro method hmethod
  obtain ⟨_, _, _, happend⟩ := happended method hmethod
  exact happend.isConstructor

end ClassFile

namespace Settings

variable {settings : Settings} {className : String} {mutations : Mutations}

/-- The holder rule does not make an enum of another shape of a class. -/
theorem enumShape_thaw (rules : HolderRules) (className : String) (hsound : before.pool.Sound)
    (hcheck : before.check = .ok ()) :
    (rules.thaw className before).enumShape = before.enumShape := by
  have hframe := HolderRules.frame_thaw rules className before
  have hpool : (rules.thaw className before).pool.Sound := hsound
  exact (ClassFile.IsRevised.of_frame hframe hpool).enumShape_eq hcheck (hframe.check hcheck)

/-- What the enum rule does after the holder rule. -/
theorem Revises.isRevised_thaw (hsound : before.pool.Sound)
    (h : settings.Revises className before mutations after) :
    ∃ appended?, (settings.thaw className before).IsRevised appended? after := by
  have hpool : (settings.thaw className before).pool.Sound := hsound
  have houtcome := h.enumPatch
  split at houtcome
  case isTrue => exact houtcome.isRevised hpool
  case isFalse =>
    obtain rfl := houtcome.2
    exact ⟨none, .of_frame (.refl _) hpool⟩

theorem Revises.isRevised (hsound : before.pool.Sound)
    (h : settings.Revises className before mutations after) :
    ∃ appended?, before.IsRevised appended? after := by
  obtain ⟨appended?, hframe, hrest⟩ := h.isRevised_thaw hsound
  exact ⟨appended?, hframe.of_fields (HolderRules.frame_thaw _ className before).fields, hrest⟩

/-- What is written for a revised class is read back as it was in memory, as the writer has cut
nothing off. -/
theorem Revises.parse_of_write {bytes revised : Bytes} (hparse : ClassFile.parse bytes = .ok before)
    (h : settings.Revises className before mutations after) (hcheck' : after.check = .ok ())
    (hwrite : after.write = .ok revised) : ClassFile.parse revised = .ok after := by
  obtain ⟨-, hreadable, hserialize⟩ := ClassFile.parse_eq_ok_iff.mp hparse
  have hcheck := (check_bind_eq_ok_iff.mp hserialize).1
  obtain ⟨appended?, hrevised⟩ := h.isRevised (ConstantPool.sound_of_parse hparse)
  have hserialize' : after.serialize = .ok revised :=
    check_bind_eq_ok_iff.mpr ⟨hcheck', hwrite⟩
  exact ClassFile.parse_eq_ok_iff.mpr
    ⟨hrevised.2.1.wellFormed, hrevised.isReadable hcheck hreadable, hserialize'⟩

/-- A run that changes the bytes of a class revises the class that they hold, and the new bytes hold
the revised class. -/
theorem exists_of_gives_modified {bytes revised : Bytes} {log reported : Array Event}
    (h : Gives (settings.revise className bytes) log (.modified revised mutations) reported) :
    ∃ before after appended?, ClassFile.parse bytes = .ok before ∧
      ClassFile.parse revised = .ok after ∧ before.IsRevised appended? after ∧
      settings.Revises className before mutations after ∧ mutations.isEmpty = false := by
  obtain ⟨before, _, work, hparse, happly, hconclude⟩ := gives_revise.mp h
  rw [gives_conclude] at hconclude
  split at hconclude
  case isTrue => cases hconclude.1
  case isFalse hedited =>
    obtain ⟨hcheck', _, hwrite, ⟨⟩, rfl⟩ := hconclude
    -- The rules have run to their end, so the class in memory is framed by the one that was read.
    have hcheck := ClassFile.check_of_parse hparse
    have hrevises := (gives_apply hcheck).mp ⟨_, happly⟩
    obtain ⟨appended?, hrevised⟩ := hrevises.isRevised (ConstantPool.sound_of_parse hparse)
    exact ⟨before, work.file, appended?, hparse, hrevises.parse_of_write hparse hcheck' hwrite,
      hrevised, hrevises, Bool.eq_false_iff.mpr hedited⟩

/-- If revising changes the bytes of a class, all that differs between the two files are a few
flags, at most one method behind the others, and constants behind the others. An index into the old
pool leads to the same as before. -/
theorem frame_of_revise {bytes revised : Bytes} {log reported : Array Event}
    (h : Gives (settings.revise className bytes) log (.modified revised mutations) reported) :
    ∃ before after appended?, ClassFile.parse bytes = .ok before ∧
      ClassFile.parse revised = .ok after ∧ before.Frame appended? after ∧
      ∀ index : UInt16, index.toNat < before.pool.size →
        after.pool.get? index = before.pool.get? index := by
  obtain ⟨before, after, appended?, hparse, hparse', ⟨hframe, -⟩, -⟩ := exists_of_gives_modified h
  exact ⟨before, after, appended?, hparse, hparse', hframe, fun _ => hframe.pool.get?_eq_of_lt⟩

def openedSampleBytes : Bytes :=
  [202, 254, 186, 190, 0, 0, 0, 52, 0, 21, 1, 0, 1, 69, 7, 0, 1, 1, 0, 7, 36, 86, 65, 76, 85, 69,
    83, 1, 0, 4, 91, 76, 69, 59, 1, 0, 6, 60, 105, 110, 105, 116, 62, 1, 0, 3, 40, 41, 86, 5, 0, 0,
    0, 0, 0, 0, 0, 7, 12, 0, 3, 0, 4, 9, 0, 2, 0, 9, 1, 0, 16, 106, 97, 118, 97, 47, 117, 116, 105,
    108, 47, 65, 114, 114, 97, 121, 115, 7, 0, 11, 1, 0, 6, 99, 111, 112, 121, 79, 102, 1, 0, 41,
    40, 91, 76, 106, 97, 118, 97, 47, 108, 97, 110, 103, 47, 79, 98, 106, 101, 99, 116, 59, 73, 41,
    91, 76, 106, 97, 118, 97, 47, 108, 97, 110, 103, 47, 79, 98, 106, 101, 99, 116, 59, 12, 0, 13,
    0, 14, 10, 0, 12, 0, 15, 7, 0, 4, 1, 0, 4, 67, 111, 100, 101, 1, 0, 13, 36, 97, 100, 100, 69,
    110, 117, 109, 86, 97, 108, 117, 101, 1, 0, 6, 40, 76, 69, 59, 41, 86, 64, 48, 0, 2, 0, 0, 0, 0,
    0, 1, 16, 10, 0, 3, 0, 4, 0, 0, 0, 2, 128, 1, 0, 5, 0, 6, 0, 0, 16, 41, 0, 19, 0, 20, 0, 1, 0,
    18, 0, 0, 0, 38, 0, 3, 0, 3, 0, 0, 0, 26, 178, 0, 10, 76, 43, 43, 190, 4, 96, 184, 0, 16, 192,
    0, 17, 77, 44, 43, 190, 42, 83, 44, 179, 0, 10, 177, 0, 0, 0, 0, 0, 1, 0, 1, 0, 0, 0, 3, 1, 2,
    3]

theorem gives_revise_enumSample : Gives (({} : Settings).revise "E" enumSampleBytes) #[]
    (.modified openedSampleBytes
      { enumPatch := { valuesOpened := true, constructorsOpened := 1, appendAdded := true } })
    #[.enumOpened "E"] := by
  decide +kernel

theorem frame_of_revise_enumSample :
    Gives (({} : Settings).revise "E" enumSampleBytes) #[]
      (.modified openedSampleBytes
        { enumPatch := { valuesOpened := true, constructorsOpened := 1, appendAdded := true } })
      #[.enumOpened "E"] ∧
    ∃ before after appended?, ClassFile.parse enumSampleBytes = .ok before ∧
      ClassFile.parse openedSampleBytes = .ok after ∧ before.Frame appended? after ∧
      ∀ index : UInt16, index.toNat < before.pool.size →
        after.pool.get? index = before.pool.get? index :=
  ⟨gives_revise_enumSample, frame_of_revise gives_revise_enumSample⟩

end Settings

end ClassThaw
