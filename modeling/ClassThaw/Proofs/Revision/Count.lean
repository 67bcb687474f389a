import ClassThaw.Proofs.Revision.Frame

namespace ClassThaw

variable {before middle after : ClassFile}

namespace Member

variable {F : Type} [DecidableEq F]

/-- At how many places two lists of members differ in their flags. -/
def changed (members members' : List (Member F)) : Nat :=
  (members.zip members').countP fun pair => pair.1.access ≠ pair.2.access

theorem changed_cons (member member' : Member F) (members members' : List (Member F)) :
    changed (member :: members) (member' :: members') =
      changed members members' + if member.access ≠ member'.access then 1 else 0 := by
  rw [changed, List.zip_cons_cons, List.countP_cons]
  simp only [decide_eq_true_eq]
  rfl

/-- What comes behind the second list is compared with nothing. -/
theorem changed_append {members existing added : List (Member F)}
    (hlength : members.length = existing.length) :
    changed members (existing ++ added) = changed members existing := by
  have hzip : (members ++ []).zip (existing ++ added) = members.zip existing := by
    rw [List.zip_append hlength, List.zip_nil_left, List.append_nil]
  rw [List.append_nil] at hzip
  rw [changed, changed, hzip]

/-- The changes are counted by whatever picks the members that change. -/
theorem changed_eq_countP {members members' : List (Member F)} {picks : Member F → Bool}
    (h : List.Forall₂ (fun member member' =>
      member.access ≠ member'.access ↔ picks member = true) members members') :
    changed members members' = members.countP picks := by
  induction h with
  | nil => rfl
  | cons hfirst _ ih => simp only [changed_cons, List.countP_cons, ih, hfirst]

/-- Changes that do not meet at one place add up. -/
theorem changed_trans {members members' members'' : List (Member F)}
    {first second : Member F → Member F → Prop}
    (h : List.Forall₂ first members members') (h' : List.Forall₂ second members' members'')
    (honce : ∀ member member' member'', first member member' → second member' member'' →
      member' = member ∨ member'' = member') :
    changed members members'' = changed members members' + changed members' members'' := by
  induction h generalizing members'' with
  | nil =>
    cases h'
    rfl
  | cons hfirst _ ih =>
    cases h' with
    | cons hsecond hrest =>
      rw [changed_cons, changed_cons, changed_cons, ih hrest]
      rcases honce _ _ _ hfirst hsecond with rfl | rfl
      · rw [if_neg (not_not_intro rfl)]
        omega
      · rw [if_neg (not_not_intro rfl)]
        omega

theorem eq_of_changed_eq_zero {members members' : List (Member F)}
    {related : Member F → Member F → Prop} (h : List.Forall₂ related members members')
    (hreflagged : ∀ member member', related member member' → member.Reflagged member')
    (hnone : changed members members' = 0) : members' = members := by
  induction h with
  | nil => rfl
  | @cons member member' _ _ hfirst _ ih =>
    rw [changed_cons, Nat.add_eq_zero_iff] at hnone
    obtain ⟨hrest, haccess⟩ := hnone
    have heq : member'.access = member.access := by
      by_contra hdiffers
      rw [if_pos (Ne.symm hdiffers)] at haccess
      cases haccess
    rw [ih hrest, (hreflagged member member' hfirst).eq_of_access heq]

theorem access_ne_thawed_iff {field : Field} :
    field.access ≠ field.thawed.access ↔ field.access.has .final = true := by
  have hcleared : field.thawed.access.has .final = false := Access.has_clear _ _ (by decide)
  constructor
  · intro hdiffers
    by_contra hnot
    have hmask : (FlagKind.mask FieldFlag.final).toBitVec = BitVec.twoPow 16 4 := rfl
    have hself : field.thawed.access = field.access :=
      Access.clear_eq_self field.access .final hmask (Bool.eq_false_iff.mpr hnot)
    exact hdiffers hself.symm
  · intro hfinal heq
    rw [← heq, hfinal] at hcleared
    cases hcleared

theorem changed_self (members : List (Member F)) : changed members members = 0 := by
  have hnone : List.Forall₂ (fun member member' : Member F =>
      member.access ≠ member'.access ↔ false = true) members members := by
    refine List.forall₂_same.mpr ?_
    intro member _
    exact iff_of_false (not_not_intro rfl) Bool.false_ne_true
  rw [changed_eq_countP hnone, List.countP_false]
  rfl

/-- Thawing the field at a place is a change if the field is there and is final. -/
theorem changed_modify (fields : List Field) (place : Nat) :
    changed fields (fields.modify place thawed) =
      (fields[place]?.any (·.access.has .final)).toNat := by
  induction fields generalizing place with
  | nil =>
    rw [List.modify_nil]
    rfl
  | cons field fields ih =>
    cases place with
    | zero =>
      rw [List.modify_zero_cons, changed_cons, changed_self, List.getElem?_cons_zero,
        Option.any_some]
      simp only [access_ne_thawed_iff]
      cases field.access.has .final <;> rfl
    | succ place =>
      rw [List.modify_succ_cons, changed_cons, ih, if_neg (not_not_intro rfl),
        List.getElem?_cons_succ]
      rfl

end Member

namespace ClassFile

/-- How many members of a class have other flags than before, or have been added. -/
def changes (before after : ClassFile) : Nat :=
  Member.changed before.fields after.fields + Member.changed before.methods after.methods +
    (after.methods.length - before.methods.length)

theorem changes_self (file : ClassFile) : file.changes file = 0 := by
  rw [changes, Member.changed_self, Member.changed_self, Nat.sub_self]

/-- Every constructor that is opened is a change, as it was not public. -/
theorem changed_methods_withOpenMembers (file : ClassFile) (position : Nat) :
    Member.changed file.methods (file.withOpenMembers position).methods =
      file.methods.countP (·.isClosedConstructor file.pool) := by
  apply Member.changed_eq_countP
  refine List.forall₂_map_right_iff.mpr (List.forall₂_same.mpr ?_)
  intro method _
  cases hclosed : method.isClosedConstructor file.pool with
  | false =>
    rw [if_neg Bool.false_ne_true]
    exact iff_of_false (not_not_intro rfl) Bool.false_ne_true
  | true =>
    rw [if_pos rfl]
    refine iff_of_true ?_ rfl
    intro heq
    have hpublic : method.opened.access.has .public = true := Access.has_set _ _
    have hprivate := (Bool.and_eq_true_iff.mp hclosed).2
    rw [heq, hpublic] at hprivate
    cases hprivate

variable {className : String} {field : Field} {position : Nat} {patch : EnumPatch}
  {events : Array Event}

/-- Where there is an array of values, all that is opened is counted. -/
theorem Opens.changes_eq (hfield : before.fields[position]? = some field)
    (h : before.Opens position patch after) : before.changes after = patch.total := by
  cases h with
  | astray _ hnone =>
    rw [withOpenMembers, List.getElem?_modify_eq, hfield] at hnone
    cases hnone
  | opened _ _ happend _ =>
    obtain ⟨hfields, added, hmethods, hadded⟩ := happend.members_eq
    have hopened : (before.withOpenMembers position).methods.length = before.methods.length :=
      List.length_map _
    have hold := changed_methods_withOpenMembers before position
    have hvalues := Member.changed_modify before.fields position
    rw [changes, hmethods, Member.changed_append hopened.symm, hold, hfields, List.length_append,
      hopened, hadded, Nat.add_sub_cancel_left]
    exact congrArg (· + _ + _) hvalues

theorem EnumOutcome.changes_eq (hcheck : before.check = .ok ())
    (h : before.EnumOutcome patch after) : before.changes after = patch.total := by
  cases h with
  | notEnum | leftAlone => exact changes_self before
  | opened hshape hopens =>
    obtain ⟨_, field, -, hfield, -⟩ := exists_valuesField hcheck hshape
    exact hopens.changes_eq hfield

/-- The fields that are thawed in turn add up, as a thawed field has nothing left to thaw. -/
theorem Frame.changed_fields_trans {appended? appended'? : Option Method}
    (h : before.Frame appended? middle) (h' : middle.Frame appended'? after) :
    Member.changed before.fields after.fields =
      Member.changed before.fields middle.fields + Member.changed middle.fields after.fields := by
  apply Member.changed_trans h.fields h'.fields
  intro field field' field'' hfirst hsecond
  rcases hfirst with rfl | rfl
  · exact .inl rfl
  · rcases hsecond with rfl | rfl
    · exact .inr rfl
    · exact .inr (Member.thawed_thawed field)

/-- A class without a change is the class before. -/
theorem Frame.eq_of_changes_eq_zero {appended? : Option Method} (h : before.Frame appended? after)
    (hnone : before.changes after = 0) : after = before := by
  rw [changes, Nat.add_eq_zero_iff, Nat.add_eq_zero_iff] at hnone
  obtain ⟨⟨hfields, hmethods⟩, hlength⟩ := hnone
  obtain ⟨existing, hsplit, hopen⟩ := h.methods
  have hexisting := hopen.length_eq
  rw [hsplit, List.length_append] at hlength
  -- No method has been added, so the pool is the same as well.
  have happended : appended? = none := by
    cases appended? with
    | none => rfl
    | some method =>
      rw [Option.toList_some, List.length_singleton] at hlength
      omega
  subst happended
  rw [hsplit, Option.toList_none, List.append_nil] at hmethods
  have hfields' : after.fields = before.fields :=
    Member.eq_of_changed_eq_zero h.fields (fun _ _ => Member.MayThaw.reflagged) hfields
  have hmethods' : existing = before.methods :=
    Member.eq_of_changed_eq_zero hopen (fun _ _ => Member.MayOpen.reflagged) hmethods
  rw [hmethods', Option.toList_none, List.append_nil] at hsplit
  obtain ⟨minor, major, pool, access, thisClass, superClass, interfaces, fields, methods,
    attributes⟩ := after
  obtain rfl : minor = _ := h.minor
  obtain rfl : major = _ := h.major
  obtain rfl : pool = _ := h.pool_eq rfl
  obtain rfl : access = _ := h.access
  obtain rfl : thisClass = _ := h.thisClass
  obtain rfl : superClass = _ := h.superClass
  obtain rfl : interfaces = _ := h.interfaces
  obtain rfl : fields = _ := hfields'
  obtain rfl : methods = _ := hsplit
  obtain rfl : attributes = _ := h.attributes
  rfl

end ClassFile

namespace Settings

variable {settings : Settings} {className : String} {mutations : Mutations}

/-- Every field that the holder rule selects is final, and is changed. -/
theorem changed_thaw (rules : HolderRules) (className : String) (file : ClassFile) :
    Member.changed file.fields (rules.thaw className file).fields =
      file.fields.countP (rules.selects className file) := by
  apply Member.changed_eq_countP
  refine List.forall₂_map_right_iff.mpr (List.forall₂_same.mpr ?_)
  intro field _
  cases hselects : rules.selects className file field with
  | false =>
    rw [if_neg Bool.false_ne_true]
    exact iff_of_false (not_not_intro rfl) Bool.false_ne_true
  | true =>
    have hfinal := (Bool.and_eq_true_iff.mp hselects).1
    rw [if_pos rfl]
    exact iff_of_true (Member.access_ne_thawed_iff.mpr hfinal) rfl

/-- What both rules count adds up to what differs in the end. -/
theorem Revises.changes_eq (hsound : before.pool.Sound) (hcheck : before.check = .ok ())
    (h : settings.Revises className before mutations after) :
    before.changes after = mutations.total := by
  obtain ⟨_, hframe, -⟩ := h.isRevised_thaw hsound
  have hthaw := HolderRules.frame_thaw settings.toHolderRules className before
  have hfields := hthaw.changed_fields_trans hframe
  have henum : (settings.thaw className before).changes after = mutations.enumPatch.total := by
    have houtcome := h.enumPatch
    split at houtcome
    case isTrue => exact houtcome.changes_eq (hthaw.check hcheck)
    case isFalse =>
      obtain ⟨hpatch, rfl⟩ := houtcome
      rw [hpatch]
      exact ClassFile.changes_self _
  have hmethods : (settings.thaw className before).methods = before.methods := rfl
  rw [ClassFile.changes, hmethods] at henum
  rw [ClassFile.changes, hfields, changed_thaw, mutations.total_eq, h.holderFields, ← henum]
  omega

/-- The total that is reported is the number of members that differ between the two files. It is not
zero, and the bytes are not the same. Where the bytes are left alone, the rules have left the class
alone. -/
theorem total_of_revise {bytes : Bytes} {log : Array Event} :
    (∀ revised mutations reported,
      Gives (settings.revise className bytes) log (.modified revised mutations) reported →
      ∃ before after, ClassFile.parse bytes = .ok before ∧ ClassFile.parse revised = .ok after ∧
        before.fields.length = after.fields.length ∧
        before.methods.length ≤ after.methods.length ∧
        mutations.total = before.changes after ∧ 1 ≤ mutations.total ∧ revised ≠ bytes) ∧
    ∀ reported, Gives (settings.revise className bytes) log .unchanged reported →
      ∃ file, ClassFile.parse bytes = .ok file ∧ ∀ log, ∃ mutations reported,
        Gives (settings.apply className) ⟨file, log⟩ mutations ⟨file, reported⟩ := by
  constructor
  · intro revised mutations reported h
    obtain ⟨before, after, _, hparse, hparse', ⟨hframe, -⟩, hrevises, hedited⟩ :=
      exists_of_gives_modified h
    have htotal := hrevises.changes_eq (ConstantPool.sound_of_parse hparse)
      (ClassFile.check_of_parse hparse)
    have hpositive : 1 ≤ mutations.total := by
      rw [Mutations.isEmpty, beq_eq_false_iff_ne] at hedited
      omega
    obtain ⟨existing, hsplit, hopen⟩ := hframe.methods
    refine ⟨before, after, hparse, hparse', hframe.fields.length_eq, ?_, htotal.symm, hpositive, ?_⟩
    · rw [hsplit, List.length_append, ← hopen.length_eq]
      omega
    · rintro rfl
      obtain rfl := Except.ok.inj (hparse.symm.trans hparse')
      rw [ClassFile.changes_self] at htotal
      omega
  · intro reported h
    obtain ⟨file, mutations, work, hparse, happly, hconclude⟩ := gives_revise.mp h
    have hcheck := ClassFile.check_of_parse hparse
    have hrevises := (gives_apply hcheck).mp ⟨_, happly⟩
    rw [gives_conclude] at hconclude
    split at hconclude
    case isFalse =>
      obtain ⟨-, _, -, hmodified, -⟩ := hconclude
      cases hmodified
    case isTrue hempty =>
      have hsound := ConstantPool.sound_of_parse hparse
      obtain ⟨_, hframe, -⟩ := hrevises.isRevised hsound
      have hnone := hrevises.changes_eq hsound hcheck
      rw [beq_iff_eq.mp hempty] at hnone
      have hsame := hframe.eq_of_changes_eq_zero hnone
      rw [hsame] at hrevises
      refine ⟨file, hparse, ?_⟩
      intro log
      -- What has been reported before does not matter to what the rules do.
      have hgives : ∃ reported, Gives (settings.apply className) ⟨file, log⟩ mutations
          ⟨file, reported⟩ :=
        (gives_apply hcheck).mpr hrevises
      exact ⟨mutations, hgives⟩

theorem gives_revise_openedSample :
    Gives (({} : Settings).revise "E" openedSampleBytes) #[] .unchanged #[.unchanged "E"] := by
  decide +kernel

theorem total_of_revise_samples :
    Gives (({} : Settings).revise "E" enumSampleBytes) #[]
      (.modified openedSampleBytes
        { enumPatch := { valuesOpened := true, constructorsOpened := 1, appendAdded := true } })
      #[.enumOpened "E"] ∧
    (∃ before after, ClassFile.parse enumSampleBytes = .ok before ∧
      ClassFile.parse openedSampleBytes = .ok after ∧ before.changes after = 3) ∧
    Gives (({} : Settings).revise "E" openedSampleBytes) #[] .unchanged #[.unchanged "E"] ∧
    ∃ file, ClassFile.parse openedSampleBytes = .ok file ∧ ∀ log, ∃ mutations reported,
      Gives (({} : Settings).apply "E") ⟨file, log⟩ mutations ⟨file, reported⟩ := by
  obtain ⟨before, after, hparse, hparse', -, -, htotal, -⟩ :=
    total_of_revise.1 _ _ _ gives_revise_enumSample
  refine ⟨gives_revise_enumSample, ⟨before, after, hparse, hparse', htotal.symm⟩,
    gives_revise_openedSample, ?_⟩
  exact total_of_revise.2 _ gives_revise_openedSample

end Settings

end ClassThaw
