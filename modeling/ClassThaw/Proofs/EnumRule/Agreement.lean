import ClassThaw.Proofs.EnumRule.Append
import ClassThaw.Proofs.Edit
import ClassThaw.Proofs.Pointwise

namespace ClassThaw

/-- Related classes look the same to the enum rule, and stay related whatever it does to both. -/
structure Indistinct (related : ClassFile → ClassFile → Prop) : Prop where
  name : ∀ {file file' : ClassFile}, related file file' → file'.name = file.name
  pool : ∀ {file file' : ClassFile}, related file file' → file'.pool = file.pool
  check : ∀ {file file' : ClassFile}, related file file' → file'.check = file.check
  lacksAppend : ∀ {file file' : ClassFile}, related file file' → ∀ className,
    file'.lacksAppend className = file.lacksAppend className
  fields : ∀ {file file' : ClassFile}, related file file' →
    List.Forall₂ (fun field field' => field'.name = field.name ∧
      field'.descriptor = field.descriptor) file.fields file'.fields
  withOpenMembers : ∀ {file file' : ClassFile}, related file file' → ∀ position,
    related (file.withOpenMembers position) (file'.withOpenMembers position)
  append : ∀ {file file' : ClassFile}, related file file' →
    ∀ {className name descriptor : String} {method : Method} {pool : ConstantPool},
      Gives (appendMethod className name descriptor) file.pool method pool →
      related { file with pool, methods := file.methods ++ [method] }
        { file' with pool, methods := file'.methods ++ [method] }

namespace ClassFile

variable {file file' : ClassFile} {work work' : Workpiece} {className : String}
  {field field' : Field}

/-- The test of references looks at the pool only, and changes nothing. -/
theorem agree_checkReferences (hpool : file'.pool = file.pool) (name descriptor : String) :
    Agree (file.checkReferences className name descriptor) work
      (file'.checkReferences className name descriptor) work' fun _ after _ after' =>
        after = work ∧ after' = work' := by
  unfold checkReferences
  rw [hpool]
  apply agree_forM
  rintro ⟨index, constant⟩ _
  dsimp only
  split
  case isFalse => exact agree_pure ⟨rfl, rfl⟩
  case isTrue =>
    apply Edit.agree_lookUp_bind rfl
    intro reference _
    split
    · exact agree_throw
    · exact agree_pure ⟨rfl, rfl⟩

theorem agree_checkAfterEdit (hcheck : file'.check = file.check) :
    Agree (file.checkAfterEdit className) work (file'.checkAfterEdit className) work'
      fun _ after _ after' => after = work ∧ after' = work' := by
  unfold checkAfterEdit
  rw [hcheck]
  split
  · exact agree_pure ⟨rfl, rfl⟩
  · exact agree_throw

end ClassFile

section steps

variable {work work' : Workpiece} {className : String} {field field' : Field}

/-- The method that is added is made of texts and of the pool. -/
theorem agree_addAppendMethod (hpool : work'.file.pool = work.file.pool)
    (hname : field'.name = field.name) (hdescriptor : field'.descriptor = field.descriptor) :
    Agree (addAppendMethod className field) work (addAppendMethod className field') work'
      fun _ after _ after' => ∃ name descriptor method pool,
        Gives (appendMethod className name descriptor) work.file.pool method pool ∧
        after.file = { work.file with pool, methods := work.file.methods ++ [method] } ∧
        after'.file = { work'.file with pool, methods := work'.file.methods ++ [method] } := by
  unfold addAppendMethod
  rw [Edit.agree_file_bind]
  apply Edit.agree_lookUp_bind (by rw [Member.nameText, Member.nameText, hname, hpool])
  intro name _
  apply Edit.agree_lookUp_bind
    (by rw [Member.descriptorText, Member.descriptorText, hdescriptor, hpool])
  intro descriptor _
  apply (Edit.agree_changePool hpool).bind
  rintro _ _ method _ ⟨rfl, pool, hgives, rfl, rfl⟩
  exact .inl ⟨(), _, (), _, Edit.gives_change.mpr rfl, Edit.gives_change.mpr rfl,
    name, descriptor, method, pool, hgives, rfl, rfl⟩

theorem agree_checkOpened (hpool : work'.file.pool = work.file.pool)
    (hcheck : work'.file.check = work.file.check)
    (hname : field'.name = field.name) (hdescriptor : field'.descriptor = field.descriptor) :
    Agree (checkOpened className field) work (checkOpened className field') work'
      fun _ after _ after' => after = work ∧ after' = work' := by
  unfold checkOpened
  rw [Edit.agree_file_bind]
  apply Edit.agree_lookUp_bind (by rw [Member.nameText, Member.nameText, hname, hpool])
  intro name _
  apply Edit.agree_lookUp_bind
    (by rw [Member.descriptorText, Member.descriptorText, hdescriptor, hpool])
  intro descriptor _
  apply (ClassFile.agree_checkReferences hpool name descriptor).bind
  rintro _ _ _ _ ⟨rfl, rfl⟩
  exact ClassFile.agree_checkAfterEdit hcheck

variable {related : ClassFile → ClassFile → Prop}

/-- Related classes are opened in the same way, and what is reported differs only if what there was
to open did. -/
theorem Indistinct.agree_openShape (h : Indistinct related)
    (hrelated : related work.file work'.file) (position : Nat) :
    Agree (openShape position) work (openShape position) work' fun patch after patch' after' =>
      related after.file after'.file ∧
      ((∀ added, work'.file.openPatch position added = work.file.openPatch position added) →
        patch' = patch) := by
  have hopened := h.withOpenMembers hrelated position
  unfold openShape
  rw [Edit.agree_file_bind, Edit.agree_change_bind, Edit.agree_file_bind]
  apply Edit.agree_lookUp_bind (h.name hopened)
  intro className _
  -- Both classes have a field at the position, or neither has.
  have hfields := h.fields hopened
  cases hfield : (work.file.withOpenMembers position).fields[position]? with
  | none =>
    have hnone : (work'.file.withOpenMembers position).fields[position]? = none := by
      rw [List.getElem?_eq_none_iff, ← hfields.length_eq]
      exact List.getElem?_eq_none_iff.mp hfield
    rw [hnone]
    exact agree_pure ⟨hopened, fun _ => rfl⟩
  | some field =>
    obtain ⟨field', hfield', hname, hdescriptor⟩ := exists_getElem?_of_forall₂ hfields hfield
    rw [hfield']
    dsimp only
    have hrest (left right : Workpiece) (hfiles : related left.file right.file) (added : Bool) :
        Agree (checkOpened className field >>= fun _ =>
            pure (work.file.openPatch position added)) left
          (checkOpened className field' >>= fun _ =>
            pure (work'.file.openPatch position added)) right
          fun patch after patch' after' => related after.file after'.file ∧
            ((∀ added, work'.file.openPatch position added =
              work.file.openPatch position added) → patch' = patch) := by
      apply (agree_checkOpened (h.pool hfiles) (h.check hfiles) hname hdescriptor).bind
      rintro _ _ _ _ ⟨rfl, rfl⟩
      exact agree_pure ⟨hfiles, fun hsame => hsame added⟩
    rw [h.lacksAppend hopened]
    split
    case isFalse => exact hrest _ _ hopened _
    case isTrue =>
      apply (agree_addAppendMethod (h.pool hopened) hname hdescriptor).bind
      rintro _ left _ right ⟨name, descriptor, method, pool, hgives, hleft, hright⟩
      apply hrest
      rw [hleft, hright]
      exact h.append hopened hgives

/-- The enum rule does the same to classes that look the same to it. -/
theorem Indistinct.agree_openEnum (debug : Bool) (h : Indistinct related)
    (hrelated : related work.file work'.file)
    (hshape : work'.file.enumShape = work.file.enumShape) :
    Agree (openEnum debug) work (openEnum debug) work' fun patch after patch' after' =>
      related after.file after'.file ∧
      ((∀ position added, work'.file.openPatch position added =
        work.file.openPatch position added) → patch' = patch) := by
  unfold openEnum
  rw [Edit.agree_file_bind]
  apply Edit.agree_lookUp_bind hshape
  intro shape _
  cases shape with
  | notEnum => exact agree_pure ⟨hrelated, fun _ => rfl⟩
  | unsupported obstacle =>
    cases debug with
    | false => exact agree_pure ⟨hrelated, fun _ => rfl⟩
    | true =>
      apply Edit.agree_lookUp_bind (h.name hrelated)
      intro className _
      exact Edit.agree_report_bind.mpr (agree_pure ⟨hrelated, fun _ => rfl⟩)
  | extensible position constructors =>
    apply (h.agree_openShape hrelated position).weaken
    rintro patch after patch' after' ⟨hafter, hpatch⟩
    exact ⟨hafter, fun hsame => hpatch (hsame position)⟩

end steps

end ClassThaw
