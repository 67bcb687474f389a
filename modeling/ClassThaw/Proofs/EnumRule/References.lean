import ClassThaw.Proofs.ConstantPool.Invariant
import ClassThaw.Proofs.EnumRule.Open

namespace ClassThaw

namespace ConstantPool

variable {pool before after : ConstantPool} {index first second : UInt16}
  {reference : MemberReference}

/-- Only the call for a reference to a field leads to one. -/
theorem Addition.Found.exists_fieldRef {addition : Addition} (h : addition.Found index pool)
    (hget : pool.get? index = some (.fieldRef first second)) :
    ∃ owner name descriptor, addition = .fieldRef owner name descriptor := by
  cases addition with
  | fieldRef owner name descriptor => exact ⟨owner, name, descriptor, rfl⟩
  | text | integer =>
    rw [Found] at h
    cases h.symm.trans hget
  | «class» | string =>
    obtain ⟨_, hother, -⟩ := h
    cases hother.symm.trans hget
  | nameAndType | methodRef =>
    obtain ⟨_, _, hother, -⟩ := h
    cases hother.symm.trans hget

/-- The constant is a reference to the field with this owner and name, and the type that it gives to
the field is not the descriptor. -/
structure IsMismatch (pool : ConstantPool) (owner name descriptor : String) (index : UInt16)
    (found : String) : Prop where
  get? : ∃ first second, pool.get? index = some (.fieldRef first second)
  reference : pool.memberReference index = .ok ⟨owner, name, found⟩
  differs : found ≠ descriptor

/-- A reference to the field with this owner and name gives it another type. -/
def Contradicts (pool : ConstantPool) (owner name descriptor : String) : Prop :=
  ∃ index first second reference, pool.get? index = some (.fieldRef first second) ∧
    pool.memberReference index = .ok reference ∧
    reference.owner = owner ∧ reference.name = name ∧ reference.descriptor ≠ descriptor

variable {owner name descriptor found : String} {needed : Finset Addition}

theorem contradicts_iff : pool.Contradicts owner name descriptor ↔
    ∃ index found, pool.IsMismatch owner name descriptor index found := by
  constructor
  · rintro ⟨index, first, second, reference, hget, hreference, rfl, rfl, hdiffers⟩
    exact ⟨index, reference.descriptor, ⟨first, second, hget⟩, hreference, hdiffers⟩
  · rintro ⟨index, found, ⟨first, second, hget⟩, hreference, hdiffers⟩
    exact ⟨index, first, second, _, hget, hreference, rfl, rfl, hdiffers⟩

/-- The only reference to the field that is needed gives it its own type. -/
theorem Filled.isMismatch_iff (h : Filled needed before after) (hsound : before.Sound)
    (hneeded : ∀ other, .fieldRef owner name other ∈ needed → other = descriptor) :
    after.IsMismatch owner name descriptor index found ↔
      before.IsMismatch owner name descriptor index found := by
  constructor
  · rintro ⟨⟨first, second, hget⟩, hreference, hdiffers⟩
    rcases Nat.lt_or_ge index.toNat before.size with hold | hnew
    -- An old reference resolved to the same before.
    · rw [h.grows.get?_eq_of_lt hold] at hget
      obtain ⟨reference, hreference'⟩ := exists_memberReference hsound.check (.inl hget)
      have hsame := (h.grows.memberReference hget hreference').symm.trans hreference
      obtain rfl := Except.ok.inj hsame
      exact ⟨⟨first, second, hget⟩, hreference', hdiffers⟩
    -- A new one was needed, and resolves to what it was needed for.
    · have hlt : index.toNat < after.size := by
        obtain ⟨hlt, -⟩ := List.getElem?_eq_some_iff.mp (get?_eq_some_iff.mp hget).1
        exact hlt
      obtain ⟨addition, hmem, hat⟩ := h.described index hnew hlt
      have hfound := hat.found h.sound.size_le
      obtain ⟨owner', name', descriptor', rfl⟩ := hfound.exists_fieldRef hget
      have hsame := (hfound.memberReference_eq fun _ _ => .inl).symm.trans hreference
      obtain ⟨rfl, rfl, rfl⟩ := MemberReference.mk.inj (Except.ok.inj hsame)
      exact absurd (hneeded _ hmem) hdiffers
  · rintro ⟨⟨first, second, hget⟩, hreference, hdiffers⟩
    exact ⟨⟨first, second, h.grows.get? hget⟩, h.grows.memberReference hget hreference, hdiffers⟩

end ConstantPool

namespace ClassFile

variable {file : ClassFile} {className field descriptor : String} {work : Workpiece}

theorem referencesAgree_iff (hsound : file.pool.Sound) :
    file.ReferencesAgree className field descriptor ↔
      ¬ file.pool.Contradicts className field descriptor := by
  constructor
  · rintro hagree ⟨index, first, second, reference, hget, hreference, howner, hname, hdiffers⟩
    have hentry := (ConstantPool.mem_entries_iff hsound.size_le).mpr hget
    obtain ⟨found, hfound, hsame⟩ := hagree _ hentry rfl
    obtain rfl := Except.ok.inj (hfound.symm.trans hreference)
    exact hdiffers (hsame howner hname)
  · rintro hnone ⟨index, constant⟩ hentry hkind
    have hget := (ConstantPool.mem_entries_iff hsound.size_le).mp hentry
    cases constant with
    | fieldRef first second =>
      obtain ⟨reference, hreference⟩ := ConstantPool.exists_memberReference hsound.check (.inl hget)
      refine ⟨reference, hreference, ?_⟩
      intro howner hname
      by_contra hdiffers
      exact hnone ⟨index, first, second, reference, hget, hreference, howner, hname, hdiffers⟩
    | _ => cases hkind

/-- The test of references passes, or names one that contradicts the field. -/
theorem gives_or_fails_checkReferences (hsound : file.pool.Sound) :
    Gives (file.checkReferences className field descriptor) work () work ∨
      ∃ error, (∃ index found, file.pool.IsMismatch className field descriptor index found ∧
          error = .inconsistent className (.fieldType index field found descriptor)) ∧
        Fails (file.checkReferences className field descriptor) work error := by
  apply Edit.gives_or_fails_forM
  rintro ⟨index, constant⟩ hentry
  have hget := (ConstantPool.mem_entries_iff hsound.size_le).mp hentry
  change Gives (if constant.kind? = some .fieldRef then _ else _) work () work ∨
    ∃ error, _ ∧ Fails (if constant.kind? = some .fieldRef then _ else _) work error
  split
  case isFalse => exact .inl (gives_pure.mpr ⟨rfl, rfl⟩)
  case isTrue hkind =>
    cases constant with
    | fieldRef first second =>
      obtain ⟨reference, hreference⟩ := ConstantPool.exists_memberReference hsound.check (.inl hget)
      simp only [Edit.fails_lookUp_bind hreference, Edit.gives_lookUp_bind]
      by_cases hdiffers : reference.owner = className ∧ reference.name = field ∧
        reference.descriptor ≠ descriptor
      · obtain ⟨rfl, rfl, hother⟩ := id hdiffers
        refine .inr ⟨_, ⟨index, reference.descriptor,
          ⟨⟨first, second, hget⟩, hreference, hother⟩, rfl⟩, ?_⟩
        rw [if_pos hdiffers]
        exact fails_throw.mpr rfl
      · refine .inl ⟨reference, hreference, ?_⟩
        rw [if_neg hdiffers]
        exact gives_pure.mpr ⟨rfl, rfl⟩
    | _ => cases hkind

end ClassFile

end ClassThaw
