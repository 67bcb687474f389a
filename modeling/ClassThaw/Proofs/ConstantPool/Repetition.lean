import ClassThaw.Proofs.ConstantPool.Invariant

namespace ClassThaw.ConstantPool

variable {pool before after : ConstantPool} {index : UInt16} {addition : Addition}

/-- A pool that has grown without getting larger is the same. -/
theorem Grows.eq_of_size (h : before.Grows after) (hsize : after.size = before.size) :
    after = before := by
  obtain ⟨slots⟩ := before
  obtain ⟨slots'⟩ := after
  have hslots : slots.toList = slots'.toList := List.IsPrefix.eq_of_length h hsize.symm
  rw [ConstantPool.mk.injEq]
  exact (Array.toList_inj.mp hslots).symm

namespace Addition

/-- The index leads to the texts that the call was made with. -/
def Resolves : Addition → UInt16 → ConstantPool → Prop
  | .text content => fun index pool => pool.text index = .ok content
  | .class name => fun index pool => pool.className index = .ok name
  | .string literal => fun index pool =>
    ∃ text, pool.get? index = some (.string text) ∧ pool.text text = .ok literal
  | .integer value => fun index pool => pool.get? index = some (.integer value)
  | .nameAndType name descriptor => fun index pool =>
    pool.nameAndType index = .ok (name, descriptor)
  | .fieldRef owner name descriptor | .methodRef owner name descriptor => fun index pool =>
    pool.memberReference index = .ok ⟨owner, name, descriptor⟩

theorem Found.resolves (h : addition.Found index pool) : addition.Resolves index pool := by
  cases addition with
  | text content => exact IsText.text_eq h
  | «class» name => exact IsClass.className_eq h
  | string literal =>
    obtain ⟨text, hget, htext⟩ := h
    exact ⟨text, hget, htext.text_eq⟩
  | integer value => exact h
  | nameAndType name descriptor => exact IsNameAndType.nameAndType_eq h
  | fieldRef owner name descriptor => exact IsReference.memberReference_eq (fun _ _ => .inl) h
  | methodRef owner name descriptor =>
    exact IsReference.memberReference_eq (fun _ _ hget => .inr (.inl hget)) h

/-- The texts that the call was made with. -/
def texts : Addition → List String
  | .text content => [content]
  | .class name => [name]
  | .string literal => [literal]
  | .integer _ => []
  | .nameAndType name descriptor => [name, descriptor]
  | .fieldRef owner name descriptor | .methodRef owner name descriptor => [owner, name, descriptor]

theorem text_mem_needs_iff {text : String} :
    .text text ∈ addition.needs ↔ text ∈ addition.texts := by
  cases addition <;> simp [needs, texts, or_comm, or_left_comm]

/-- Among the entries that a call needs, only those of its texts can be too long. -/
theorem exists_not_fits_iff : (∃ needed ∈ addition.needs, ¬ needed.Fits) ↔
    ∃ text ∈ addition.texts, maxCount < (ModifiedUtf8.encode text).length := by
  constructor
  · rintro ⟨needed, hneeded, hlong⟩
    cases needed with
    | text content => exact ⟨content, text_mem_needs_iff.mp hneeded, Nat.not_le.mp hlong⟩
    | _ => exact absurd trivial hlong
  · rintro ⟨text, htext, hlong⟩
    exact ⟨.text text, text_mem_needs_iff.mpr htext, Nat.not_le.mpr hlong⟩

theorem IsAt.unique {index' : UInt16} (h : addition.IsAt index pool)
    (h' : addition.IsAt index' pool) : index' = index := by
  obtain ⟨constant, hwants, hindex⟩ := h
  obtain ⟨constant', hwants', hindex'⟩ := h'
  rw [← hwants.unique hwants', hindex] at hindex'
  exact (Option.some.inj hindex').symm

/-- A call that finds all that it needs returns the index of its entry, and adds nothing. -/
theorem run_change_of_holds (hsound : pool.Sound) (hindex : addition.IsAt index pool)
    (hfits : ∀ needed ∈ addition.needs, needed.Fits)
    (hholds : ∀ needed ∈ addition.needs, pool.Holds needed) :
    addition.change.run pool = (.ok index, pool) := by
  have hnothing : Filled addition.needs pool pool := .of_holds hsound hfits hholds
  rcases addition.fills_change pool hsound trivial with
    ⟨index', after, hgives, hfilled, hindex'⟩ | ⟨-, hover⟩
  · have hsize : after.size = pool.size := hfilled.size.trans hnothing.size.symm
    obtain rfl := hfilled.grows.eq_of_size hsize
    obtain rfl := hindex.unique hindex'
    exact hgives
  · exact absurd hover hnothing.not_overflows

end Addition

/-- What an index that has been handed out stands for, in every pool that can come about later: it
leads to the texts of the call, and the same call returns it again and adds nothing. And when a call
is refused: if a text is too long, or more entries are missing than there are slots left. -/
theorem resolves_of_reachable (h : pool.Reachable) (addition : Addition) :
    (∀ index, (addition.change.run pool).1 = .ok index → ∀ calls : List Addition,
      addition.Resolves index ((addition.change.run pool).2.afterCalls calls) ∧
      addition.change.run ((addition.change.run pool).2.afterCalls calls) =
        (.ok index, (addition.change.run pool).2.afterCalls calls)) ∧
    ((∃ error, (addition.change.run pool).1 = .error error) ↔
      (∃ text ∈ addition.texts, maxCount < (ModifiedUtf8.encode text).length) ∨
        maxCount < pool.size + (pool.missing addition.needs).card) := by
  have hsound := h.sound
  have hovers : pool.Overflows addition.needs ↔
      (∃ text ∈ addition.texts, maxCount < (ModifiedUtf8.encode text).length) ∨
        maxCount < pool.size + (pool.missing addition.needs).card := by
    rw [Overflows, Addition.exists_not_fits_iff]
  rw [← hovers]
  rcases addition.fills_change pool hsound trivial with
    ⟨found, after, hgives, hfilled, hfound⟩ | ⟨⟨what, count, hlimit⟩, hover⟩
  · obtain ⟨hvalue, rfl⟩ := gives_iff.mp hgives
    constructor
    · intro index hindex calls
      obtain rfl : found = index := Except.ok.inj (hvalue.symm.trans hindex)
      obtain ⟨hlater, hgrows⟩ := hfilled.sound.afterCalls calls
      have hindex' := hfound.grow hgrows
      have hholds (needed : Addition) (hneeded : needed ∈ addition.needs) :=
        ((hfilled.holds needed).mpr (.inr hneeded)).grow hgrows
      exact ⟨(hindex'.found hlater.size_le).resolves,
        Addition.run_change_of_holds hlater hindex' hfilled.fits hholds⟩
    · rw [hvalue]
      exact iff_of_false (by simp) hfilled.not_overflows
  · rw [hlimit]
    constructor
    · intro index hindex
      cases hindex
    · exact iff_of_true ⟨_, rfl⟩ hover

theorem resolves_of_reachable_samples :
    (((Addition.class "E").change.run empty).2.Reachable ∧
      ((Addition.fieldRef "E" "$VALUES" "[LE;").change.run
        ((Addition.class "E").change.run empty).2).1 = .ok 6 ∧
      ((Addition.fieldRef "E" "$VALUES" "[LE;").change.run
        ((Addition.class "E").change.run empty).2).2.memberReference 6 =
          .ok ⟨"E", "$VALUES", "[LE;"⟩) ∧
    ∃ error, ((Addition.text (String.ofList (List.replicate 65536 'a'))).change.run empty).1 =
      .error error := by
  have hreachable : ((Addition.class "E").change.run empty).2.Reachable :=
    .added (.class "E") .empty
  have hindex : ((Addition.fieldRef "E" "$VALUES" "[LE;").change.run
      ((Addition.class "E").change.run empty).2).1 = .ok 6 := by
    decide +kernel
  have hlong : (ModifiedUtf8.encode (String.ofList (List.replicate 65536 'a'))).length = 65536 := by
    have hchar : ModifiedUtf8.encodeChar 'a' = [97] := by decide
    rw [ModifiedUtf8.encode_eq_flatMap, String.toList_ofList, List.flatMap_replicate, hchar,
      List.flatten_replicate_singleton, List.length_replicate]
  refine ⟨⟨hreachable, hindex, ((resolves_of_reachable hreachable _).1 6 hindex []).1⟩, ?_⟩
  refine (resolves_of_reachable .empty _).2.mpr (.inl ⟨_, List.mem_singleton_self _, ?_⟩)
  rw [hlong]
  decide

end ClassThaw.ConstantPool
