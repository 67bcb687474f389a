import ClassThaw.Proofs.EnumRule.Target
import ClassThaw.Proofs.Revision.Frame

namespace ClassThaw

open ModifiedUtf8 (restored)

namespace Settings

variable {before after : ClassFile} {settings : Settings} {className : String}
  {mutations : Mutations}

/-- A method is added only by the enum rule, to a class that the holder rule may have changed. -/
theorem Revises.exists_opens (hsound : before.pool.Sound) (hcheck : before.check = .ok ())
    (h : settings.Revises className before mutations after)
    (hadded : mutations.enumPatch.appendAdded = true) :
    ∃ position constructors, before.enumShape = .ok (.extensible position constructors) ∧
      (settings.thaw className before).Opens position mutations.enumPatch after := by
  have houtcome := h.enumPatch
  split at houtcome
  case isFalse =>
    rw [houtcome.1] at hadded
    cases hadded
  case isTrue =>
    generalize hpatch : mutations.enumPatch = patch at houtcome hadded
    cases houtcome with
    | notEnum | leftAlone => cases hadded
    | @opened position constructors _ _ hshape hopens =>
      have hsame := enumShape_thaw settings.toHolderRules className hsound hcheck
      exact ⟨position, constructors, hsame.symm.trans hshape, hopens⟩

/-- The method that is added is behind the others, and appends to the field that was chosen of the
class that it is added to, provided that the names of both are stored in the form that texts are
stored in. Otherwise it refers to what such names are read as. -/
theorem target_of_revise {bytes revised : Bytes} {log reported : Array Event}
    (h : Gives (settings.revise className bytes) log (.modified revised mutations) reported)
    (hadded : mutations.enumPatch.appendAdded = true) :
    ∃ before after position constructors field owner name descriptor existing method,
      ClassFile.parse bytes = .ok before ∧ ClassFile.parse revised = .ok after ∧
      before.enumShape = .ok (.extensible position constructors) ∧
      before.fields[position]? = some field ∧
      before.pool.NamesClass before.thisClass owner ∧
      before.pool.utf8Bytes field.name = .ok name ∧
      before.pool.utf8Bytes field.descriptor = .ok descriptor ∧
      after.methods = existing ++ [method] ∧ existing.length = before.methods.length ∧
      method.AppendsTo after.pool (restored owner) (restored name) (restored descriptor) ∧
      (method.AppendsTo after.pool owner name descriptor ↔
        ∀ stored ∈ [owner, name, descriptor], ∃ text, ModifiedUtf8.encode text = stored) := by
  obtain ⟨before, after, _, hparse, hparse', -, hrevises, -⟩ := exists_of_gives_modified h
  have hsound := ConstantPool.sound_of_parse hparse
  have hcheck := ClassFile.check_of_parse hparse
  have hpool : (settings.thaw className before).pool.Sound := hsound
  obtain ⟨position, constructors, hshape, hopens⟩ := hrevises.exists_opens hsound hcheck hadded
  obtain ⟨thawed, owner, name, descriptor, method, hthawed, howner, hname, hdescriptor, hmethods,
    happends⟩ := hopens.appendsTo hpool hadded
  obtain ⟨field, hfield, hreflagged⟩ := HolderRules.exists_field_of_thaw hthawed
  rw [hreflagged.name] at hname
  rw [hreflagged.descriptor] at hdescriptor
  have hlength : ((settings.thaw className before).withOpenMembers position).methods.length =
      before.methods.length :=
    List.length_map _
  refine ⟨before, after, position, constructors, field, owner, name, descriptor, _, method, hparse,
    hparse', hshape, hfield, howner, hname, hdescriptor, hmethods, hlength, happends, ?_⟩
  simp only [← ModifiedUtf8.restored_eq_self_iff]
  constructor
  · intro hraw
    obtain ⟨howner', hname', hdescriptor'⟩ := hraw.unique happends
    exact List.forall_mem_cons.mpr ⟨howner',
      List.forall_mem_cons.mpr ⟨hname', List.forall_mem_singleton.mpr hdescriptor'⟩⟩
  · intro hstored
    obtain ⟨howner', hrest⟩ := List.forall_mem_cons.mp hstored
    obtain ⟨hname', hdescriptor'⟩ := List.forall_mem_cons.mp hrest
    rwa [howner', hname', List.forall_mem_singleton.mp hdescriptor'] at happends

def surrogateRevisedBytes : Bytes :=
  [202, 254, 186, 190, 0, 0, 0, 52, 0, 24, 1, 0, 3, 237, 160, 128, 7, 0, 1, 1, 0, 14, 106, 97, 118,
    97, 47, 108, 97, 110, 103, 47, 69, 110, 117, 109, 7, 0, 3, 1, 0, 7, 36, 86, 65, 76, 85, 69, 83,
    1, 0, 6, 91, 76, 237, 160, 128, 59, 1, 0, 6, 60, 105, 110, 105, 116, 62, 1, 0, 3, 40, 41, 86, 1,
    0, 3, 239, 191, 189, 7, 0, 9, 1, 0, 6, 91, 76, 239, 191, 189, 59, 12, 0, 5, 0, 11, 9, 0, 10, 0,
    12, 1, 0, 16, 106, 97, 118, 97, 47, 117, 116, 105, 108, 47, 65, 114, 114, 97, 121, 115, 7, 0,
    14, 1, 0, 6, 99, 111, 112, 121, 79, 102, 1, 0, 41, 40, 91, 76, 106, 97, 118, 97, 47, 108, 97,
    110, 103, 47, 79, 98, 106, 101, 99, 116, 59, 73, 41, 91, 76, 106, 97, 118, 97, 47, 108, 97, 110,
    103, 47, 79, 98, 106, 101, 99, 116, 59, 12, 0, 16, 0, 17, 10, 0, 15, 0, 18, 7, 0, 11, 1, 0, 4,
    67, 111, 100, 101, 1, 0, 13, 36, 97, 100, 100, 69, 110, 117, 109, 86, 97, 108, 117, 101, 1, 0,
    8, 40, 76, 239, 191, 189, 59, 41, 86, 64, 49, 0, 2, 0, 4, 0, 0, 0, 1, 16, 10, 0, 5, 0, 6, 0, 0,
    0, 2, 0, 1, 0, 7, 0, 8, 0, 0, 16, 41, 0, 22, 0, 23, 0, 1, 0, 21, 0, 0, 0, 38, 0, 3, 0, 3, 0, 0,
    0, 26, 178, 0, 13, 76, 43, 43, 190, 4, 96, 184, 0, 19, 192, 0, 20, 77, 44, 43, 190, 42, 83, 44,
    179, 0, 13, 177, 0, 0, 0, 0, 0, 0]

theorem gives_revise_surrogateSample :
    Gives (({} : Settings).revise "n" surrogateSampleBytes) #[]
      (.modified surrogateRevisedBytes
        { enumPatch := { valuesOpened := true, constructorsOpened := 1, appendAdded := true } })
      #[.enumOpened "n"] := by
  decide +kernel

theorem target_of_revise_samples :
    (Gives (({} : Settings).revise "E" enumSampleBytes) #[]
      (.modified openedSampleBytes
        { enumPatch := { valuesOpened := true, constructorsOpened := 1, appendAdded := true } })
      #[.enumOpened "E"] ∧
    ∃ after method name descriptor, ClassFile.parse openedSampleBytes = .ok after ∧
      after.methods.getLast? = some method ∧ method.AppendsTo after.pool [69] name descriptor) ∧
    Gives (({} : Settings).revise "n" surrogateSampleBytes) #[]
      (.modified surrogateRevisedBytes
        { enumPatch := { valuesOpened := true, constructorsOpened := 1, appendAdded := true } })
      #[.enumOpened "n"] ∧
    ClassFile.parse surrogateSampleBytes = .ok surrogateSample ∧
    surrogateSample.pool.NamesClass surrogateSample.thisClass [0xED, 0xA0, 0x80] ∧
    ∃ after method, ClassFile.parse surrogateRevisedBytes = .ok after ∧
      after.methods.getLast? = some method ∧
      ∀ name descriptor, ¬ method.AppendsTo after.pool [0xED, 0xA0, 0x80] name descriptor := by
  have hparse : ClassFile.parse enumSampleBytes = .ok enumSample := by decide +kernel
  have hparse' : ClassFile.parse surrogateSampleBytes = .ok surrogateSample := by decide +kernel
  have howner : enumSample.pool.NamesClass enumSample.thisClass [69] :=
    ⟨1, by decide +kernel, by decide +kernel⟩
  have howner' : surrogateSample.pool.NamesClass surrogateSample.thisClass [0xED, 0xA0, 0x80] :=
    ⟨1, by decide +kernel, by decide +kernel⟩
  refine ⟨⟨gives_revise_enumSample, ?_⟩, gives_revise_surrogateSample, hparse', howner', ?_⟩
  · obtain ⟨before, after, _, _, _, owner, name, descriptor, existing, method, hbefore, hafter,
      -, -, hnames, -, -, hmethods, -, happends, -⟩ := target_of_revise gives_revise_enumSample rfl
    obtain rfl := Except.ok.inj (hparse.symm.trans hbefore)
    obtain rfl := howner.unique hnames
    have hrestored : restored [69] = [69] := by decide +kernel
    rw [hrestored] at happends
    exact ⟨after, method, _, _, hafter, by rw [hmethods, List.getLast?_concat], happends⟩
  · obtain ⟨before, after, _, _, _, owner, _, _, existing, method, hbefore, hafter, -, -,
      hnames, -, -, hmethods, -, happends, -⟩ := target_of_revise gives_revise_surrogateSample rfl
    obtain rfl := Except.ok.inj (hparse'.symm.trans hbefore)
    obtain rfl := howner'.unique hnames
    refine ⟨after, method, hafter, by rw [hmethods, List.getLast?_concat], ?_⟩
    intro name descriptor hraw
    have hlost : restored [0xED, 0xA0, 0x80] ≠ [0xED, 0xA0, 0x80] := by decide +kernel
    exact hlost (hraw.unique happends).1

end Settings

end ClassThaw
