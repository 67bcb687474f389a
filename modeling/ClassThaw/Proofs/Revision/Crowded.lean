import ClassThaw.Proofs.Revision.Failure

namespace ClassThaw.ClassFile

variable {file : ClassFile} {methods : List Method} {position : Nat} {constructors : List Nat}
  {className name descriptor : String}

/-- The class with other methods. -/
def withMethods (file : ClassFile) (methods : List Method) : ClassFile := { file with methods }

/-- A class may have each of its methods as often as one likes, up to the limit. -/
theorem exists_parse_withMethods {bytes : Bytes} (hparse : parse bytes = .ok file)
    (hsubset : methods ⊆ file.methods) (hcount : methods.length < 0x10000) :
    ∃ bytes', parse bytes' = .ok (file.withMethods methods) := by
  obtain ⟨hwellFormed, hreadable, hserialize⟩ := parse_eq_ok_iff.mp hparse
  obtain ⟨hpool, hindexed⟩ := check_eq_ok_iff.mp (check_bind_eq_ok_iff.mp hserialize).1
  have hfits := fits_of_parse hparse
  have hcheck' : (file.withMethods methods).check = .ok () :=
    check_eq_ok_iff.mpr ⟨hpool, { hindexed with
      methods := fun method hmethod => hindexed.methods method (hsubset hmethod) }⟩
  have hfits' : (file.withMethods methods).Fits :=
    { hfits with methods :=
        ⟨hcount, fun method hmethod => hfits.methods.2 method (hsubset hmethod)⟩ }
  obtain ⟨hclass, hfields, hmethods⟩ := forall_mem_allAttributes.mp hreadable.attributes
  have hattributes : ∀ item ∈ (file.withMethods methods).allAttributes,
      item.IsReadable file.pool :=
    forall_mem_allAttributes.mpr
      ⟨hclass, hfields, fun method hmethod => hmethods method (hsubset hmethod)⟩
  obtain ⟨bytes', hserialize', -⟩ := (serialize_of_check hcheck').1 hfits'
  exact ⟨bytes', parse_eq_ok_iff.mpr ⟨hwellFormed, ⟨hreadable.supported, hattributes⟩, hserialize'⟩⟩

/-- An enum that can be opened has a constructor, and can be opened as long as it has one. -/
theorem exists_enumShape_withMethods (hcheck : file.check = .ok ())
    (h : file.enumShape = .ok (.extensible position constructors)) :
    ∃ method ∈ file.methods, ∀ methods ⊆ file.methods, method ∈ methods →
      ∃ constructors', (file.withMethods methods).enumShape =
        .ok (.extensible position constructors') := by
  have hmethods := (check_eq_ok_iff.mp hcheck).2.methods
  obtain ⟨hisEnum, hclass, hvalues, hplaces, hsome⟩ := enumShape_eq_extensible_iff.mp h
  obtain ⟨method, hmethod, hconstructor⟩ :=
    (exists_constructors_iff hmethods).mp ⟨constructors, hplaces, hsome⟩
  refine ⟨method, hmethod, ?_⟩
  intro methods hsubset hkept
  have hmethods' : ∀ method ∈ (file.withMethods methods).methods, method.check file.pool = .ok () :=
    fun method hmethod => hmethods method (hsubset hmethod)
  obtain ⟨places, hplaces', hsome'⟩ :=
    (exists_constructors_iff hmethods').mpr ⟨method, hkept, hconstructor⟩
  exact ⟨places, enumShape_eq_extensible_iff.mpr ⟨hisEnum, hclass, hvalues, hplaces', hsome'⟩⟩

theorem lacksAppend_withMethods (hsubset : methods ⊆ file.methods)
    (h : file.lacksAppend className = true) :
    (file.withMethods methods).lacksAppend className = true := by
  rw [lacksAppend, findMethod?, List.findIdx?_isNone, List.all_eq_true] at h ⊢
  exact fun method hmethod => h method (hsubset hmethod)

/-- For every enum that lacks the method and can be opened there is one that has as many methods as
a class can have. -/
theorem exists_crowded {bytes : Bytes} (hparse : parse bytes = .ok file)
    (hopenable : file.IsOpenable className name descriptor) (hadmits : file.AdmitsOpening)
    (hlacks : file.lacksAppend className = true) :
    ∃ bytes' crowded, parse bytes' = .ok crowded ∧
      crowded.IsOpenable className name descriptor ∧ crowded.AdmitsOpening ∧
      crowded.lacksAppend className = true ∧ crowded.methods.length = 65535 := by
  obtain ⟨position, constructors, field, hshape, hname, hfield, hnameText, hdescriptor⟩ :=
    id hopenable
  obtain ⟨method, hmethod, hshapes⟩ :=
    exists_enumShape_withMethods (check_of_parse hparse) hshape
  have hsubset : List.replicate 65535 method ⊆ file.methods := by
    intro found hfound
    rwa [List.eq_of_mem_replicate hfound]
  have hlength : (List.replicate 65535 method).length = 65535 := List.length_replicate
  have hkept : method ∈ List.replicate 65535 method := List.mem_replicate.mpr ⟨by decide, rfl⟩
  obtain ⟨constructors', hshape'⟩ := hshapes _ hsubset hkept
  obtain ⟨bytes', hparse'⟩ := exists_parse_withMethods hparse hsubset (by omega)
  have hlacks' := lacksAppend_withMethods hsubset hlacks
  have hopenable' : (file.withMethods (List.replicate 65535 method)).IsOpenable className name
      descriptor :=
    ⟨position, constructors', field, hshape', hname, hfield, hnameText, hdescriptor⟩
  refine ⟨bytes', _, hparse', hopenable', ?_, hlacks', hlength⟩
  -- The reasons to refuse it depend on the pool only, as both classes lack the method.
  intro className' name' descriptor' hother
  obtain ⟨rfl, rfl, rfl⟩ := hopenable'.unique hother
  obtain ⟨hroom, hagrees⟩ := hadmits className' name' descriptor' hopenable
  exact ⟨fun h => hroom ⟨hlacks, h.2⟩, hagrees⟩

end ClassThaw.ClassFile
