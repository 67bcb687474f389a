import ClassThaw.Proofs.ClassFile.Size
import ClassThaw.Proofs.ConstantPool.Addition

namespace ClassThaw

/-- An enum with an array of values, a constructor, a constant of two slots and an attribute that is
not understood. -/
def enumSample : ClassFile where
  minor := 0
  major := 52
  pool := ⟨#[.unusable, .utf8 (ModifiedUtf8.encode "E"), .class 1,
    .utf8 (ModifiedUtf8.encode "$VALUES"), .utf8 (ModifiedUtf8.encode "[LE;"),
    .utf8 (ModifiedUtf8.encode "<init>"), .utf8 (ModifiedUtf8.encode "()V"), .long 7, .unusable]⟩
  access := ⟨0x4030⟩
  thisClass := 2
  superClass := 0
  interfaces := []
  fields := [⟨⟨0x101A⟩, 3, 4, []⟩]
  methods := [⟨⟨0x8002⟩, 5, 6, []⟩]
  attributes := [.raw 1 [1, 2, 3]]

def enumSampleBytes : Bytes :=
  [0xCA, 0xFE, 0xBA, 0xBE, 0, 0, 0, 52, 0, 9, 1, 0, 1, 69, 7, 0, 1, 1, 0, 7, 36, 86, 65, 76, 85, 69,
    83, 1, 0, 4, 91, 76, 69, 59, 1, 0, 6, 60, 105, 110, 105, 116, 62, 1, 0, 3, 40, 41, 86, 5, 0, 0,
    0, 0, 0, 0, 0, 7, 0x40, 0x30, 0, 2, 0, 0, 0, 0, 0, 1, 0x10, 0x1A, 0, 3, 0, 4, 0, 0, 0, 1, 0x80,
    2, 0, 5, 0, 6, 0, 0, 0, 1, 0, 1, 0, 0, 0, 3, 1, 2, 3]

namespace ClassFile

/-- A class that has been read passes its check and is written as the bytes it was read from. -/
theorem serialize_of_parse {bytes : Bytes} {file : ClassFile} (h : parse bytes = .ok file) :
    file.check = .ok () ∧ file.serialize = .ok bytes := by
  obtain ⟨-, -, hserialize⟩ := parse_eq_ok_iff.mp h
  have hcheck : file.check = .ok () := by
    rw [serialize, check_bind_eq_ok_iff] at hserialize
    exact hserialize.1
  exact ⟨hcheck, hserialize⟩

theorem serialize_of_parse_enumSample :
    parse enumSampleBytes = .ok enumSample ∧ enumSample.check = .ok () ∧
      enumSample.serialize = .ok enumSampleBytes := by
  have hparse : parse enumSampleBytes = .ok enumSample := by decide +kernel
  exact ⟨hparse, serialize_of_parse hparse⟩

theorem isSupported_iff {major : UInt16} : isSupported major = true ↔ 45 ≤ major ∧ major ≤ 69 := by
  simp [isSupported]

theorem isReadable_iff {file : ClassFile} : file.IsReadable ↔ (45 ≤ file.major ∧ file.major ≤ 69) ∧
    (∀ item ∈ file.allAttributes, ¬ item.IsDisguised file.pool) ∧
      ∀ item ∈ file.allAttributes, ∀ info ∈ item.annotations, info.depth ≤ maxAnnotationDepth := by
  rw [← isSupported_iff]
  constructor
  · rintro ⟨hmajor, hattributes⟩
    exact ⟨hmajor, fun item h => (hattributes item h).plain,
      fun item h => (hattributes item h).shallow⟩
  · rintro ⟨hmajor, hplain, hshallow⟩
    exact ⟨hmajor, fun item h => ⟨hplain item h, hshallow item h⟩⟩

/-- When a class in memory, whose pool has grown from one that was read or from nothing, comes back
from the bytes that are written for it; and that what is written for it holds no length that has
been cut. -/
theorem parse_of_serialize_iff {file : ClassFile} (hpool : file.pool.Reachable) :
    (∀ bytes, file.serialize = .ok bytes →
      (parse bytes = .ok file ↔ (45 ≤ file.major ∧ file.major ≤ 69) ∧
        (∀ item ∈ file.allAttributes, ¬ item.IsDisguised file.pool) ∧
        ∀ item ∈ file.allAttributes, ∀ info ∈ item.annotations,
          info.depth ≤ maxAnnotationDepth)) ∧
    (∀ bytes, file.serialize = .ok bytes →
      file.Fits ∧ ∀ constant ∈ file.pool.slots.toList, constant.Fits) ∧
    (file.check = .ok () → ¬ file.Fits → ∃ what count, 0x10000 ≤ count ∧
      file.serialize = .error (.limitExceeded what count)) := by
  have hwellFormed := hpool.sound.wellFormed
  refine ⟨?_, ?_, fun hcheck => (serialize_of_check hcheck).2⟩
  · intro bytes hbytes
    rw [parse_eq_ok_iff, isReadable_iff]
    exact ⟨fun h => h.2.1, fun h => ⟨hwellFormed, h, hbytes⟩⟩
  · intro bytes hbytes
    rw [serialize, check_bind_eq_ok_iff] at hbytes
    exact ⟨file.sized_writer.exists_iff.mp ⟨bytes, hbytes.2⟩, hwellFormed.fits⟩

/-- A class without anything, whose name has been added to the empty pool. -/
def addedSample : ClassFile where
  minor := 0
  major := 52
  pool := ((ConstantPool.Addition.class "E").change.run .empty).2
  access := ⟨0x21⟩
  thisClass := 2
  superClass := 0
  interfaces := []
  fields := []
  methods := []
  attributes := [.raw 1 [1, 2, 3]]

def addedSampleBytes : Bytes :=
  [0xCA, 0xFE, 0xBA, 0xBE, 0, 0, 0, 52, 0, 3, 1, 0, 1, 69, 7, 0, 1, 0, 0x21, 0, 2, 0, 0, 0, 0, 0, 0,
    0, 0, 0, 1, 0, 1, 0, 0, 0, 3, 1, 2, 3]

/-- The class with more interfaces than their count can tell. -/
def crowdedSample : ClassFile := { addedSample with interfaces := List.replicate 0x10000 2 }

theorem check_crowdedSample : crowdedSample.check = .ok () := by
  have hindexed : addedSample.pool.check = .ok () ∧ addedSample.IsIndexed :=
    check_eq_ok_iff.mp (by decide +kernel)
  obtain ⟨hpool, hthis, hsuper, -, hfields, hmethods, hattributes⟩ := hindexed
  refine check_eq_ok_iff.mpr ⟨hpool, hthis, hsuper, ?_, hfields, hmethods, hattributes⟩
  intro index hindex
  rw [List.eq_of_mem_replicate hindex]
  exact hthis

theorem parse_of_serialize_samples :
    (addedSample.serialize = .ok addedSampleBytes ∧ parse addedSampleBytes = .ok addedSample) ∧
      ∃ what count, 0x10000 ≤ count ∧
        crowdedSample.serialize = .error (.limitExceeded what count) := by
  have hpool : addedSample.pool.Reachable := .added (.class "E") .empty
  have hserialize : addedSample.serialize = .ok addedSampleBytes := by decide +kernel
  have hall : addedSample.allAttributes = [.raw 1 [1, 2, 3]] := rfl
  -- The only attribute is called `E`, like the class, and no kind has that name.
  have hplain : ¬ (Attribute.raw 1 [1, 2, 3]).IsDisguised addedSample.pool := by
    have htext : addedSample.pool.text 1 = .ok "E" := by decide +kernel
    rintro ⟨kind, hkind⟩
    rw [htext] at hkind
    have hnone : AttributeKind.ofName? "E" = none := by decide +kernel
    exact AttributeKind.ofName?_eq_none_iff.mp hnone kind (Except.ok.inj hkind)
  have hlarge : ¬ crowdedSample.Fits := by
    intro hfits
    have hlength := hfits.interfaces
    rw [crowdedSample, List.length_replicate] at hlength
    omega
  refine ⟨⟨hserialize, ?_⟩, ?_⟩
  · apply ((parse_of_serialize_iff hpool).1 _ hserialize).mpr
    rw [hall]
    exact ⟨by decide, List.forall_mem_singleton.mpr hplain,
      List.forall_mem_singleton.mpr (List.forall_mem_nil _)⟩
  · have hcrowded : crowdedSample.pool.Reachable := hpool
    exact (parse_of_serialize_iff hcrowded).2.2 check_crowdedSample hlarge

end ClassFile

end ClassThaw
