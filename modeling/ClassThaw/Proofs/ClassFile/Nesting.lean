import ClassThaw.Proofs.Attribute.Enclosure
import ClassThaw.Proofs.ClassFile.Truncation
import ClassThaw.Proofs.Reader.Agreement

namespace ClassThaw

open Reader

namespace Attribute

variable {pool : ConstantPool} {nested nested' : Reader (List Attribute)}

/-- The attributes of a method body come behind the ten bytes that it has at least. -/
theorem content_code_congr {bytes : Bytes}
    (h : AgreeWithin (bytes.length - 10) nested nested') :
    content .code (Prod.mk <$> readBody pool <*> nested) bytes =
      content .code (Prod.mk <$> readBody pool <*> nested') bytes := by
  apply readAll_congr
  rw [seq_eq_bind_map, seq_eq_bind_map]
  apply bind_congr_of_ok
  intro make after hrun
  obtain ⟨front, ⟨body, ⟨-, hbody⟩, -⟩, hlength⟩ :=
    Reads.length_of_ok (fun _ => reads_readBody.map Prod.mk) hrun
  have hfront : 10 ≤ front.length := by
    rw [body.sized_write.length_eq front hbody, MethodBody.size]
    omega
  have hafter : after.rest.length ≤ bytes.length - 10 := by
    change bytes.length = _ at hlength
    omega
  exact map_congr_of_eq (h after hafter)

theorem ofContent_congr {name : UInt16} {kind? : Option AttributeKind} {bytes : Bytes}
    (h : AgreeWithin (bytes.length - 10) nested nested') :
    ofContent pool nested name kind? bytes = ofContent pool nested' name kind? bytes := by
  cases kind? with
  | none => rfl
  | some kind =>
    cases kind with
    | code => rw [ofContent, ofContent, content_code_congr h]
    | _ => rfl

/-- What an attribute makes of the reader for the attributes in it depends on the bytes that its
length allows to be left for them. -/
theorem readWith_congr {cursor : Cursor}
    (h : ∀ length < 0x100000000, length + 6 ≤ cursor.rest.length →
      AgreeWithin (length - 10) nested nested') :
    readWith pool nested cursor = readWith pool nested' cursor := by
  rw [readWith, readWith]
  apply bind_congr_of_ok
  intro name afterName hname
  apply bind_congr_of_ok
  intro text afterText htext
  apply bind_congr_of_ok
  intro length afterLength hlength
  apply bind_congr_of_ok
  intro bytes after hbytes
  have hname := length_of_word16 hname
  have htext : afterText.rest.length ≤ afterName.rest.length := length_le_of_streams htext
  have hlength := length_of_word32 hlength
  obtain ⟨hcount, htake⟩ := length_of_take hbytes
  have hnested : AgreeWithin (bytes.length - 10) nested nested' :=
    h bytes.length (hcount ▸ length.toNat_lt) (by omega)
  rw [ofContent_congr hnested]

/-- An attribute that is a method body has sixteen bytes in front of the attributes in it. -/
theorem AgreeWithin.readWith {bound : Nat} (h : AgreeWithin bound nested nested') :
    AgreeWithin (bound + 16) (Attribute.readWith pool nested) (Attribute.readWith pool nested') :=
  fun _ hlength => readWith_congr fun _ _ hle => h.mono (by omega)

/-- Whatever the depth is, reading a table begins with its count. -/
theorem readNested_of_error {cursor : Cursor} {error : FormatError}
    (h : word16 cursor = .error error) (depth : Nat) :
    readNested pool depth cursor = .error error := by
  cases depth with
  | zero => exact bind_eq_of_error h
  | succ depth => exact bind_eq_of_error h

/-- Each method body takes eighteen bytes before another one can begin in it, so that few bytes
are read in the same way with every depth that is large enough for them. -/
theorem agreeWithin_readNested (levels : Nat) : ∀ depth depth', levels ≤ depth → levels ≤ depth' →
    AgreeWithin (18 * levels + 1) (readNested pool depth) (readNested pool depth') := by
  induction levels with
  | zero =>
    intro depth depth' _ _ cursor hlength
    obtain ⟨error, herror⟩ := exists_error_of_word16 (Nat.lt_succ_of_le hlength)
    rw [readNested_of_error herror, readNested_of_error herror]
  | succ levels ih =>
    intro depth depth' hdepth hdepth'
    obtain ⟨depth, rfl⟩ := Nat.exists_eq_add_of_lt hdepth
    obtain ⟨depth', rfl⟩ := Nat.exists_eq_add_of_lt hdepth'
    have hnested := ih (levels + depth) (levels + depth') (Nat.le_add_right _ _)
      (Nat.le_add_right _ _)
    exact (AgreeWithin.readWith hnested).table

/-- The depth at which reading stops makes no difference to any input. -/
theorem readNested_eq_readTable {depth : Nat} (h : maxBodyDepth + 2 ≤ depth) :
    readNested pool depth = readTable pool := by
  obtain ⟨depth, rfl⟩ := Nat.exists_eq_add_of_lt h
  funext cursor
  have hlevels : maxBodyDepth + 1 ≤ 0xFFFFFFFF := by decide
  have hnested := @agreeWithin_readNested pool (maxBodyDepth + 1) (maxBodyDepth + 1 + depth)
    0xFFFFFFFF (Nat.le_add_right _ _) hlevels
  have hitem : AgreeWithin cursor.rest.length
      (readWith pool (readNested pool (maxBodyDepth + 1 + depth)))
      (readWith pool (readNested pool 0xFFFFFFFF)) := by
    intro cursor' _
    apply readWith_congr
    intro length hlength _
    apply hnested.mono
    rw [maxBodyDepth]
    omega
  exact hitem.table cursor (Nat.le_add_right _ _)

end Attribute

namespace ClassFile

/-- The attributes of a class and of its members, without those inside them. -/
def outerAttributes (file : ClassFile) : List Attribute :=
  file.attributes ++ file.fields.flatMap Member.attributes ++
    file.methods.flatMap Member.attributes

theorem mem_allAttributes_iff {file : ClassFile} {item : Attribute} :
    item ∈ file.allAttributes ↔
      ∃ outer ∈ file.outerAttributes, ∃ count, item.LiesIn count outer := by
  simp only [← Attribute.mem_within_iff, allAttributes, Attribute.withinAll_eq_flatMap,
    List.mem_flatMap, outerAttributes]

/-- Some method body of the class has this many method bodies around it. -/
def NestsBodies (file : ClassFile) (count : Nat) : Prop :=
  ∃ outer ∈ file.outerAttributes, ∃ item : Attribute,
    item.kind? = some .code ∧ item.LiesIn count outer

theorem Fits.outer {file : ClassFile} (h : file.Fits) :
    ∀ outer ∈ file.outerAttributes, outer.Fits := by
  rw [outerAttributes, List.forall_mem_append, List.forall_mem_append, List.forall_mem_flatMap,
    List.forall_mem_flatMap]
  exact ⟨⟨h.attributes.2, fun field hfield => (h.fields.2 field hfield).2⟩,
    fun method hmethod => (h.methods.2 method hmethod).2⟩

theorem NestsBodies.le_maxBodyDepth {file : ClassFile} {count : Nat} (h : file.NestsBodies count)
    (hfits : file.Fits) : count ≤ Attribute.maxBodyDepth := by
  obtain ⟨outer, houter, item, hkind, hitem⟩ := h
  exact hitem.le_maxBodyDepth hkind (hfits.outer outer houter)

/-- Some annotation of the class has this depth. -/
def NestsAnnotations (file : ClassFile) (depth : Nat) : Prop :=
  ∃ item ∈ file.allAttributes, ∃ info ∈ item.annotations, info.depth = depth

/-- A class with a method body in this many others, and an annotation of this depth. -/
def nestedSample (depth count : Nat) : ClassFile :=
  { addedSample with
    pool := ((ConstantPool.Addition.text "RuntimeVisibleAnnotations").change.run
      ((ConstantPool.Addition.text "Code").change.run addedSample.pool).2).2
    attributes := [Attribute.tower 3 count,
      .visibleAnnotations 4 [AnnotationInfo.tower 1 depth]] }

section nestedSample

variable {depth count : Nat}

theorem nestsBodies_nestedSample : (nestedSample depth count).NestsBodies count :=
  ⟨Attribute.tower 3 count, List.mem_cons_self, Attribute.tower 3 0, rfl,
    Attribute.liesIn_tower 3 count⟩

theorem nestsAnnotations_nestedSample : (nestedSample depth count).NestsAnnotations depth := by
  refine ⟨.visibleAnnotations 4 [AnnotationInfo.tower 1 depth], ?_, AnnotationInfo.tower 1 depth,
    List.mem_singleton_self _, AnnotationInfo.depth_tower 1 depth⟩
  exact mem_allAttributes_iff.mpr ⟨_, List.mem_cons_of_mem _ List.mem_cons_self, 0, .itself⟩

theorem check_nestedSample (hpool : (nestedSample depth count).pool.check = .ok ()) :
    (nestedSample depth count).check = .ok () := by
  have hcode : Attribute.checkName (nestedSample 0 0).pool 3 (some .code) = .ok () := by
    decide +kernel
  have hvisible : Attribute.checkName (nestedSample 0 0).pool 4 (some .visibleAnnotations) =
      .ok () := by
    decide +kernel
  have hthis : (nestedSample 0 0).pool.checkClass 2 = .ok () := by decide +kernel
  have htext : (nestedSample 0 0).pool.checkUtf8 1 = .ok () := by decide +kernel
  refine check_eq_ok_iff.mpr ⟨hpool, hthis, rfl, List.forall_mem_nil _, List.forall_mem_nil _,
    List.forall_mem_nil _, Attribute.checkAll_eq_ok_iff.mpr (List.forall_mem_cons.mpr
      ⟨Attribute.check_tower hcode count, List.forall_mem_singleton.mpr ?_⟩)⟩
  rw [Attribute.check, check_bind_eq_ok_iff, check_forM_eq_ok_iff]
  exact ⟨hvisible, List.forall_mem_singleton.mpr (AnnotationInfo.check_tower htext depth)⟩

theorem fits_nestedSample (hpool : (nestedSample depth count).pool.size < 0x10000)
    (hdepth : depth ≤ maxAnnotationDepth) (hcount : count ≤ Attribute.maxBodyDepth) :
    (nestedSample depth count).Fits := by
  have hsize := AnnotationInfo.size_tower_le 1 depth
  have hlimit : depth ≤ 64 := hdepth
  have hvisible :
      (Attribute.visibleAnnotations 4 [AnnotationInfo.tower 1 depth]).Fits := by
    rw [Attribute.Fits, List.map_singleton, List.sum_singleton]
    exact ⟨⟨Nat.one_lt_succ_succ _,
      List.forall_mem_singleton.mpr (AnnotationInfo.fits_tower 1 depth)⟩, by omega⟩
  have hattributes : ∀ item ∈ (nestedSample depth count).attributes, item.Fits :=
    List.forall_mem_cons.mpr
      ⟨Attribute.fits_tower hcount, List.forall_mem_singleton.mpr hvisible⟩
  have hlength : (nestedSample depth count).attributes.length < 0x10000 :=
    (by decide : 2 < 0x10000)
  exact ⟨hpool, Nat.zero_lt_succ _, ⟨Nat.zero_lt_succ _, List.forall_mem_nil _⟩,
    ⟨Nat.zero_lt_succ _, List.forall_mem_nil _⟩, hlength, hattributes⟩

theorem isReadable_nestedSample (hdepth : depth ≤ maxAnnotationDepth) :
    (nestedSample depth count).IsReadable := by
  refine ⟨rfl, forall_mem_allAttributes.mpr ⟨?_, List.forall_mem_nil _, List.forall_mem_nil _⟩⟩
  rw [Attribute.withinAll_eq_flatMap, List.forall_mem_flatMap]
  refine List.forall_mem_cons.mpr ⟨Attribute.isReadable_tower _ 3 count,
    List.forall_mem_singleton.mpr (List.forall_mem_singleton.mpr ⟨id, ?_⟩)⟩
  exact List.forall_mem_singleton.mpr ((AnnotationInfo.depth_tower 1 depth).trans_le hdepth)

theorem exists_parse_nestedSample (hdepth : depth ≤ maxAnnotationDepth)
    (hcount : count ≤ Attribute.maxBodyDepth) :
    ∃ bytes, parse bytes = .ok (nestedSample depth count) := by
  have hpool : (nestedSample depth count).pool.Reachable :=
    .added (.text "RuntimeVisibleAnnotations") (.added (.text "Code") (.added (.class "E") .empty))
  have hsound := hpool.sound
  have hfits := fits_nestedSample hsound.size_lt hdepth hcount
  obtain ⟨bytes, hbytes, -⟩ := (serialize_of_check (check_nestedSample hsound.check)).1 hfits
  exact ⟨bytes,
    parse_eq_ok_iff.mpr ⟨hsound.wellFormed, isReadable_nestedSample hdepth, hbytes⟩⟩

end nestedSample

/-- In every class that has been read, the nesting of annotations and that of method bodies keep to
one bound. Checking and writing go from an attribute to the attributes in it, so no more than so
many steps of theirs are under way at once. -/
theorem exists_bound_of_parse : ∃ bound, ∀ bytes file, parse bytes = .ok file →
    (∀ depth, file.NestsAnnotations depth → depth ≤ bound) ∧
    (∀ count, file.NestsBodies count → count ≤ bound) ∧
    ∀ outer ∈ file.outerAttributes, ∀ item count, Attribute.LiesIn item count outer →
      count ≤ bound + 1 := by
  refine ⟨Attribute.maxBodyDepth, ?_⟩
  intro bytes file hparse
  have hfits := fits_of_parse hparse
  refine ⟨?_, fun count hnests => hnests.le_maxBodyDepth hfits, ?_⟩
  · rintro _ ⟨item, hitem, info, hinfo, rfl⟩
    obtain ⟨-, hreadable, -⟩ := parse_eq_ok_iff.mp hparse
    have hlimit : maxAnnotationDepth ≤ Attribute.maxBodyDepth := by decide
    exact ((hreadable.attributes item hitem).shallow info hinfo).trans hlimit
  · intro outer houter item count hitem
    exact hitem.le_succ_maxBodyDepth (hfits.outer outer houter)

/-- How deep a class that has been read is nested: its annotations go no deeper than their limit,
and its method bodies no deeper than the lengths of their contents allow, and both go as deep in
some class. So one bound holds for both in every class, and with it for the steps of checking and
writing that are under way at once, which go from an attribute to the attributes in it. No input, be
it a class file or not, takes reading any deeper, since reading goes on in the same way whichever
larger depth it would stop at. -/
theorem nesting_of_parse :
    (∀ depth, (∃ bytes file, parse bytes = .ok file ∧ file.NestsAnnotations depth) ↔
      depth ≤ maxAnnotationDepth) ∧
    (∀ count, (∃ bytes file, parse bytes = .ok file ∧ file.NestsBodies count) ↔
      count ≤ Attribute.maxBodyDepth) ∧
    (∃ bound, ∀ bytes file, parse bytes = .ok file →
      (∀ depth, file.NestsAnnotations depth → depth ≤ bound) ∧
      (∀ count, file.NestsBodies count → count ≤ bound) ∧
      ∀ outer ∈ file.outerAttributes, ∀ item count, Attribute.LiesIn item count outer →
        count ≤ bound + 1) ∧
    ∀ pool depth, Attribute.maxBodyDepth + 2 ≤ depth →
      Attribute.readNested pool depth = Attribute.readTable pool := by
  refine ⟨?_, ?_, exists_bound_of_parse, fun pool depth => Attribute.readNested_eq_readTable⟩
  · intro depth
    constructor
    · rintro ⟨bytes, file, hparse, item, hitem, info, hinfo, rfl⟩
      obtain ⟨-, hreadable, -⟩ := parse_eq_ok_iff.mp hparse
      exact (hreadable.attributes item hitem).shallow info hinfo
    · intro hdepth
      obtain ⟨bytes, hparse⟩ := exists_parse_nestedSample hdepth (Nat.zero_le _)
      exact ⟨bytes, nestedSample depth 0, hparse, nestsAnnotations_nestedSample⟩
  · intro count
    constructor
    · rintro ⟨bytes, file, hparse, hnests⟩
      exact hnests.le_maxBodyDepth (fits_of_parse hparse)
    · intro hcount
      obtain ⟨bytes, hparse⟩ := exists_parse_nestedSample (Nat.zero_le _) hcount
      exact ⟨bytes, nestedSample 0 count, hparse, nestsBodies_nestedSample⟩

def nestedSampleBytes : Bytes :=
  [0xCA, 0xFE, 0xBA, 0xBE, 0, 0, 0, 52, 0, 5, 1, 0, 1, 69, 7, 0, 1, 1, 0, 4, 67, 111, 100, 101, 1,
    0, 25, 82, 117, 110, 116, 105, 109, 101, 86, 105, 115, 105, 98, 108, 101, 65, 110, 110, 111,
    116, 97, 116, 105, 111, 110, 115, 0, 0x21, 0, 2, 0, 0, 0, 0, 0, 0, 0, 0, 0, 2, 0, 3, 0, 0, 0,
    30, 0, 0, 0, 0, 0, 0, 0, 0, 0, 0, 0, 1, 0, 3, 0, 0, 0, 12, 0, 0, 0, 0, 0, 0, 0, 0, 0, 0, 0, 0,
    0, 4, 0, 0, 0, 14, 0, 1, 0, 1, 0, 1, 0, 1, 91, 0, 1, 99, 0, 1]

theorem nesting_of_parse_nestedSample :
    (parse nestedSampleBytes = .ok (nestedSample 2 1) ∧
      (nestedSample 2 1).NestsAnnotations 2 ∧ (nestedSample 2 1).NestsBodies 1) ∧
      2 ≤ maxAnnotationDepth ∧ 1 ≤ Attribute.maxBodyDepth ∧
      Attribute.readNested (nestedSample 2 1).pool (Attribute.maxBodyDepth + 2) =
        Attribute.readTable (nestedSample 2 1).pool := by
  have hparse : parse nestedSampleBytes = .ok (nestedSample 2 1) := by decide +kernel
  have hannotations : (nestedSample 2 1).NestsAnnotations 2 := nestsAnnotations_nestedSample
  have hbodies : (nestedSample 2 1).NestsBodies 1 := nestsBodies_nestedSample
  obtain ⟨hshallow, hfew, -, hreading⟩ := nesting_of_parse
  exact ⟨⟨hparse, hannotations, hbodies⟩, (hshallow 2).mp ⟨_, _, hparse, hannotations⟩,
    (hfew 1).mp ⟨_, _, hparse, hbodies⟩, hreading _ _ (Nat.le_refl _)⟩

end ClassFile

end ClassThaw
