import ClassThaw.Proofs.Attribute.Layout
import ClassThaw.Proofs.ConstantPool.Layout

namespace ClassThaw

open Reader Writer

namespace Member

variable {F : Type} {bound : Nat} {pool : ConstantPool}

instance (member : Member F) : Appends member.write := by
  unfold Member.write
  infer_instance

theorem check_eq_ok_iff {member : Member F} : member.check pool = .ok () ↔
    pool.checkUtf8 member.name = .ok () ∧ pool.checkUtf8 member.descriptor = .ok () ∧
      Attribute.checkAll pool member.attributes = .ok () := by
  rw [check, check_bind_eq_ok_iff, check_bind_eq_ok_iff]

/-- A member is read if it passes its check and its attributes can be read back. -/
def Accepted (pool : ConstantPool) (member : Member F) : Prop :=
  (∀ item ∈ Attribute.withinAll member.attributes, item.IsReadable pool) ∧
    member.check pool = .ok ()

theorem reads_read : Reads bound (Member.read F pool) fun member bytes =>
    member.Accepted pool ∧ member.write.Writes bytes := by
  unfold Member.read
  apply (reads_word16.bind fun access => (reads_checked pool.checkUtf8).bind fun name =>
    (reads_checked pool.checkUtf8).bind fun descriptor =>
      Attribute.reads_readTable.bind_pure (Member.mk ⟨access⟩ name descriptor)).congr
  intro member bytes _
  unfold Member.write
  simp only [Accepted, check_eq_ok_iff, writes_bind, writes_word16]
  constructor
  · rintro ⟨access, _, _, rfl, ⟨name, _, _, ⟨hname, rfl⟩, ⟨descriptor, _, rest,
      ⟨hdescriptor, rfl⟩, ⟨attributes, ⟨⟨hreadable, hcheck⟩, hrest⟩, rfl⟩, rfl⟩, rfl⟩, rfl⟩
    exact ⟨⟨hreadable, hname, hdescriptor, hcheck⟩, _, _, rfl, ⟨_, _, rfl, ⟨_, rest, rfl, hrest,
      rfl⟩, rfl⟩, rfl⟩
  · rintro ⟨⟨hreadable, hname, hdescriptor, hcheck⟩, _, _, rfl, ⟨_, _, rfl, ⟨_, rest, rfl, hrest,
      rfl⟩, rfl⟩, rfl⟩
    exact ⟨member.access.bits, _, _, rfl, ⟨member.name, _, _, ⟨hname, rfl⟩, ⟨member.descriptor, _,
      rest, ⟨hdescriptor, rfl⟩, ⟨member.attributes, ⟨⟨hreadable, hcheck⟩, hrest⟩, rfl⟩, rfl⟩, rfl⟩,
      rfl⟩

end Member

namespace ClassFile

/-- The attributes of a class, of its members and of method bodies, at any depth. -/
def allAttributes (file : ClassFile) : List Attribute :=
  Attribute.withinAll (file.attributes ++ file.fields.flatMap Member.attributes ++
    file.methods.flatMap Member.attributes)

/-- The class can be read back from the bytes that are written for it. -/
structure IsReadable (file : ClassFile) : Prop where
  supported : isSupported file.major = true
  attributes : ∀ item ∈ file.allAttributes, item.IsReadable file.pool

/-- The indices of a class, except for those inside its pool, lead to entries of the right kind. -/
structure IsIndexed (file : ClassFile) : Prop where
  thisClass : file.pool.checkClass file.thisClass = .ok ()
  superClass : file.pool.checkOptionalClass file.superClass = .ok ()
  interfaces : ∀ index ∈ file.interfaces, file.pool.checkClass index = .ok ()
  fields : ∀ field ∈ file.fields, field.check file.pool = .ok ()
  methods : ∀ method ∈ file.methods, method.check file.pool = .ok ()
  attributes : Attribute.checkAll file.pool file.attributes = .ok ()

theorem check_eq_ok_iff {file : ClassFile} :
    file.check = .ok () ↔ file.pool.check = .ok () ∧ file.IsIndexed := by
  rw [check, check_bind_eq_ok_iff, check_bind_eq_ok_iff, check_bind_eq_ok_iff,
    check_bind_eq_ok_iff, check_bind_eq_ok_iff, check_bind_eq_ok_iff, check_forM_eq_ok_iff,
    check_forM_eq_ok_iff, check_forM_eq_ok_iff]
  constructor
  · rintro ⟨hpool, hthis, hsuper, hinterfaces, hfields, hmethods, hattributes⟩
    exact ⟨hpool, hthis, hsuper, hinterfaces, hfields, hmethods, hattributes⟩
  · rintro ⟨hpool, hthis, hsuper, hinterfaces, hfields, hmethods, hattributes⟩
    exact ⟨hpool, hthis, hsuper, hinterfaces, hfields, hmethods, hattributes⟩

theorem forall_mem_allAttributes {file : ClassFile} {accepts : Attribute → Prop} :
    (∀ item ∈ file.allAttributes, accepts item) ↔
      (∀ item ∈ Attribute.withinAll file.attributes, accepts item) ∧
      (∀ field ∈ file.fields, ∀ item ∈ Attribute.withinAll field.attributes, accepts item) ∧
      ∀ method ∈ file.methods, ∀ item ∈ Attribute.withinAll method.attributes, accepts item := by
  simp only [allAttributes, Attribute.withinAll_eq_flatMap, List.flatMap_append,
    List.flatMap_assoc, List.forall_mem_append, List.forall_mem_flatMap, and_assoc]

instance (file : ClassFile) : Appends file.writeVersion := by
  unfold writeVersion
  infer_instance

instance (file : ClassFile) : Appends file.writeAfterPool := by
  unfold writeAfterPool
  infer_instance

instance (file : ClassFile) : Appends file.writer := by
  unfold writer
  infer_instance

variable {bound : Nat}

/-- A test that comes before what is read next. -/
theorem reads_unless {α : Type} {refused : Prop} [Decidable refused] {error : FormatError}
    {next : Unit → Reader α} {form : Form α} (h : Reads bound (next ()) form) :
    Reads bound (if refused then throw error >>= next else next ()) fun value bytes =>
      ¬ refused ∧ form value bytes := by
  split
  case isTrue hrefused =>
    apply (reads_throw error).congr
    simp [hrefused]
  case isFalse hrefused =>
    apply h.congr
    simp [hrefused]

theorem reads_readVersion : Reads bound readVersion fun version bytes =>
    isSupported version.2 = true ∧ BigEndian.word32 magic ++
      (BigEndian.word16 version.1 ++ BigEndian.word16 version.2) = bytes := by
  apply (reads_word32.bind fun start => reads_unless (reads_word16.bind fun minor =>
    reads_word16.bind fun major => reads_unless (reads_pure (minor, major)))).congr
  intro version bytes _
  simp only [ne_eq, Decidable.not_not, Bool.not_eq_true', Bool.not_eq_false]
  constructor
  · rintro ⟨_, _, _, rfl, ⟨rfl, minor, _, _, rfl, ⟨major, _, _, rfl, ⟨hmajor, rfl, rfl⟩, rfl⟩,
      rfl⟩, rfl⟩
    exact ⟨hmajor, by rw [List.append_nil]⟩
  · rintro ⟨hmajor, rfl⟩
    exact ⟨magic, _, _, rfl, ⟨rfl, version.1, _, _, rfl, ⟨version.2, _, [], rfl, ⟨hmajor, rfl,
      rfl⟩, List.append_nil _⟩, rfl⟩, rfl⟩

/-- What follows the pool is read in the one form that it is written in. -/
theorem reads_readAfterPool (minor major : UInt16) (pool : ConstantPool) :
    Reads bound (readAfterPool minor major pool) fun file bytes =>
      (file.minor = minor ∧ file.major = major ∧ file.pool = pool) ∧
        (file.IsIndexed ∧ ∀ item ∈ file.allAttributes, item.IsReadable pool) ∧
          file.writeAfterPool.Writes bytes := by
  unfold readAfterPool
  have hindex := @reads_checked bound pool.checkClass
  have hread := reads_word16.bind fun access => hindex.bind fun thisClass =>
    (reads_checked pool.checkOptionalClass).bind fun superClass =>
    (reads_table hindex).bind fun interfaces =>
    (reads_table (@Member.reads_read FieldFlag bound pool)).bind fun fields =>
    (reads_table (@Member.reads_read MethodFlag bound pool)).bind fun methods =>
    (@Attribute.reads_readTable bound pool).bind_pure fun attributes =>
      ClassFile.mk minor major pool ⟨access⟩ thisClass superClass interfaces fields methods
        attributes
  apply hread.congr
  intro file bytes _
  -- The interfaces are written one by one as plain numbers.
  have hword : (fun index => (Writer.word16 index).Writes) =
      fun index bytes => bytes = BigEndian.word16 index := by
    funext index bytes
    exact propext writes_word16
  unfold writeAfterPool
  simp only [forall_mem_allAttributes, Form.joined_and, writes_bind, writes_word16, writes_table,
    hword]
  constructor
  · rintro ⟨access, _, _, rfl, ⟨thisClass, _, _, ⟨hthis, rfl⟩, ⟨superClass, _, _, ⟨hsuper, rfl⟩,
      ⟨interfaces, _, _, ⟨hinterfaceCount, _, ⟨hinterfaces, hinterfaceBytes⟩, rfl⟩,
      ⟨fields, _, _, ⟨hfieldCount, _, ⟨hfields, hfieldBytes⟩, rfl⟩,
      ⟨methods, _, _, ⟨hmethodCount, _, ⟨hmethods, hmethodBytes⟩, rfl⟩,
      ⟨attributes, ⟨⟨hreadable, hcheck⟩, hattributes⟩, rfl⟩, rfl⟩, rfl⟩, rfl⟩, rfl⟩, rfl⟩, rfl⟩
    exact ⟨⟨rfl, rfl, rfl⟩, ⟨⟨hthis, hsuper, hinterfaces, fun field h => (hfields field h).2,
        fun method h => (hmethods method h).2, hcheck⟩, hreadable,
        fun field h => (hfields field h).1, fun method h => (hmethods method h).1⟩,
      _, _, rfl, ⟨_, _, rfl, ⟨_, _, rfl, ⟨_, _, ⟨hinterfaceCount, _, hinterfaceBytes, rfl⟩,
      ⟨_, _, ⟨hfieldCount, _, hfieldBytes, rfl⟩, ⟨_, _, ⟨hmethodCount, _, hmethodBytes, rfl⟩,
      hattributes, rfl⟩, rfl⟩, rfl⟩, rfl⟩, rfl⟩, rfl⟩
  · rintro ⟨⟨rfl, rfl, rfl⟩, ⟨hindexed, hreadable, hfieldsReadable, hmethodsReadable⟩,
      _, _, rfl, ⟨_, _, rfl, ⟨_, _, rfl, ⟨_, _, ⟨hinterfaceCount, _, hinterfaceBytes, rfl⟩,
      ⟨_, _, ⟨hfieldCount, _, hfieldBytes, rfl⟩, ⟨_, _, ⟨hmethodCount, _, hmethodBytes, rfl⟩,
      hattributes, rfl⟩, rfl⟩, rfl⟩, rfl⟩, rfl⟩, rfl⟩
    have hfields (field : Field) (h : field ∈ file.fields) : field.Accepted file.pool :=
      ⟨hfieldsReadable field h, hindexed.fields field h⟩
    have hmethods (method : Method) (h : method ∈ file.methods) : method.Accepted file.pool :=
      ⟨hmethodsReadable method h, hindexed.methods method h⟩
    exact ⟨file.access.bits, _, _, rfl, ⟨file.thisClass, _, _, ⟨hindexed.thisClass, rfl⟩,
      ⟨file.superClass, _, _, ⟨hindexed.superClass, rfl⟩,
      ⟨file.interfaces, _, _, ⟨hinterfaceCount, _, ⟨hindexed.interfaces, hinterfaceBytes⟩, rfl⟩,
      ⟨file.fields, _, _, ⟨hfieldCount, _, ⟨hfields, hfieldBytes⟩, rfl⟩,
      ⟨file.methods, _, _, ⟨hmethodCount, _, ⟨hmethods, hmethodBytes⟩, rfl⟩,
      ⟨file.attributes, ⟨⟨hreadable, hindexed.attributes⟩, hattributes⟩, rfl⟩, rfl⟩, rfl⟩, rfl⟩,
      rfl⟩, rfl⟩, rfl⟩

/-- Everything after the magic number is in the one form that it is written in, apart from the count
of an empty pool. -/
theorem reads_read : Reads bound read fun file bytes =>
    file.pool.WellFormed ∧ file.IsReadable ∧ file.check = .ok () ∧
      ∃ count : UInt16, count.toNat - 1 = file.pool.size - 1 ∧ ∃ front rest,
        file.writeVersion.Writes front ∧ file.writeAfterPool.Writes rest ∧
          front ++ (BigEndian.word16 count ++ file.pool.image ++ rest) = bytes := by
  apply (reads_readVersion.bind fun version => ConstantPool.reads_read.bind fun pool =>
    reads_readAfterPool version.1 version.2 pool).congr
  intro file bytes _
  unfold writeVersion
  simp only [check_eq_ok_iff, writes_bind, writes_word16, writes_word32]
  constructor
  · rintro ⟨⟨minor, major⟩, _, _, ⟨hmajor, rfl⟩,
      ⟨pool, _, rest, ⟨hpool, hcheck, count, hcount, rfl⟩,
        ⟨⟨rfl, rfl, rfl⟩, ⟨hindexed, hreadable⟩, hrest⟩, rfl⟩, rfl⟩
    exact ⟨hpool, ⟨hmajor, hreadable⟩, ⟨hcheck, hindexed⟩, count, hcount, _, rest,
      ⟨_, _, rfl, ⟨_, _, rfl, rfl, rfl⟩, rfl⟩, hrest, rfl⟩
  · rintro ⟨hpool, hreadable, ⟨hcheck, hindexed⟩, count, hcount, _, rest,
      ⟨_, _, rfl, ⟨_, _, rfl, rfl, rfl⟩, rfl⟩, hrest, rfl⟩
    exact ⟨(file.minor, file.major), _, _, ⟨hreadable.supported, rfl⟩,
      ⟨file.pool, _, rest, ⟨hpool, hcheck, count, hcount, rfl⟩,
      ⟨⟨rfl, rfl, rfl⟩, ⟨hindexed, hreadable.attributes⟩, hrest⟩, rfl⟩, rfl⟩

/-- A class refers to itself through its pool, which is therefore not empty. -/
theorem one_lt_size_of_check {file : ClassFile} (hpool : file.pool.WellFormed)
    (hcheck : file.check = .ok ()) : 1 < file.pool.size := by
  obtain ⟨body, hslots, -, -⟩ := hpool
  have hsize := ConstantPool.size_eq_of_slots hslots
  cases body with
  | cons constant rest =>
    rw [hsize, List.length_cons]
    omega
  | nil =>
    -- In an empty pool no index leads to a class.
    have hthis := (check_eq_ok_iff.mp hcheck).2.thisClass
    have hnone : file.pool.get? file.thisClass = none := by
      rw [ConstantPool.get?, ← Array.getElem?_toList, hslots]
      cases file.thisClass.toNat with
      | zero => rfl
      | succ index => rfl
    rw [ConstantPool.checkClass, hnone] at hthis
    cases hthis

/-- A byte string is a class file exactly if it is what is written for a class that can be read
back. -/
theorem parse_eq_ok_iff {bytes : Bytes} {file : ClassFile} :
    parse bytes = .ok file ↔
      file.pool.WellFormed ∧ file.IsReadable ∧ file.serialize = .ok bytes := by
  rw [parse, readAll_eq_ok_iff (@reads_read bytes.length) _ (Nat.le_refl _), serialize,
    check_bind_eq_ok_iff]
  change _ ↔ _ ∧ _ ∧ _ ∧ file.writer.Writes bytes
  unfold writer
  simp only [writes_bind, ConstantPool.writes_write]
  constructor
  · rintro ⟨hpool, hreadable, hcheck, count, hcount, front, rest, hfront, hrest, rfl⟩
    -- The count of slots that has been read can only be the size of the pool.
    have hlarge := one_lt_size_of_check hpool hcheck
    have hsize : count.toNat = file.pool.size := by omega
    exact ⟨hpool, hreadable, hcheck, front, _, hfront, ⟨_, rest, ⟨hsize ▸ count.toNat_lt, rfl⟩,
      hrest, by rw [← hsize, UInt16.ofNat_toNat]⟩, rfl⟩
  · rintro ⟨hpool, hreadable, hcheck, front, _, hfront, ⟨_, rest, ⟨hsize, rfl⟩, hrest, rfl⟩, rfl⟩
    have hcount : (UInt16.ofNat file.pool.size).toNat = file.pool.size :=
      UInt16.toNat_ofNat_of_lt hsize
    exact ⟨hpool, hreadable, hcheck, UInt16.ofNat file.pool.size, by rw [hcount], front, rest,
      hfront, hrest, rfl⟩

theorem check_of_parse {bytes : Bytes} {file : ClassFile} (h : parse bytes = .ok file) :
    file.check = .ok () := by
  obtain ⟨-, -, hserialize⟩ := parse_eq_ok_iff.mp h
  exact (check_bind_eq_ok_iff.mp hserialize).1

end ClassFile

end ClassThaw
