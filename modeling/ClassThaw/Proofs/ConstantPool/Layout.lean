import ClassThaw.ClassFile.Read
import ClassThaw.ClassFile.Write
import ClassThaw.Proofs.Writer

namespace ClassThaw

/-- The length of a text fits the two bytes that hold it. -/
def Constant.Fits : Constant → Prop
  | .utf8 bytes => bytes.length < 0x10000
  | _ => True

/-- The slots that a constant takes. -/
def Constant.span (constant : Constant) : List Constant :=
  if constant.isWide then [constant, .unusable] else [constant]

theorem Constant.length_span (constant : Constant) : constant.span.length = constant.width := by
  unfold span width
  split <;> rfl

/-- Only the constant itself is written, whatever it takes. -/
theorem Constant.flatMap_span (constant : Constant) :
    constant.span.flatMap Constant.encode = constant.encode := by
  unfold span
  split
  · have hnothing : Constant.encode .unusable ++ [] = [] := rfl
    exact (congrArg (constant.encode ++ ·) hnothing).trans (List.append_nil _)
  · exact List.append_nil _

namespace ConstantPool

/-- The slots after the first hold usable constants, each with as many slots as it takes. -/
inductive Laid : List Constant → Prop
  | nil : Laid []
  | cons {constant : Constant} {rest : List Constant} : constant ≠ .unusable → constant.Fits →
      Laid rest → Laid (constant.span ++ rest)

/-- The pool has at most `maxCount` slots, and they are laid out properly. -/
def WellFormed (pool : ConstantPool) : Prop :=
  ∃ body, pool.slots.toList = .unusable :: body ∧ Laid body ∧ body.length < 0xFFFF

theorem Laid.fits {slots : List Constant} (h : Laid slots) : ∀ constant ∈ slots, constant.Fits := by
  induction h with
  | nil =>
    intro found hfound
    cases hfound
  | @cons constant rest husable hfits hrest ih =>
    intro found hfound
    rcases List.mem_append.mp hfound with hspan | hbehind
    · unfold Constant.span at hspan
      split at hspan
      · rcases List.mem_cons.mp hspan with rfl | hsecond
        · exact hfits
        · rw [List.mem_singleton.mp hsecond]
          exact trivial
      · rw [List.mem_singleton.mp hspan]
        exact hfits
    · exact ih found hbehind

theorem WellFormed.fits {pool : ConstantPool} (h : pool.WellFormed) :
    ∀ constant ∈ pool.slots.toList, constant.Fits := by
  obtain ⟨body, hslots, hbody, -⟩ := h
  rw [hslots]
  exact List.forall_mem_cons.mpr ⟨trivial, hbody.fits⟩

/-- The bytes of the slots. -/
def image (pool : ConstantPool) : Bytes := pool.slots.toList.flatMap Constant.encode

open Reader

variable {bound : Nat}

/-- A constant of some kind and its bytes after the tag. -/
def contentForm (kind : ConstantKind) : Form Constant := fun constant bytes =>
  constant.kind? = some kind ∧ constant.Fits ∧ Constant.encode.payload constant = bytes

/-- The content is read in the one form that it is written in. -/
theorem reads_readContent (kind : ConstantKind) :
    Reads bound (readContent kind) (contentForm kind) := by
  cases kind with
  | utf8 =>
    apply (reads_word16.bind fun length =>
      (reads_take length.toNat).bind_pure Constant.utf8).congr
    intro constant bytes _
    constructor
    · rintro ⟨length, _, _, rfl, ⟨content, ⟨rfl, hlength⟩, rfl⟩, rfl⟩
      have hfits : content.length < 0x10000 := hlength ▸ length.toNat_lt
      exact ⟨rfl, hfits, by rw [Constant.encode.payload, hlength, UInt16.ofNat_toNat]⟩
    · rintro ⟨hkind, hfits, rfl⟩
      cases constant with
      | utf8 content =>
        have hlength := UInt16.toNat_ofNat_of_lt hfits
        exact ⟨_, _, content, rfl, ⟨content, ⟨rfl, hlength.symm⟩, rfl⟩, rfl⟩
      | _ => cases hkind
  | integer =>
    apply (reads_word32.bind_pure fun value => Constant.integer value.toInt32).congr
    intro constant bytes _
    constructor
    · rintro ⟨value, rfl, rfl⟩
      exact ⟨rfl, trivial, by rw [Constant.encode.payload, UInt32.toUInt32_toInt32]⟩
    · rintro ⟨hkind, -, rfl⟩
      cases constant with
      | integer value => exact ⟨value.toUInt32, rfl, by rw [Int32.toInt32_toUInt32]⟩
      | _ => cases hkind
  | float =>
    apply (reads_word32.bind_pure Constant.float).congr
    intro constant bytes _
    cases constant <;>
      simp [contentForm, Constant.kind?, Constant.Fits, Constant.encode.payload, eq_comm]
  | long =>
    apply (reads_word64.bind_pure fun value => Constant.long value.toInt64).congr
    intro constant bytes _
    constructor
    · rintro ⟨value, rfl, rfl⟩
      exact ⟨rfl, trivial, by rw [Constant.encode.payload, UInt64.toUInt64_toInt64]⟩
    · rintro ⟨hkind, -, rfl⟩
      cases constant with
      | long value => exact ⟨value.toUInt64, rfl, by rw [Int64.toInt64_toUInt64]⟩
      | _ => cases hkind
  | double =>
    apply (reads_word64.bind_pure Constant.double).congr
    intro constant bytes _
    cases constant <;>
      simp [contentForm, Constant.kind?, Constant.Fits, Constant.encode.payload, eq_comm]
  | methodHandle =>
    apply (reads_word8.bind fun kind => reads_word16.bind_pure (Constant.methodHandle kind)).congr
    intro constant bytes _
    cases constant <;>
      simp [contentForm, Constant.kind?, Constant.Fits, Constant.encode.payload]
  | «class» | string | methodType | module | package =>
    apply (reads_word16.bind_pure _).congr
    intro constant bytes _
    cases constant <;>
      simp [contentForm, Constant.kind?, Constant.Fits, Constant.encode.payload, eq_comm]
  | fieldRef | methodRef | interfaceMethodRef | nameAndType | dynamic | invokeDynamic =>
    apply (reads_word16.bind fun a => reads_word16.bind_pure _).congr
    intro constant bytes _
    cases constant <;>
      simp [contentForm, Constant.kind?, Constant.Fits, Constant.encode.payload]

theorem ofTag?_eq_some_iff (tag : UInt8) (kind : ConstantKind) :
    ConstantKind.ofTag? tag = some kind ↔ tag = kind.tag := by
  constructor
  · intro h
    have := List.find?_some h
    exact (beq_iff_eq.mp this).symm
  · rintro rfl
    cases kind <;> rfl

/-- A constant is read in the one form that it is written in. -/
theorem reads_readConstant (index : UInt16) :
    Reads bound (readConstant index) fun constant bytes =>
      constant ≠ .unusable ∧ constant.Fits ∧ constant.encode = bytes := by
  have hread : Reads bound (readConstant index) fun constant bytes => ∃ tag front rest,
      front = [tag] ∧ (∃ kind, tag = kind.tag ∧ contentForm kind constant rest) ∧
        front ++ rest = bytes := by
    apply reads_word8.bind
    intro tag
    cases htag : ConstantKind.ofTag? tag with
    | none =>
      apply (reads_throw _).congr
      intro constant bytes _
      simp only [← ofTag?_eq_some_iff, htag, reduceCtorEq, false_and, exists_false]
    | some kind =>
      apply (reads_readContent kind).congr
      intro constant bytes _
      simp only [← ofTag?_eq_some_iff, htag, Option.some.injEq, exists_eq_left']
  apply hread.congr
  intro constant bytes _
  constructor
  · rintro ⟨_, _, rest, rfl, ⟨kind, rfl, hkind, hfits, rfl⟩, rfl⟩
    refine ⟨?_, hfits, ?_⟩
    · rintro rfl
      cases hkind
    · rw [Constant.encode, hkind, List.singleton_append]
  · rintro ⟨husable, hfits, rfl⟩
    cases hkind : constant.kind? with
    | none => cases constant <;> simp [Constant.kind?] at hkind husable
    | some kind =>
      exact ⟨_, _, _, rfl, ⟨kind, rfl, hkind, hfits, rfl⟩,
        by rw [Constant.encode, hkind, List.singleton_append]⟩

/-- Reading goes on behind the slots that are there, and fills exactly as many as are asked for. -/
theorem reads_readSlots (count : Nat) (slots : Array Constant) :
    Reads bound (readSlots count slots) fun pool bytes =>
      ∃ new, pool.slots.toList = slots.toList ++ new ∧ new.length = count ∧ Laid new ∧
        new.flatMap Constant.encode = bytes := by
  -- A wide constant takes two slots at once, which is why the induction is strong.
  induction count using Nat.strongRecOn generalizing slots with
  | ind count ih =>
    cases count with
    | zero =>
      apply (reads_pure (ConstantPool.mk slots)).congr
      intro pool bytes _
      constructor
      · rintro ⟨rfl, rfl⟩
        exact ⟨[], by simp, rfl, .nil, rfl⟩
      · rintro ⟨new, hslots, hnew, -, rfl⟩
        obtain rfl := List.length_eq_zero_iff.mp hnew
        exact ⟨by cases pool; simpa [Array.ext_iff] using hslots, rfl⟩
    | succ count =>
      -- A constant takes its own slots first; what is read after it starts behind them.
      have hread : Reads bound (readSlots (count + 1) slots) fun pool bytes =>
          ∃ (constant : Constant) (front behind : Bytes), (constant ≠ .unusable ∧ constant.Fits ∧
            constant.encode = front) ∧
          (∃ rest, pool.slots.toList = slots.toList ++ (constant.span ++ rest) ∧
            constant.width + rest.length = count + 1 ∧ Laid rest ∧
            rest.flatMap Constant.encode = behind) ∧ front ++ behind = bytes := by
        rw [readSlots]
        apply (reads_readConstant _).bind
        intro constant
        by_cases hwide : constant.isWide = true
        · rw [if_pos hwide]
          simp only [Constant.span, Constant.width, hwide, if_true]
          cases count with
          | zero =>
            -- The last slot is too few for a wide constant.
            apply (reads_throw _).congr
            intro pool bytes _
            simp
            omega
          | succ count =>
            apply (ih count (by omega) _).congr
            intro pool bytes _
            have hlength (rest : List Constant) :
                2 + rest.length = count + 1 + 1 ↔ rest.length = count := by omega
            simp [hlength]
        · rw [if_neg hwide]
          simp only [Constant.span, Constant.width, hwide]
          apply (ih count (by omega) _).congr
          intro pool bytes _
          have hlength (rest : List Constant) :
              1 + rest.length = count + 1 ↔ rest.length = count := by omega
          simp [hlength]
      apply hread.congr
      intro pool bytes _
      constructor
      · rintro ⟨constant, _, _, ⟨husable, hfits, rfl⟩, ⟨rest, hslots, hlength, hrest, rfl⟩, rfl⟩
        refine ⟨constant.span ++ rest, hslots, ?_, .cons husable hfits hrest, ?_⟩
        · rw [List.length_append, constant.length_span, hlength]
        · rw [List.flatMap_append, constant.flatMap_span]
      · rintro ⟨new, hslots, hlength, hnew, rfl⟩
        cases hnew with
        | nil => cases hlength
        | @cons constant rest husable hfits hrest =>
          rw [List.length_append, constant.length_span] at hlength
          exact ⟨constant, _, _, ⟨husable, hfits, rfl⟩, ⟨rest, hslots, hlength, hrest, rfl⟩,
            by rw [List.flatMap_append, constant.flatMap_span]⟩

theorem size_eq_of_slots {pool : ConstantPool} {body : List Constant}
    (h : pool.slots.toList = .unusable :: body) : pool.size = body.length + 1 := by
  have := congrArg List.length h
  simpa [size] using this

/-- The pool is laid out properly, its cross references are in order, and its bytes follow its
size, for which the empty pool may also say zero. -/
theorem reads_read : Reads bound read fun pool bytes =>
    pool.WellFormed ∧ pool.check = .ok () ∧ ∃ count : UInt16, count.toNat - 1 = pool.size - 1 ∧
      BigEndian.word16 count ++ pool.image = bytes := by
  apply (reads_word16.bind fun count => (reads_readSlots (count.toNat - 1) empty.slots).bind
    fun pool => (reads_lift pool.check).bind_pure fun _ => pool).congr
  intro pool bytes _
  constructor
  · rintro ⟨count, _, _, rfl, ⟨pool', _, _, ⟨body, hslots, hlength, hbody, rfl⟩,
      ⟨_, ⟨hcheck, rfl⟩, hpool⟩, rfl⟩, rfl⟩
    subst hpool
    change pool'.slots.toList = .unusable :: body at hslots
    have hcount := count.toNat_lt
    have hsize := size_eq_of_slots hslots
    refine ⟨⟨body, hslots, hbody, by omega⟩, hcheck, count, by omega, ?_⟩
    rw [image, hslots, List.append_nil]
    rfl
  · rintro ⟨⟨body, hslots, hbody, -⟩, hcheck, count, hcount, rfl⟩
    have hsize := size_eq_of_slots hslots
    refine ⟨count, _, _, rfl, ⟨pool, _, [], ⟨body, hslots, by omega, hbody, rfl⟩,
      ⟨(), ⟨hcheck, rfl⟩, rfl⟩, List.append_nil _⟩, ?_⟩
    rw [image, hslots]
    rfl

theorem joined_encode (constants : List Constant) (bytes : Bytes) :
    Form.Joined (fun constant => (Writer.bytes constant.encode).Writes) constants bytes ↔
      constants.flatMap Constant.encode = bytes := by
  induction constants generalizing bytes with
  | nil => exact eq_comm
  | cons constant constants ih =>
    simp only [Form.Joined, Writer.writes_bytes, ih, List.flatMap_cons]
    constructor
    · rintro ⟨_, _, rfl, rfl, rfl⟩
      rfl
    · rintro rfl
      exact ⟨_, _, rfl, rfl, rfl⟩

instance (pool : ConstantPool) : Writer.Appends pool.write := by
  unfold write
  infer_instance

theorem writes_write {pool : ConstantPool} {bytes : Bytes} : pool.write.Writes bytes ↔
    pool.size < 0x10000 ∧ BigEndian.word16 (UInt16.ofNat pool.size) ++ pool.image = bytes := by
  have hall := joined_encode pool.slots.toList
  unfold write
  rw [Writer.writes_bind]
  constructor
  · rintro ⟨_, _, hcount, hrest, rfl⟩
    obtain ⟨hsize, rfl⟩ := Writer.writes_count16.mp hcount
    obtain rfl := (hall _).mp (Writer.writes_forM.mp hrest)
    exact ⟨hsize, rfl⟩
  · rintro ⟨hsize, rfl⟩
    exact ⟨_, _, Writer.writes_count16.mpr ⟨hsize, rfl⟩,
      Writer.writes_forM.mpr ((hall _).mpr rfl), rfl⟩

end ConstantPool

end ClassThaw
