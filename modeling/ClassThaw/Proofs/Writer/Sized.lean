import ClassThaw.Proofs.Writer

namespace ClassThaw

namespace Writer

/-- The writer writes something exactly if `fits` holds, and then as many bytes as `size` says. -/
structure Sized (writer : Writer Unit) (fits : Prop) (size : Nat) : Prop where
  exists_iff : (∃ bytes, writer.Writes bytes) ↔ fits
  length_eq : ∀ bytes, writer.Writes bytes → bytes.length = size

section combinators

variable {writer first second : Writer Unit} {fits fits' : Prop} {size size' : Nat}
  {what : Quantity} {error : FormatError}

theorem Sized.of_eq (h : Sized writer fits size) (hfits : fits ↔ fits') (hsize : size = size') :
    Sized writer fits' size' :=
  ⟨h.exists_iff.trans hfits, fun bytes hbytes => (h.length_eq bytes hbytes).trans hsize⟩

theorem sized_bytes (content : Bytes) : Sized (Writer.bytes content) True content.length := by
  constructor
  · exact iff_of_true ⟨content, writes_bytes.mpr rfl⟩ trivial
  · intro bytes hbytes
    rw [writes_bytes.mp hbytes]

theorem sized_pure : Sized (pure ()) True 0 := by
  constructor
  · exact iff_of_true ⟨[], writes_pure.mpr rfl⟩ trivial
  · intro bytes hbytes
    rw [writes_pure.mp hbytes]
    rfl

theorem sized_word8 (value : UInt8) : Sized (word8 value) True 1 := by
  constructor
  · exact iff_of_true ⟨[value], writes_word8.mpr rfl⟩ trivial
  · intro bytes hbytes
    rw [writes_word8.mp hbytes]
    rfl

theorem sized_word16 (value : UInt16) : Sized (word16 value) True 2 :=
  sized_bytes _

theorem sized_word32 (value : UInt32) : Sized (word32 value) True 4 :=
  sized_bytes _

theorem sized_count16 (count : Nat) : Sized (count16 what count) (count < 0x10000) 2 := by
  constructor
  · simp [writes_count16]
  · intro bytes hbytes
    rw [(writes_count16.mp hbytes).2]
    rfl

theorem sized_count32 (count : Nat) : Sized (count32 what count) (count < 0x100000000) 4 := by
  constructor
  · simp [writes_count32]
  · intro bytes hbytes
    rw [(writes_count32.mp hbytes).2]
    rfl

theorem Sized.bind [Appends first] [Appends second] (h : Sized first fits size)
    (h' : Sized second fits' size') :
    Sized (first >>= fun _ => second) (fits ∧ fits') (size + size') := by
  constructor
  · rw [← h.exists_iff, ← h'.exists_iff]
    simp only [writes_bind]
    constructor
    · rintro ⟨_, front, rest, hfront, hrest, -⟩
      exact ⟨⟨front, hfront⟩, rest, hrest⟩
    · rintro ⟨⟨front, hfront⟩, rest, hrest⟩
      exact ⟨_, front, rest, hfront, hrest, rfl⟩
  · intro bytes hbytes
    obtain ⟨front, rest, hfront, hrest, rfl⟩ := writes_bind.mp hbytes
    rw [List.length_append, h.length_eq front hfront, h'.length_eq rest hrest]

/-- What stops the first writer stops both. -/
theorem written_bind_of_error [Appends first] [Appends second] (h : first.written = .error error) :
    (first >>= fun _ => second).written = .error error := by
  rw [(bind_spec first second).2, h]
  rfl

/-- Behind content that fits, what stops the second writer stops both. -/
theorem Sized.written_bind_of_error [Appends first] [Appends second] (h : Sized first fits size)
    (hfits : fits) (hsecond : second.written = .error error) :
    (first >>= fun _ => second).written = .error error := by
  obtain ⟨bytes, hbytes⟩ := h.exists_iff.mpr hfits
  rw [(bind_spec first second).2, hbytes, hsecond]
  rfl

theorem sized_block (content : Bytes) :
    Sized (block what content) (content.length < 0x100000000) (4 + content.length) :=
  ((sized_count32 content.length).bind (sized_bytes content)).of_eq (and_iff_left trivial) rfl

/-- Content that is written apart takes its own size and four bytes for it. -/
theorem Sized.apart [Appends writer] (h : Sized writer fits size) :
    Sized (liftM writer.written >>= block what) (fits ∧ size < 0x100000000) (4 + size) := by
  constructor
  · rw [← h.exists_iff]
    simp only [writes_apart, writes_block]
    constructor
    · rintro ⟨_, content, hcontent, hlength, -⟩
      exact ⟨⟨content, hcontent⟩, h.length_eq content hcontent ▸ hlength⟩
    · rintro ⟨⟨content, hcontent⟩, hlength⟩
      exact ⟨_, content, hcontent, (h.length_eq content hcontent).symm ▸ hlength, rfl⟩
  · intro bytes hbytes
    obtain ⟨content, hcontent, hblock⟩ := writes_apart.mp hbytes
    rw [(sized_block content).length_eq bytes hblock, h.length_eq content hcontent]

variable {α : Type} {item : α → Writer Unit} {itemFits : α → Prop} {itemSize : α → Nat}

theorem sized_forM [∀ value, Appends (item value)] {items : List α}
    (h : ∀ value ∈ items, Sized (item value) (itemFits value) (itemSize value)) :
    Sized (items.forM item) (∀ value ∈ items, itemFits value) (items.map itemSize).sum := by
  induction items with
  | nil => exact sized_pure.of_eq (iff_of_true trivial (List.forall_mem_nil _)) rfl
  | cons value items ih =>
    obtain ⟨hvalue, hitems⟩ := List.forall_mem_cons.mp h
    exact (hvalue.bind (ih hitems)).of_eq List.forall_mem_cons.symm rfl

theorem sized_table [∀ value, Appends (item value)] {items : List α}
    (h : ∀ value ∈ items, Sized (item value) (itemFits value) (itemSize value)) :
    Sized (table what item items)
      (items.length < 0x10000 ∧ ∀ value ∈ items, itemFits value)
      (2 + (items.map itemSize).sum) :=
  (sized_count16 items.length).bind (sized_forM h)

/-- A table that is too long is refused with its length. -/
theorem written_table_of_le [∀ value, Appends (item value)] {items : List α}
    (h : 0x10000 ≤ items.length) :
    (table what item items).written = .error (.limitExceeded what items.length) := by
  apply Writer.written_bind_of_error
  rw [count16, if_neg (Nat.not_lt.mpr h)]
  rfl

end combinators

end Writer

end ClassThaw
