import ClassThaw.Proofs.Reader
import ClassThaw.Writer

namespace ClassThaw

/-- A count or a length is too large for the field of two or four bytes that holds it. -/
def FormatError.IsLimit (error : FormatError) : Prop :=
  ∃ what count, 0x10000 ≤ count ∧ error = .limitExceeded what count

namespace Writer

/-- The writer writes these bytes. -/
def Writes (writer : Writer Unit) (bytes : Bytes) : Prop := writer.written = .ok bytes

/-- The writer only appends, and stops only at a number too large for its field. -/
class Appends (writer : Writer Unit) : Prop where
  run : ∀ before : Array UInt8,
    writer before = writer.written.map fun content : Bytes => ((), before ++ content)
  isLimit : ∀ error, writer.written = .error error → error.IsLimit

theorem run_eq (writer : Writer Unit) [Appends writer] (before : Array UInt8) :
    writer before = writer.written.map fun content : Bytes => ((), before ++ content) :=
  Appends.run before

theorem run_of_writes {writer : Writer Unit} [Appends writer] {bytes : Bytes}
    (h : writer.written = .ok bytes) (before : Array UInt8) :
    writer before = .ok ((), before ++ bytes) := by
  rw [run_eq writer, h]
  rfl

theorem run_of_fails {writer : Writer Unit} [Appends writer] {error : FormatError}
    (h : writer.written = .error error) (before : Array UInt8) :
    writer before = .error error := by
  rw [run_eq writer, h]
  rfl

/-- A writer that is known at every place is one that appends. -/
theorem appends_of_run {writer : Writer Unit} {content : Except FormatError Bytes}
    (hrun : ∀ before : Array UInt8,
      writer before = content.map fun bytes : Bytes => ((), before ++ bytes))
    (hlimit : ∀ error, content = .error error → error.IsLimit) :
    Appends writer ∧ writer.written = content := by
  have hwritten : writer.written = content := by
    rw [written, hrun]
    cases content <;> simp [Except.map, Bind.bind, Except.bind, pure, Except.pure]
  refine ⟨⟨fun before => ?_, ?_⟩, hwritten⟩
  · rw [hwritten, hrun]
  · rw [hwritten]
    exact hlimit

theorem appends_of_ok {writer : Writer Unit} {content : Bytes}
    (hrun : ∀ before : Array UInt8, writer before = .ok ((), before ++ content)) :
    Appends writer ∧ writer.written = .ok content := by
  apply appends_of_run hrun
  intro error herror
  cases herror

section primitives

variable {first second : Writer Unit} {bytes : Bytes}

theorem bytes_spec (content : Bytes) :
    Appends (Writer.bytes content) ∧ (Writer.bytes content).written = .ok content :=
  appends_of_ok fun _ => rfl

instance (content : Bytes) : Appends (Writer.bytes content) := (bytes_spec content).1

theorem writes_bytes {content : Bytes} : (Writer.bytes content).Writes bytes ↔ bytes = content := by
  rw [Writes, (bytes_spec content).2, Except.ok.injEq, eq_comm]

theorem word8_spec (value : UInt8) :
    Appends (word8 value) ∧ (word8 value).written = .ok [value] := by
  apply appends_of_ok
  intro before
  change Except.ok ((), before.push value) = _
  rw [Array.appendList_cons, Array.appendList_nil]

instance (value : UInt8) : Appends (word8 value) := (word8_spec value).1

theorem writes_word8 {value : UInt8} : (word8 value).Writes bytes ↔ bytes = [value] := by
  rw [Writes, (word8_spec value).2, Except.ok.injEq, eq_comm]

instance (value : UInt16) : Appends (word16 value) := inferInstanceAs (Appends (Writer.bytes _))

theorem writes_word16 {value : UInt16} :
    (word16 value).Writes bytes ↔ bytes = BigEndian.word16 value :=
  writes_bytes

instance (value : UInt32) : Appends (word32 value) := inferInstanceAs (Appends (Writer.bytes _))

theorem writes_word32 {value : UInt32} :
    (word32 value).Writes bytes ↔ bytes = BigEndian.word32 value :=
  writes_bytes

theorem pure_spec : Appends (pure ()) ∧ (pure () : Writer Unit).written = .ok [] :=
  appends_of_ok fun before => by rw [Array.appendList_nil]; rfl

instance : Appends (pure ()) := pure_spec.1

theorem writes_pure : (pure () : Writer Unit).Writes bytes ↔ bytes = [] := by
  rw [Writes, pure_spec.2, Except.ok.injEq, eq_comm]

theorem throw_spec {error : FormatError} (herror : error.IsLimit) :
    Appends (throw error) ∧ (throw error : Writer Unit).written = .error error :=
  appends_of_run (fun _ => rfl) fun _ h => by cases h; exact herror

/-- What is written by two writers in turn. -/
theorem bind_spec (first second : Writer Unit) [Appends first] [Appends second] :
    Appends (first >>= fun _ => second) ∧
      (first >>= fun _ => second).written = (do
        let front ← first.written
        let rest ← second.written
        return front ++ rest) := by
  apply appends_of_run
  · intro before
    -- Each writer is known at every place by what it writes, or by the limit that it runs into.
    cases hfirst : first.written with
    | error error =>
      simp [Bind.bind, StateT.bind, run_of_fails hfirst, Except.bind, Except.map]
    | ok front =>
      cases hsecond : second.written with
      | error error =>
        simp [Bind.bind, StateT.bind, run_of_writes hfirst, run_of_fails hsecond, Except.bind,
          Except.map]
      | ok rest =>
        -- Bytes that are written one string after the other are written as one string.
        have happend : before ++ front ++ rest = before ++ (front ++ rest) := by
          apply Array.ext'
          simp
        simp [Bind.bind, StateT.bind, run_of_writes hfirst, run_of_writes hsecond,
          Except.bind, Except.map, pure, Except.pure, happend]
  · intro error herror
    cases hfirst : first.written with
    | error error' =>
      rw [hfirst] at herror
      cases herror
      exact Appends.isLimit _ hfirst
    | ok front =>
      cases hsecond : second.written with
      | error error' =>
        rw [hfirst, hsecond] at herror
        cases herror
        exact Appends.isLimit _ hsecond
      | ok rest =>
        rw [hfirst, hsecond] at herror
        cases herror

instance [Appends first] [Appends second] : Appends (first >>= fun _ => second) :=
  (bind_spec first second).1

theorem writes_bind [Appends first] [Appends second] :
    (first >>= fun _ => second).Writes bytes ↔
      ∃ front rest, first.Writes front ∧ second.Writes rest ∧ front ++ rest = bytes := by
  rw [Writes, (bind_spec first second).2]
  simp only [Writes]
  cases first.written with
  | error error => simp [Bind.bind, Except.bind]
  | ok front =>
    cases second.written with
    | error error => simp [Bind.bind, Except.bind]
    | ok rest => simp [Bind.bind, Except.bind, pure, Except.pure]

/-- Content that is written apart before its length is known. -/
theorem apart_spec (content : Writer Unit) (next : Bytes → Writer Unit) [Appends content]
    [∀ bytes, Appends (next bytes)] :
    Appends (liftM content.written >>= next) ∧
      (liftM content.written >>= next : Writer Unit).written =
        content.written.bind fun bytes => (next bytes).written := by
  apply appends_of_run
  · intro before
    cases hcontent : content.written with
    | error error => rfl
    -- The content is known by then, and does not depend on what has been written before.
    | ok bytes => exact run_eq (next bytes) before
  · intro error herror
    cases hcontent : content.written with
    | error error' =>
      rw [hcontent] at herror
      cases herror
      exact Appends.isLimit _ hcontent
    | ok bytes =>
      rw [hcontent] at herror
      exact Appends.isLimit _ herror

instance (content : Writer Unit) (next : Bytes → Writer Unit) [Appends content]
    [∀ bytes, Appends (next bytes)] : Appends (liftM content.written >>= next) :=
  (apart_spec content next).1

theorem writes_apart {content : Writer Unit} {next : Bytes → Writer Unit} [Appends content]
    [∀ bytes, Appends (next bytes)] :
    (liftM content.written >>= next : Writer Unit).Writes bytes ↔
      ∃ inner, content.Writes inner ∧ (next inner).Writes bytes := by
  rw [Writes, (apart_spec content next).2]
  simp only [Writes]
  cases content.written with
  | error error => simp [Except.bind]
  | ok inner => simp [Except.bind]

end primitives

section tables

variable {α : Type} {what : Quantity} {bytes : Bytes}

instance (count : Nat) : Appends (count16 what count) := by
  unfold count16
  split
  case isTrue => infer_instance
  case isFalse hge => exact (throw_spec ⟨what, count, Nat.not_lt.mp hge, rfl⟩).1

theorem writes_count16 {count : Nat} : (count16 what count).Writes bytes ↔
    count < 0x10000 ∧ bytes = BigEndian.word16 (UInt16.ofNat count) := by
  unfold count16
  split
  case isTrue hlt => simp [writes_word16, hlt]
  case isFalse hge =>
    simp [Writes, (throw_spec ⟨what, count, Nat.not_lt.mp hge, rfl⟩).2, hge]

instance (count : Nat) : Appends (count32 what count) := by
  unfold count32
  split
  case isTrue => infer_instance
  case isFalse hge => exact (throw_spec ⟨what, count, by omega, rfl⟩).1

theorem writes_count32 {count : Nat} : (count32 what count).Writes bytes ↔
    count < 0x100000000 ∧ bytes = BigEndian.word32 (UInt32.ofNat count) := by
  unfold count32
  split
  case isTrue hlt => simp [writes_word32, hlt]
  case isFalse hge => simp [Writes, (throw_spec ⟨what, count, by omega, rfl⟩).2, hge]

instance (content : Bytes) : Appends (block what content) :=
  inferInstanceAs (Appends (count32 what content.length >>= fun _ => Writer.bytes content))

theorem writes_block {content : Bytes} : (block what content).Writes bytes ↔
    content.length < 0x100000000 ∧
      BigEndian.word32 (UInt32.ofNat content.length) ++ content = bytes := by
  unfold block
  rw [writes_bind]
  simp [writes_count32, writes_bytes, and_assoc]

theorem appends_forM {item : α → Writer Unit} {items : List α}
    (h : ∀ value ∈ items, Appends (item value)) : Appends (items.forM item) := by
  induction items with
  | nil => exact pure_spec.1
  | cons value items ih =>
    obtain ⟨hvalue, hitems⟩ := List.forall_mem_cons.mp h
    have := ih hitems
    exact (bind_spec (item value) (items.forM item)).1

variable {item : α → Writer Unit} [∀ value, Appends (item value)]

instance (items : List α) : Appends (items.forM item) := appends_forM fun _ _ => inferInstance

theorem writes_forM {items : List α} :
    (items.forM item).Writes bytes ↔
      Form.Joined (fun value => (item value).Writes) items bytes := by
  induction items generalizing bytes with
  | nil => exact writes_pure
  | cons value items ih =>
    change (item value >>= fun _ => items.forM item).Writes bytes ↔ _
    rw [writes_bind]
    simp only [ih, Form.Joined]

instance (items : List α) : Appends (table what item items) :=
  inferInstanceAs (Appends (count16 what items.length >>= fun _ => items.forM item))

theorem writes_table {items : List α} : (table what item items).Writes bytes ↔
    items.length < 0x10000 ∧ ∃ rest, Form.Joined (fun value => (item value).Writes) items rest ∧
      BigEndian.word16 (UInt16.ofNat items.length) ++ rest = bytes := by
  unfold table
  rw [writes_bind]
  simp only [writes_count16, writes_forM]
  constructor
  · rintro ⟨_, rest, ⟨hlength, rfl⟩, hrest, rfl⟩
    exact ⟨hlength, rest, hrest, rfl⟩
  · rintro ⟨hlength, rest, hrest, rfl⟩
    exact ⟨_, rest, ⟨hlength, rfl⟩, hrest, rfl⟩

end tables

end Writer

end ClassThaw
