import ClassThaw.Proofs.BigEndian
import ClassThaw.Reader

/-! A form relates values to the byte strings that stand for them. `Reads` says that a reader takes
exactly the byte strings of a form off the front of what is left. -/

namespace ClassThaw

/-- Which byte strings stand for which values. -/
abbrev Form (α : Type) := α → Bytes → Prop

/-- The byte strings of some values, one after the other. -/
def Form.Joined {α : Type} (form : Form α) : Form (List α)
  | [], bytes => bytes = []
  | value :: values, bytes =>
    ∃ front rest, form value front ∧ Joined form values rest ∧ front ++ rest = bytes

/-- What is asked of each value apart from its bytes can be asked of all of them first. -/
theorem Form.joined_and {α : Type} {accepts : α → Prop} {form : Form α} {values : List α}
    {bytes : Bytes} :
    Form.Joined (fun value bytes => accepts value ∧ form value bytes) values bytes ↔
      (∀ value ∈ values, accepts value) ∧ form.Joined values bytes := by
  induction values generalizing bytes with
  | nil => simp [Joined]
  | cons value values ih =>
    simp only [Joined, ih, List.forall_mem_cons]
    constructor
    · rintro ⟨front, rest, ⟨hvalue, hfront⟩, ⟨hvalues, hrest⟩, rfl⟩
      exact ⟨⟨hvalue, hvalues⟩, front, rest, hfront, hrest, rfl⟩
    · rintro ⟨⟨hvalue, hvalues⟩, front, rest, hfront, hrest, rfl⟩
      exact ⟨front, rest, ⟨hvalue, hfront⟩, ⟨hvalues, hrest⟩, rfl⟩

namespace Reader

variable {α β : Type}

/-- With at most `bound` bytes left, the reader takes exactly the byte strings of the form off
their front. -/
def Reads (bound : Nat) (reader : Reader α) (form : Form α) : Prop :=
  ∀ cursor value after, cursor.rest.length ≤ bound →
    (reader cursor = .ok (value, after) ↔
      ∃ front, form value front ∧ cursor.rest = front ++ after.rest ∧
        after.offset = cursor.offset + front.length)

section combinators

variable {bound : Nat} {reader : Reader α} {form form' : Form α}

theorem Reads.mono (h : Reads bound reader form) {bound' : Nat} (hle : bound' ≤ bound) :
    Reads bound' reader form :=
  fun cursor value after hlength => h cursor value after (Nat.le_trans hlength hle)

/-- Only the byte strings that fit into what is left matter. -/
theorem Reads.congr (h : Reads bound reader form)
    (hform : ∀ value bytes, bytes.length ≤ bound → (form value bytes ↔ form' value bytes)) :
    Reads bound reader form' := by
  intro cursor value after hlength
  rw [h cursor value after hlength]
  have hfront (front : Bytes) (hfront : cursor.rest = front ++ after.rest) :
      front.length ≤ bound := by
    have := congrArg List.length hfront
    simp only [List.length_append] at this
    omega
  constructor
  · rintro ⟨front, hvalue, hrest, hoffset⟩
    exact ⟨front, (hform value front (hfront front hrest)).mp hvalue, hrest, hoffset⟩
  · rintro ⟨front, hvalue, hrest, hoffset⟩
    exact ⟨front, (hform value front (hfront front hrest)).mpr hvalue, hrest, hoffset⟩

theorem reads_pure (value : α) :
    Reads bound (pure value) fun value' bytes => value' = value ∧ bytes = [] := by
  intro ⟨offset, rest⟩ value' ⟨offset', rest'⟩ _
  have hrun : (pure value : Reader α) ⟨offset, rest⟩ = .ok (value, ⟨offset, rest⟩) := rfl
  rw [hrun]
  constructor
  · rintro ⟨⟩
    exact ⟨[], ⟨rfl, rfl⟩, rfl, rfl⟩
  · rintro ⟨_, ⟨rfl, rfl⟩, hrest, hoffset⟩
    simp only [List.nil_append, List.length_nil, Nat.add_zero] at hrest hoffset
    rw [hrest, hoffset]

/-- A test that looks at no byte. -/
theorem reads_lift (result : Except FormatError α) :
    Reads bound (liftM result) fun value bytes => result = .ok value ∧ bytes = [] := by
  intro cursor value after hlength
  cases result with
  | error error =>
    have hrun : (liftM (.error error : Except FormatError α) : Reader α) cursor = .error error :=
      rfl
    rw [hrun]
    simp
  | ok value' =>
    have hrun : (liftM (.ok value' : Except FormatError α) : Reader α) cursor =
        (pure value' : Reader α) cursor := rfl
    rw [hrun, reads_pure value' cursor value after hlength]
    simp [eq_comm]

theorem reads_check (check : Except FormatError Unit) :
    Reads bound (liftM check) fun _ bytes => check = .ok () ∧ bytes = [] :=
  reads_lift check

theorem reads_throw (error : FormatError) :
    Reads bound (throw error : Reader α) fun _ _ => False := by
  intro cursor value after _
  have hrun : (throw error : Reader α) cursor = .error error := rfl
  rw [hrun]
  simp

theorem bind_eq_of_ok {next : α → Reader β} {cursor middle : Cursor} {value : α}
    (h : reader cursor = .ok (value, middle)) : (reader >>= next) cursor = next value middle := by
  simp [Bind.bind, StateT.bind, h, Except.bind]

theorem bind_eq_of_error {next : α → Reader β} {cursor : Cursor} {error : FormatError}
    (h : reader cursor = .error error) : (reader >>= next) cursor = .error error := by
  simp [Bind.bind, StateT.bind, h, Except.bind]

/-- What follows reads on from where the first reader stops. -/
theorem Reads.bind (h : Reads bound reader form) {next : α → Reader β} {forms : α → Form β}
    (hnext : ∀ value, Reads bound (next value) (forms value)) :
    Reads bound (reader >>= next) fun result bytes =>
      ∃ value front rest, form value front ∧ forms value result rest ∧ front ++ rest = bytes := by
  intro cursor result after hlength
  constructor
  · intro hrun
    cases hfirst : reader cursor with
    | error error =>
      rw [bind_eq_of_error hfirst] at hrun
      cases hrun
    | ok pair =>
      obtain ⟨value, middle⟩ := pair
      rw [bind_eq_of_ok hfirst] at hrun
      obtain ⟨front, hfront, hcursor, hmiddle⟩ := (h cursor value middle hlength).mp hfirst
      -- The next reader has no more bytes before it, so that the same bound holds for it.
      have hshorter : middle.rest.length ≤ bound := by
        have := congrArg List.length hcursor
        simp only [List.length_append] at this
        omega
      obtain ⟨rest, hrest, hmiddle', hafter⟩ :=
        (hnext value middle result after hshorter).mp hrun
      refine ⟨front ++ rest, ⟨value, front, rest, hfront, hrest, rfl⟩, ?_, ?_⟩
      · rw [hcursor, hmiddle', List.append_assoc]
      · rw [hafter, hmiddle, List.length_append, Nat.add_assoc]
  · rintro ⟨_, ⟨value, front, rest, hfront, hrest, rfl⟩, hcursor, hafter⟩
    -- The first reader stops where its own bytes end, which is where the next one starts.
    let middle : Cursor := ⟨cursor.offset + front.length, rest ++ after.rest⟩
    have hfirst : reader cursor = .ok (value, middle) :=
      (h cursor value middle hlength).mpr
        ⟨front, hfront, by rw [hcursor, List.append_assoc], rfl⟩
    have hshorter : middle.rest.length ≤ bound := by
      have := congrArg List.length hcursor
      simp only [List.length_append] at this
      simp only [middle, List.length_append]
      omega
    have hsecond : next value middle = .ok (result, after) :=
      (hnext value middle result after hshorter).mpr
        ⟨rest, hrest, rfl, by simp only [middle, hafter, List.length_append, Nat.add_assoc]⟩
    rw [bind_eq_of_ok hfirst, hsecond]

theorem Reads.bind_pure (h : Reads bound reader form) (f : α → β) :
    Reads bound (reader >>= fun value => pure (f value)) fun result bytes =>
      ∃ value, form value bytes ∧ f value = result := by
  apply (h.bind fun value => reads_pure (f value)).congr
  intro result bytes _
  constructor
  · rintro ⟨value, front, _, hvalue, ⟨rfl, rfl⟩, rfl⟩
    exact ⟨value, by rwa [List.append_nil], rfl⟩
  · rintro ⟨value, hvalue, rfl⟩
    exact ⟨value, bytes, [], hvalue, ⟨rfl, rfl⟩, List.append_nil _⟩

theorem Reads.map (h : Reads bound reader form) (f : α → β) :
    Reads bound (f <$> reader) fun result bytes =>
      ∃ value, form value bytes ∧ f value = result := by
  rw [← bind_pure_comp]
  exact h.bind_pure f

theorem Reads.pair (h : Reads bound reader form) {reader' : Reader β} {form' : Form β}
    (h' : Reads bound reader' form') :
    Reads bound (Prod.mk <$> reader <*> reader') fun result bytes =>
      ∃ front rest, form result.1 front ∧ form' result.2 rest ∧ front ++ rest = bytes := by
  rw [seq_eq_bind_map]
  apply ((h.map Prod.mk).bind fun make => h'.map make).congr
  intro result bytes _
  constructor
  · rintro ⟨_, front, rest, ⟨value, hfront, rfl⟩, ⟨value', hrest, rfl⟩, rfl⟩
    exact ⟨front, rest, hfront, hrest, rfl⟩
  · rintro ⟨front, rest, hfront, hrest, rfl⟩
    exact ⟨_, front, rest, ⟨result.1, hfront, rfl⟩, ⟨result.2, hrest, rfl⟩, rfl⟩

end combinators

section items

variable {bound : Nat}

/-- All readers of bytes go back to this one. -/
theorem reads_take (count : Nat) :
    Reads bound (take count) fun value bytes => value = bytes ∧ bytes.length = count := by
  intro ⟨offset, rest⟩ value ⟨offset', rest'⟩ _
  simp only [take, List.splitAt_eq]
  -- The two cases of `take`: the bytes may break off before the last one.
  by_cases hshort : (rest.take count).length < count
  · rw [if_pos hshort]
    constructor
    · rintro ⟨⟩
    · rintro ⟨front, ⟨rfl, rfl⟩, rfl, -⟩
      simp at hshort
  · rw [if_neg hshort]
    simp only [List.length_take, Nat.not_lt] at hshort
    constructor
    · rintro ⟨⟩
      exact ⟨rest.take count, ⟨rfl, by rw [List.length_take]; omega⟩,
        (List.take_append_drop count rest).symm, by rw [List.length_take]; omega⟩
    · rintro ⟨front, ⟨rfl, rfl⟩, rfl, rfl⟩
      simp

theorem reads_number (width : Nat) :
    Reads bound (number width) fun value bytes =>
      bytes.length = width ∧ BigEndian.decode bytes = value := by
  apply ((reads_take width).map BigEndian.decode).congr
  intro value bytes _
  simp

/-- A number of a fixed width, in a type whose values are the numbers that fit the width. -/
theorem reads_word {W : Type} {width : Nat} {ofNat : Nat → W} {toNat : W → Nat}
    (hlt : ∀ word, toNat word < 256 ^ width) (hofNat : ∀ word, ofNat (toNat word) = word)
    (htoNat : ∀ value < 256 ^ width, toNat (ofNat value) = value) :
    Reads bound (ofNat <$> number width) fun word bytes =>
      bytes = BigEndian.encode width (toNat word) := by
  apply ((reads_number width).map ofNat).congr
  intro word bytes _
  rw [BigEndian.eq_encode_iff (hlt word)]
  constructor
  · rintro ⟨value, ⟨hlength, rfl⟩, rfl⟩
    exact ⟨hlength, (htoNat _ (hlength ▸ BigEndian.decode_lt bytes)).symm⟩
  · rintro ⟨hlength, hvalue⟩
    exact ⟨_, ⟨hlength, rfl⟩, by rw [hvalue, hofNat]⟩

theorem reads_word8 : Reads bound word8 fun value bytes => bytes = [value] := by
  have h : Reads bound word8 fun value bytes => bytes = BigEndian.encode 1 value.toNat :=
    reads_word (W := UInt8) UInt8.toNat_lt (fun _ => UInt8.ofNat_toNat)
      fun _ hvalue => UInt8.toNat_ofNat_of_lt hvalue
  apply h.congr
  intro value bytes _
  simp [BigEndian.encode]

theorem reads_word16 : Reads bound word16 fun value bytes => bytes = BigEndian.word16 value :=
  reads_word (W := UInt16) UInt16.toNat_lt (fun _ => UInt16.ofNat_toNat)
    fun _ hvalue => UInt16.toNat_ofNat_of_lt hvalue

theorem reads_word32 : Reads bound word32 fun value bytes => bytes = BigEndian.word32 value :=
  reads_word (W := UInt32) UInt32.toNat_lt (fun _ => UInt32.ofNat_toNat)
    fun _ hvalue => UInt32.toNat_ofNat_of_lt hvalue

theorem reads_word64 : Reads bound word64 fun value bytes => bytes = BigEndian.word64 value :=
  reads_word (W := UInt64) UInt64.toNat_lt (fun _ => UInt64.ofNat_toNat)
    fun _ hvalue => UInt64.toNat_ofNat_of_lt hvalue

theorem reads_checked (check : UInt16 → Except FormatError Unit) :
    Reads bound (checked check) fun value bytes =>
      check value = .ok () ∧ bytes = BigEndian.word16 value := by
  apply (reads_word16.bind fun index =>
    (reads_check (check index)).bind_pure fun _ => index).congr
  intro value bytes _
  constructor
  · rintro ⟨index, _, _, rfl, ⟨_, ⟨hcheck, rfl⟩, rfl⟩, rfl⟩
    exact ⟨hcheck, List.append_nil _⟩
  · rintro ⟨hcheck, rfl⟩
    exact ⟨value, _, [], rfl, ⟨(), ⟨hcheck, rfl⟩, rfl⟩, List.append_nil _⟩

end items

section tables

variable {α : Type} {bound : Nat} {item : Reader α} {form : Form α}

theorem reads_manyAfter (h : Reads bound item form) (count : Nat) (read : List α) :
    Reads bound (manyAfter item count read) fun values bytes =>
      ∃ new, values = read.reverse ++ new ∧ new.length = count ∧ form.Joined new bytes := by
  -- The items that have been read already come in front, so they vary along the induction.
  induction count generalizing read with
  | zero =>
    apply (reads_pure read.reverse).congr
    intro values bytes _
    constructor
    · rintro ⟨rfl, rfl⟩
      exact ⟨[], by simp, rfl, rfl⟩
    · rintro ⟨new, rfl, hnew, hbytes⟩
      obtain rfl := List.length_eq_zero_iff.mp hnew
      exact ⟨by simp, hbytes⟩
  | succ count ih =>
    apply (h.bind fun next => ih (next :: read)).congr
    intro values bytes _
    constructor
    · rintro ⟨next, front, rest, hfront, ⟨new, rfl, rfl, hrest⟩, rfl⟩
      exact ⟨next :: new, by simp, rfl, front, rest, hfront, hrest, rfl⟩
    · rintro ⟨new, rfl, hcount, hbytes⟩
      cases new with
      | nil => cases hcount
      | cons next new =>
        obtain ⟨front, rest, hfront, hrest, rfl⟩ := hbytes
        exact ⟨next, front, rest, hfront,
          ⟨new, by simp, Nat.succ.inj hcount, hrest⟩, rfl⟩

theorem reads_many (h : Reads bound item form) (count : Nat) :
    Reads bound (many item count) fun values bytes =>
      values.length = count ∧ form.Joined values bytes := by
  apply (reads_manyAfter h count []).congr
  intro values bytes _
  simp

theorem reads_table (h : Reads bound item form) :
    Reads bound (table item) fun values bytes => values.length < 0x10000 ∧
      ∃ rest, form.Joined values rest ∧
        BigEndian.word16 (UInt16.ofNat values.length) ++ rest = bytes := by
  apply (reads_word16.bind fun count => reads_many h count.toNat).congr
  intro values bytes _
  constructor
  · rintro ⟨count, _, rest, rfl, ⟨hcount, hrest⟩, rfl⟩
    exact ⟨hcount ▸ count.toNat_lt, rest, hrest, by rw [hcount, UInt16.ofNat_toNat]⟩
  · rintro ⟨hlength, rest, hrest, rfl⟩
    exact ⟨_, _, rest, rfl, ⟨(UInt16.toNat_ofNat_of_lt hlength).symm, hrest⟩, rfl⟩

end tables

/-- A reader that has to use up a byte string accepts the byte strings of its form. -/
theorem readAll_eq_ok_iff {α : Type} {bound : Nat} {reader : Reader α} {form : Form α}
    (h : Reads bound reader form) (leftover : Cursor → FormatError) {bytes : Bytes}
    (hlength : bytes.length ≤ bound) (value : α) :
    readAll reader leftover bytes = .ok value ↔ form value bytes := by
  constructor
  · intro hrun
    cases hreader : reader (Cursor.start bytes) with
    | error error => simp [readAll, hreader, Bind.bind, Except.bind] at hrun
    | ok pair =>
      obtain ⟨value', after⟩ := pair
      obtain ⟨front, hfront, hrest, -⟩ := (h _ value' after hlength).mp hreader
      -- Bytes that are left over are an error.
      cases hafter : after.rest with
      | cons byte rest =>
        simp [readAll, hreader, Bind.bind, Except.bind, hafter, throw, throwThe,
          MonadExceptOf.throw] at hrun
      | nil =>
        simp [readAll, hreader, Bind.bind, Except.bind, hafter, pure, Except.pure] at hrun
        rw [hafter, List.append_nil] at hrest
        rwa [← hrun, show bytes = front from hrest]
  · intro hform
    have hreader : reader (Cursor.start bytes) = .ok (value, ⟨bytes.length, []⟩) :=
      (h _ value _ hlength).mpr ⟨bytes, hform, by simp [Cursor.start], by simp [Cursor.start]⟩
    simp [readAll, hreader, Bind.bind, Except.bind, pure, Except.pure]

end Reader

end ClassThaw
