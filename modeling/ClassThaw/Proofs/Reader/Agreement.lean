import ClassThaw.Proofs.Reader.Streaming

namespace ClassThaw.Reader

variable {α β : Type}

/-- With at most `bound` bytes left, the two readers do the same, also where they fail. -/
def AgreeWithin (bound : Nat) (reader reader' : Reader α) : Prop :=
  ∀ cursor, cursor.rest.length ≤ bound → reader cursor = reader' cursor

theorem AgreeWithin.mono {bound bound' : Nat} {reader reader' : Reader α}
    (h : AgreeWithin bound reader reader') (hle : bound' ≤ bound) :
    AgreeWithin bound' reader reader' :=
  fun cursor hlength => h cursor (Nat.le_trans hlength hle)

section lengths

variable {reader : Reader α} {cursor after : Cursor} {value : α}

/-- What has been read and what is left make up what there was. -/
theorem Reads.length_of_ok {form : Form α} (h : ∀ bound, Reads bound reader form)
    (hrun : reader cursor = .ok (value, after)) :
    ∃ front, form value front ∧ cursor.rest.length = front.length + after.rest.length := by
  obtain ⟨front, hfront, hrest, -⟩ := (h _ cursor value after (Nat.le_refl _)).mp hrun
  exact ⟨front, hfront, by rw [hrest, List.length_append]⟩

theorem length_of_word16 {number : UInt16} (hrun : word16 cursor = .ok (number, after)) :
    cursor.rest.length = 2 + after.rest.length := by
  obtain ⟨front, rfl, hlength⟩ := Reads.length_of_ok (fun _ => reads_word16) hrun
  rw [hlength, BigEndian.word16, BigEndian.length_encode]

theorem length_of_word32 {number : UInt32} (hrun : word32 cursor = .ok (number, after)) :
    cursor.rest.length = 4 + after.rest.length := by
  obtain ⟨front, rfl, hlength⟩ := Reads.length_of_ok (fun _ => reads_word32) hrun
  rw [hlength, BigEndian.word32, BigEndian.length_encode]

theorem length_of_take {count : Nat} {bytes : Bytes}
    (hrun : take count cursor = .ok (bytes, after)) :
    bytes.length = count ∧ cursor.rest.length = count + after.rest.length := by
  obtain ⟨front, ⟨rfl, hcount⟩, hlength⟩ := Reads.length_of_ok (fun _ => reads_take count) hrun
  exact ⟨hcount, hcount ▸ hlength⟩

theorem length_le_of_streams [Streams reader] (hrun : reader cursor = .ok (value, after)) :
    after.rest.length ≤ cursor.rest.length := by
  obtain ⟨front, hcursor, -⟩ := Streams.uses cursor value after hrun
  rw [hcursor, List.length_append]
  exact Nat.le_add_left _ _

/-- Without two bytes there is no count, and nothing is read behind it. -/
theorem exists_error_of_word16 (hshort : cursor.rest.length < 2) :
    ∃ error, word16 cursor = .error error := by
  cases hrun : word16 cursor with
  | error error => exact ⟨error, rfl⟩
  | ok pair =>
    have hlength := length_of_word16 hrun
    omega

end lengths

section combinators

variable {reader reader' : Reader α} {cursor : Cursor}

/-- Only what is left by the first reader matters to the second one. -/
theorem bind_congr_of_ok {next next' : α → Reader β}
    (h : ∀ value after, reader cursor = .ok (value, after) → next value after = next' value after) :
    (reader >>= next) cursor = (reader >>= next') cursor := by
  cases hrun : reader cursor with
  | error error => rw [bind_eq_of_error hrun, bind_eq_of_error hrun]
  | ok pair =>
    obtain ⟨value, after⟩ := pair
    rw [bind_eq_of_ok hrun, bind_eq_of_ok hrun, h value after hrun]

theorem map_congr_of_eq {f : α → β} (h : reader cursor = reader' cursor) :
    (f <$> reader) cursor = (f <$> reader') cursor := by
  rw [← bind_pure_comp, ← bind_pure_comp]
  cases hrun : reader cursor with
  | error error => rw [bind_eq_of_error hrun, bind_eq_of_error (h ▸ hrun)]
  | ok pair => rw [bind_eq_of_ok hrun, bind_eq_of_ok (h ▸ hrun)]

theorem readAll_congr {leftover : Cursor → FormatError} {bytes : Bytes}
    (h : reader (Cursor.start bytes) = reader' (Cursor.start bytes)) :
    readAll reader leftover bytes = readAll reader' leftover bytes := by
  rw [readAll, readAll, h]

end combinators

section tables

variable {bound : Nat} {item item' : Reader α} [Streams item]

theorem AgreeWithin.manyAfter (h : AgreeWithin bound item item') (count : Nat) (read : List α) :
    AgreeWithin bound (manyAfter item count read) (manyAfter item' count read) := by
  -- The items that have been read already come in front, so they vary along the induction.
  induction count generalizing read with
  | zero => exact fun _ _ => rfl
  | succ count ih =>
    intro cursor hlength
    rw [Reader.manyAfter, Reader.manyAfter]
    cases hrun : item cursor with
    | error error =>
      rw [bind_eq_of_error hrun, bind_eq_of_error (h cursor hlength ▸ hrun)]
    | ok pair =>
      obtain ⟨value, after⟩ := pair
      rw [bind_eq_of_ok hrun, bind_eq_of_ok (h cursor hlength ▸ hrun)]
      exact ih (value :: read) after (Nat.le_trans (length_le_of_streams hrun) hlength)

/-- The count of a table takes two bytes. -/
theorem AgreeWithin.table (h : AgreeWithin bound item item') :
    AgreeWithin (bound + 2) (table item) (table item') := by
  intro cursor hlength
  rw [Reader.table, Reader.table]
  apply bind_congr_of_ok
  intro count after hcount
  have hafter := length_of_word16 hcount
  exact h.manyAfter count.toNat [] after (by omega)

end tables

end ClassThaw.Reader
