import ClassThaw.Proofs.Reader

namespace ClassThaw.Reader

variable {α β : Type}

/-- From the offset on, the reader makes the value of just these bytes, whatever follows them. If
they break off, it reports an item that starts no later than the break and ends among them. -/
structure Uses (reader : Reader α) (offset : Nat) (front : Bytes) (value : α) : Prop where
  whole : ∀ rest, reader ⟨offset, front ++ rest⟩ = .ok (value, ⟨offset + front.length, rest⟩)
  cut : ∀ kept < front.length, ∃ start needed,
    reader ⟨offset, front.take kept⟩ = .error (.unexpectedEnd start needed) ∧
      start ≤ offset + kept ∧ 1 ≤ needed ∧ kept + needed ≤ front.length

/-- Where the reader succeeds it has used a front part of the bytes. -/
class Streams (reader : Reader α) : Prop where
  uses : ∀ cursor value after, reader cursor = .ok (value, after) →
    ∃ front, cursor.rest = front ++ after.rest ∧ reader.Uses cursor.offset front value

/-- What the reader has used ends where it stops. -/
theorem Uses.after_eq {reader : Reader α} {cursor after : Cursor} {front : Bytes} {value : α}
    (h : reader.Uses cursor.offset front value) (hcursor : cursor.rest = front ++ after.rest)
    (hrun : reader cursor = .ok (value, after)) :
    after = ⟨cursor.offset + front.length, after.rest⟩ := by
  have hsame : cursor = ⟨cursor.offset, front ++ after.rest⟩ := by rw [← hcursor]
  rw [hsame, h.whole] at hrun
  exact (Prod.mk.inj (Except.ok.inj hrun)).2.symm

section combinators

variable {reader : Reader α} {next : α → Reader β}

theorem uses_nil {offset : Nat} {value : α}
    (h : ∀ rest, reader ⟨offset, rest⟩ = .ok (value, ⟨offset, rest⟩)) :
    reader.Uses offset [] value where
  whole := h
  cut kept hkept := absurd hkept (Nat.not_lt_zero kept)

instance (value : α) : Streams (pure value) where
  uses := by
    rintro ⟨offset, rest⟩ _ _ ⟨⟩
    exact ⟨[], rfl, uses_nil fun _ => rfl⟩

instance (error : FormatError) : Streams (throw error : Reader α) where
  uses := by
    intro cursor value after h
    cases h

/-- A test that looks at no byte. -/
instance (result : Except FormatError α) : Streams (liftM result : Reader α) where
  uses := by
    intro cursor value after h
    cases result with
    | error error => cases h
    | ok found =>
      cases h
      exact ⟨[], rfl, uses_nil fun _ => rfl⟩

/-- What two readers use in turn: the first one its own bytes, the second one those behind. -/
theorem Uses.bind {offset : Nat} {front rest : Bytes} {value : α} {result : β}
    (h : reader.Uses offset front value)
    (h' : (next value).Uses (offset + front.length) rest result) :
    (reader >>= next).Uses offset (front ++ rest) result where
  whole behind := by
    have hfirst := h.whole (rest ++ behind)
    rw [← List.append_assoc] at hfirst
    rw [bind_eq_of_ok hfirst, h'.whole behind, List.length_append, Nat.add_assoc]
  cut kept hkept := by
    rw [List.length_append] at hkept ⊢
    by_cases hfront : kept < front.length
    -- The bytes break off in front of what the second reader uses.
    · obtain ⟨start, needed, hrun, hstart, hneeded, hend⟩ := h.cut kept hfront
      have htake : (front ++ rest).take kept = front.take kept :=
        List.take_append_of_le_length (Nat.le_of_lt hfront)
      refine ⟨start, needed, ?_, hstart, hneeded, by omega⟩
      rw [htake, bind_eq_of_error hrun]
    -- The first reader has all its bytes, and the second one finds the break.
    · obtain ⟨start, needed, hrun, hstart, hneeded, hend⟩ :=
        h'.cut (kept - front.length) (by omega)
      have htake : (front ++ rest).take kept = front ++ rest.take (kept - front.length) := by
        rw [List.take_append, List.take_of_length_le (Nat.le_of_not_lt hfront)]
      refine ⟨start, needed, ?_, by omega, hneeded, by omega⟩
      rw [htake, bind_eq_of_ok (h.whole _), hrun]

instance Streams.bind [Streams reader] [∀ value, Streams (next value)] :
    Streams (reader >>= next) where
  uses := by
    intro cursor result after h
    cases hfirst : reader cursor with
    | error error =>
      rw [bind_eq_of_error hfirst] at h
      cases h
    | ok pair =>
      obtain ⟨value, middle⟩ := pair
      rw [bind_eq_of_ok hfirst] at h
      obtain ⟨front, hcursor, huses⟩ := Streams.uses cursor value middle hfirst
      obtain ⟨rest, hmiddle, huses'⟩ := Streams.uses middle result after h
      refine ⟨front ++ rest, ?_, huses.bind ?_⟩
      · rw [hcursor, hmiddle, List.append_assoc]
      · rwa [huses.after_eq hcursor hfirst] at huses'

instance [Streams reader] (f : α → β) : Streams (f <$> reader) := by
  rw [← bind_pure_comp]
  infer_instance

instance {condition : Prop} [Decidable condition] {other : Reader α} [Streams reader]
    [Streams other] : Streams (if condition then reader else other) := by
  split <;> infer_instance

end combinators

section items

/-- The one reader that looks at bytes tells how many of them are missing. -/
instance (count : Nat) : Streams (take count) where
  uses := by
    intro cursor value after h
    obtain ⟨front, ⟨rfl, rfl⟩, hcursor, -⟩ :=
      (reads_take count cursor value after (Nat.le_refl _)).mp h
    refine ⟨value, hcursor, ?_, ?_⟩
    · intro rest
      exact (reads_take _ _ _ _ (Nat.le_refl _)).mpr ⟨value, ⟨rfl, rfl⟩, rfl, rfl⟩
    · intro kept hkept
      have hlength : (value.take kept).length = kept := by
        rw [List.length_take]
        omega
      have htake : (value.take kept).take value.length = value.take kept :=
        List.take_of_length_le (by omega)
      refine ⟨cursor.offset, value.length - kept, ?_, by omega, by omega, by omega⟩
      simp only [take, List.splitAt_eq, htake, hlength, if_pos hkept]

instance (width : Nat) : Streams (number width) := by
  unfold number
  infer_instance

instance : Streams word8 := inferInstanceAs (Streams (_ <$> number 1))

instance : Streams word16 := inferInstanceAs (Streams (_ <$> number 2))

instance : Streams word32 := inferInstanceAs (Streams (_ <$> number 4))

instance : Streams word64 := inferInstanceAs (Streams (_ <$> number 8))

instance (check : UInt16 → Except FormatError Unit) : Streams (checked check) := by
  unfold checked
  infer_instance

variable {item : Reader α} [Streams item]

instance (count : Nat) (read : List α) : Streams (manyAfter item count read) := by
  induction count generalizing read with
  | zero =>
    rw [manyAfter]
    infer_instance
  | succ count ih =>
    rw [manyAfter]
    infer_instance

instance : Streams (table item) := by
  unfold table many
  infer_instance

end items

section whole

variable {reader : Reader α} {leftover : Cursor → FormatError} {bytes : Bytes} {value : α}

/-- What has been read with no byte left over has been used from end to end. -/
theorem uses_of_readAll [Streams reader] (h : readAll reader leftover bytes = .ok value) :
    reader.Uses 0 bytes value := by
  cases hrun : reader (Cursor.start bytes) with
  | error error => simp [readAll, hrun, Bind.bind, Except.bind] at h
  | ok pair =>
    obtain ⟨found, after⟩ := pair
    obtain ⟨front, hfront, huses⟩ := Streams.uses (Cursor.start bytes) found after hrun
    cases hafter : after.rest with
    | cons byte rest =>
      simp [readAll, hrun, Bind.bind, Except.bind, hafter, throw, throwThe,
        MonadExceptOf.throw] at h
    | nil =>
      simp [readAll, hrun, Bind.bind, Except.bind, hafter, pure, Except.pure] at h
      rw [hafter, List.append_nil] at hfront
      rwa [← h, show bytes = front from hfront]

/-- Without its last bytes a byte string that has been read is found to be cut. -/
theorem Uses.readAll_take (h : reader.Uses 0 bytes value) {kept : Nat}
    (hkept : kept < bytes.length) : ∃ start needed,
      readAll reader leftover (bytes.take kept) = .error (.unexpectedEnd start needed) ∧
        start ≤ kept ∧ 1 ≤ needed ∧ kept + needed ≤ bytes.length := by
  obtain ⟨start, needed, hrun, hstart, hneeded, hend⟩ := h.cut kept hkept
  refine ⟨start, needed, ?_, by omega, hneeded, hend⟩
  simp only [readAll, Cursor.start, hrun, Bind.bind, Except.bind]

/-- Bytes behind one that has been read are left over, whatever they are. -/
theorem Uses.readAll_append (h : reader.Uses 0 bytes value) {padding : Bytes}
    (hpadding : padding ≠ []) :
    readAll reader leftover (bytes ++ padding) = .error (leftover ⟨bytes.length, padding⟩) := by
  have hrun : reader (Cursor.start (bytes ++ padding)) = .ok (value, ⟨bytes.length, padding⟩) := by
    have hwhole := h.whole padding
    rwa [Nat.zero_add] at hwhole
  cases padding with
  | nil => exact absurd rfl hpadding
  | cons byte padding =>
    simp [readAll, hrun, Bind.bind, Except.bind, throw, throwThe, MonadExceptOf.throw]

end whole

end ClassThaw.Reader
