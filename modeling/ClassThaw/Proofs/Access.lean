import ClassThaw.Access

namespace ClassThaw.Access

variable {F : Type} [FlagKind F] (access : Access F) (flag : F)

theorem clear_clear : (access.clear flag).clear flag = access.clear flag := by
  unfold clear
  rw [UInt16.and_assoc, UInt16.and_self]

theorem has_clear (hmask : FlagKind.mask flag ≠ 0) : (access.clear flag).has flag = false := by
  have hzero : access.bits &&& ~~~FlagKind.mask flag &&& FlagKind.mask flag = 0 := by
    rw [UInt16.and_assoc, UInt16.not_and_self, UInt16.and_zero]
  unfold has clear
  rw [hzero]
  exact beq_false_of_ne (Ne.symm hmask)

/-- A flag of a single bit is either set or has nothing to clear. -/
theorem clear_eq_self {place : Nat}
    (hmask : (FlagKind.mask flag).toBitVec = BitVec.twoPow 16 place)
    (h : access.has flag = false) : access.clear flag = access := by
  have hbit : access.bits.toBitVec.getLsbD place = false := by
    cases hset : access.bits.toBitVec.getLsbD place with
    | false => rfl
    | true =>
      have hwhole : access.bits &&& FlagKind.mask flag = FlagKind.mask flag := by
        apply UInt16.toBitVec_inj.mp
        rw [UInt16.toBitVec_and, hmask, BitVec.and_twoPow, if_pos hset]
      rw [has, hwhole, beq_self_eq_true] at h
      cases h
  have hbits : access.bits &&& ~~~FlagKind.mask flag = access.bits := by
    apply UInt16.toBitVec_inj.mp
    ext index hindex
    rw [UInt16.toBitVec_and, UInt16.toBitVec_not, hmask, BitVec.getElem_and, BitVec.getElem_not,
      BitVec.getElem_twoPow]
    by_cases hsame : index = place
    · subst hsame
      rw [BitVec.getLsbD_eq_getElem hindex] at hbit
      rw [hbit, Bool.false_and]
    · simp [hsame]
  unfold clear
  rw [hbits]

/-- Clearing a flag does not touch a flag of other bits. -/
theorem has_clear_of_apart {other : F}
    (hapart : ~~~FlagKind.mask flag &&& FlagKind.mask other = FlagKind.mask other) :
    (access.clear flag).has other = access.has other := by
  unfold has clear
  rw [UInt16.and_assoc, hapart]

theorem has_set : (access.set flag).has flag = true := by
  have habsorb : (access.bits ||| FlagKind.mask flag) &&& FlagKind.mask flag =
      FlagKind.mask flag := by
    -- Bit by bit: a bit of the mask is set in the union, and no other bit is kept.
    apply UInt16.toBitVec_inj.mp
    ext index hindex
    simp only [UInt16.toBitVec_and, UInt16.toBitVec_or, BitVec.getElem_and, BitVec.getElem_or]
    cases access.bits.toBitVec[index] <;> cases (FlagKind.mask flag).toBitVec[index] <;> rfl
  exact beq_iff_eq.mpr habsorb

/-- A flag is set if its word is listed, provided that no other flag has the same word. -/
theorem mem_labels_iff (hflag : flag ∈ FlagKind.all)
    (hunique : ∀ other : F, FlagKind.label other = FlagKind.label flag → other = flag) :
    FlagKind.label flag ∈ access.labels ↔ access.has flag = true := by
  rw [labels, List.mem_map]
  constructor
  · rintro ⟨other, hother, hlabel⟩
    obtain rfl := hunique other hlabel
    exact (List.mem_filter.mp hother).2
  · intro hset
    exact ⟨flag, List.mem_filter.mpr ⟨hflag, hset⟩, rfl⟩

/-- A flag that was set is all that is lost when it is cleared. -/
theorem set_clear (h : access.has flag = true) : (access.clear flag).set flag = access := by
  have hmask : access.bits &&& FlagKind.mask flag = FlagKind.mask flag := beq_iff_eq.mp h
  have hbits : access.bits &&& ~~~FlagKind.mask flag ||| FlagKind.mask flag = access.bits := by
    apply UInt16.toBitVec_inj.mp
    have hmask' := UInt16.toBitVec_inj.mpr hmask
    ext index hindex
    have hbit := congrArg (fun word => word[index]) hmask'
    simp only [UInt16.toBitVec_and, BitVec.getElem_and] at hbit
    simp only [UInt16.toBitVec_and, UInt16.toBitVec_or, UInt16.toBitVec_not, BitVec.getElem_and,
      BitVec.getElem_or, BitVec.getElem_not]
    -- A bit of the mask is set in the word, and every other bit is left alone.
    cases hset : (FlagKind.mask flag).toBitVec[index] with
    | false => rw [Bool.not_false, Bool.and_true, Bool.or_false]
    | true =>
      rw [hset, Bool.and_true] at hbit
      rw [hbit, Bool.or_true]
  unfold set clear
  rw [hbits]

end ClassThaw.Access
