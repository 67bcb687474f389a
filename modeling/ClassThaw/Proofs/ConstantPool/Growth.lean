import ClassThaw.Proofs.ConstantPool.Layout
import ClassThaw.Proofs.ConstantPool.Lookup
import ClassThaw.Proofs.Run

/-! `Adds` is the shape of every fact about additions: started on a sound pool, one leaves a sound
pool in which no old slot has changed, whether it succeeds or stops halfway. -/

namespace ClassThaw.ConstantPool

variable {pool before after : ConstantPool} {constant : Constant}

/-- The pool is laid out properly, and its cross references are in order. -/
structure Sound (pool : ConstantPool) : Prop where
  wellFormed : pool.WellFormed
  check : pool.check = .ok ()

theorem Sound.size_le (h : pool.Sound) : pool.size ≤ maxCount := by
  obtain ⟨body, hslots, -, hlength⟩ := h.wellFormed
  have hsize := size_eq_of_slots hslots
  rw [maxCount]
  omega

/-- The size of a sound pool fits the two bytes that hold it. -/
theorem Sound.size_lt (h : pool.Sound) : pool.size < 0x10000 :=
  Nat.lt_succ_of_le h.size_le

/-- No place in a pool that keeps to the limit is cut off in its index. -/
theorem toNat_place {place : Nat} (hsize : pool.size ≤ maxCount) (hplace : place < pool.size) :
    (UInt16.ofNat place).toNat = place := by
  apply UInt16.toNat_ofNat_of_lt
  rw [maxCount] at hsize
  change place < 65536
  omega

/-- Slot 0 leads to nothing. -/
theorem Sound.ne_zero (h : pool.Sound) {index : UInt16} (hget : pool.get? index = some constant) :
    index ≠ 0 := by
  rintro rfl
  obtain ⟨body, hslots, -⟩ := h.wellFormed
  obtain ⟨hslot, husable⟩ := get?_eq_some_iff.mp hget
  rw [hslots] at hslot
  exact husable (Option.some.inj hslot).symm

theorem sound_empty : empty.Sound := ⟨⟨[], rfl, .nil, by decide⟩, rfl⟩

theorem Laid.concat {slots : List Constant} (h : Laid slots) (husable : constant ≠ .unusable)
    (hfits : constant.Fits) : Laid (slots ++ constant.span) := by
  induction h with
  | nil => exact List.append_nil constant.span ▸ Laid.cons husable hfits .nil
  | cons husable' hfits' _ ih =>
    rw [List.append_assoc]
    exact .cons husable' hfits' ih

/-- The pool with one more constant behind the others. -/
def extend (pool : ConstantPool) (constant : Constant) : ConstantPool :=
  ⟨pool.slots ++ constant.span⟩

theorem toList_extend (pool : ConstantPool) (constant : Constant) :
    (pool.extend constant).slots.toList = pool.slots.toList ++ constant.span := by
  simp [extend]

theorem grows_extend (pool : ConstantPool) (constant : Constant) :
    pool.Grows (pool.extend constant) :=
  ⟨constant.span, (toList_extend pool constant).symm⟩

/-- A constant that fits, and whose own references are in order, can be put behind the others. -/
theorem Sound.extend (h : pool.Sound) (husable : constant ≠ .unusable) (hfits : constant.Fits)
    (hcheck : pool.checkConstant constant = .ok ())
    (hroom : pool.size + constant.width ≤ maxCount) : (pool.extend constant).Sound := by
  have hgrows := grows_extend pool constant
  constructor
  · obtain ⟨body, hslots, hbody, -⟩ := h.wellFormed
    have hsize := size_eq_of_slots hslots
    have hwidth := constant.length_span
    refine ⟨body ++ constant.span, ?_, hbody.concat husable hfits, ?_⟩
    · rw [toList_extend, hslots, List.cons_append]
    · rw [maxCount] at hroom
      rw [List.length_append]
      omega
  · rw [check_eq_ok_iff, toList_extend]
    intro found hfound
    apply hgrows.checkConstant
    rcases List.mem_append.mp hfound with hold | hnew
    · exact check_eq_ok_iff.mp h.check found hold
    · -- The second slot of a wide constant refers to nothing.
      unfold Constant.span at hnew
      split at hnew
      · rcases List.mem_cons.mp hnew with rfl | hsecond
        · exact hcheck
        · rw [List.mem_singleton.mp hsecond]
          rfl
      · rw [List.mem_singleton.mp hnew]
        exact hcheck

/-- The new constant is found at the index after the last old one. -/
theorem get?_extend (husable : constant ≠ .unusable) (hsize : pool.size < 0x10000) :
    (pool.extend constant).get? (UInt16.ofNat pool.size) = some constant := by
  have hindex : (UInt16.ofNat pool.size).toNat = pool.slots.toList.length :=
    UInt16.toNat_ofNat_of_lt hsize
  refine get?_eq_some_iff.mpr ⟨?_, husable⟩
  rw [hindex, toList_extend, List.getElem?_append_right (Nat.le_refl _), Nat.sub_self,
    Constant.span]
  split <;> rfl

theorem run_append (constant : Constant) (pool : ConstantPool) : (append constant).run pool =
    if maxCount < pool.size + constant.width then
      (.error (.limitExceeded .constantPool (pool.size + constant.width)), pool)
    else (.ok (UInt16.ofNat pool.size), pool.extend constant) := by
  have hslots : ConstantPool.mk (if constant.isWide then (pool.slots.push constant).push .unusable
      else pool.slots.push constant) = pool.extend constant := by
    unfold ConstantPool.extend Constant.span
    split <;> simp
  -- `append` pushes slot by slot; `extend` puts them all behind the others at once.
  rw [append, run_get_bind, ← hslots]
  by_cases hfull : maxCount < pool.size + constant.width
  · simp only [hfull, if_true]
    rfl
  · simp only [hfull, if_false]
    rfl

theorem run_intern (constant : Constant) (pool : ConstantPool) : (intern constant).run pool =
    match pool.slots.findIdx? (· == constant) with
    | some index => (.ok (UInt16.ofNat index), pool)
    | none => (append constant).run pool := by
  rw [intern, run_get_bind]
  cases pool.slots.findIdx? (· == constant) with
  | none => rfl
  | some index => rfl

section additions

variable {α β : Type} {given given' kept : ConstantPool → Prop} {change : PoolChange α}
  {next : α → PoolChange β} {result result' : α → ConstantPool → Prop}
  {final : β → ConstantPool → Prop}

/-- Started on a sound pool of which `given` holds, the change leaves a sound pool that has grown,
and `result` holds of that pool and what the change returns. -/
def Adds (given : ConstantPool → Prop) (change : PoolChange α)
    (result : α → ConstantPool → Prop) : Prop :=
  ∀ before : ConstantPool, before.Sound → given before →
    (change.run before).2.Sound ∧ before.Grows (change.run before).2 ∧
      ∀ value, (change.run before).1 = .ok value → result value (change.run before).2

theorem Adds.weaken (h : Adds given change result) (hgiven : ∀ pool, given' pool → given pool)
    (hresult : ∀ value pool, result value pool → result' value pool) :
    Adds given' change result' := by
  intro before hsound hbefore
  obtain ⟨hafter, hgrows, hvalue⟩ := h before hsound (hgiven before hbefore)
  exact ⟨hafter, hgrows, fun value hok => hresult value _ (hvalue value hok)⟩

/-- What growing cannot undo holds on. -/
theorem Adds.keep (h : Adds given change result)
    (hkept : ∀ before after : ConstantPool, before.Grows after → kept before → kept after) :
    Adds (fun pool => given pool ∧ kept pool) change
      fun value pool => result value pool ∧ kept pool := by
  rintro before hsound ⟨hbefore, hold⟩
  obtain ⟨hafter, hgrows, hvalue⟩ := h before hsound hbefore
  exact ⟨hafter, hgrows, fun value hok => ⟨hvalue value hok, hkept before _ hgrows hold⟩⟩

theorem Adds.bind (h : Adds given change result)
    (hnext : ∀ value, Adds (result value) (next value) final) :
    Adds given (change >>= next) final := by
  intro before hsound hbefore
  obtain ⟨hmiddle, hgrows, hvalue⟩ := h before hsound hbefore
  -- A failure keeps the pool as it is by then, so both outcomes are to be looked at.
  rcases hrun : change.run before with ⟨outcome, middle⟩
  rw [hrun] at hmiddle hgrows hvalue
  cases outcome with
  | error error =>
    rw [run_bind_of_error hrun]
    refine ⟨hmiddle, hgrows, ?_⟩
    intro value hok
    cases hok
  | ok value =>
    rw [run_bind_of_ok hrun]
    obtain ⟨hafter, hgrows', hfinal⟩ := hnext value middle hmiddle (hvalue value rfl)
    exact ⟨hafter, hgrows.trans hgrows', hfinal⟩

theorem adds_pure (value : α) (hresult : ∀ pool, given pool → result value pool) :
    Adds given (pure value) result := by
  intro before hsound hbefore
  refine ⟨hsound, .refl before, ?_⟩
  rintro _ ⟨⟩
  exact hresult before hbefore

/-- A limit that is tested before anything is added. -/
theorem adds_unless {refused : Prop} [Decidable refused] {error : FormatError}
    {step : PoolChange α} (h : ¬ refused → Adds given step result) :
    Adds given (if refused then throw error else step) result := by
  intro before hsound hbefore
  split
  case isTrue =>
    refine ⟨hsound, .refl before, ?_⟩
    intro value hok
    cases hok
  case isFalse hpassed => exact h hpassed before hsound hbefore

theorem adds_append (constant : Constant) (husable : constant ≠ .unusable)
    (hfits : constant.Fits) :
    Adds (fun pool => pool.checkConstant constant = .ok ()) (append constant)
      fun index pool => pool.get? index = some constant := by
  intro before hsound hcheck
  rw [run_append]
  split
  case isTrue =>
    refine ⟨hsound, .refl before, ?_⟩
    intro value hok
    cases hok
  case isFalse hroom =>
    have hlt : before.size < 0x10000 := Nat.lt_succ_of_le hsound.size_le
    refine ⟨hsound.extend husable hfits hcheck (Nat.not_lt.mp hroom), grows_extend _ _, ?_⟩
    rintro _ ⟨⟩
    exact get?_extend husable hlt

/-- Whether the constant was there or has been added, the index leads to it. -/
theorem adds_intern (constant : Constant) (husable : constant ≠ .unusable)
    (hfits : constant.Fits) :
    Adds (fun pool => pool.checkConstant constant = .ok ()) (intern constant)
      fun index pool => pool.get? index = some constant := by
  intro before hsound hcheck
  rw [run_intern]
  cases hfound : before.slots.findIdx? (· == constant) with
  | none => exact adds_append constant husable hfits before hsound hcheck
  | some index =>
    refine ⟨hsound, .refl before, ?_⟩
    rintro _ ⟨⟩
    obtain ⟨hlt, heq, -⟩ := Array.findIdx?_eq_some_iff_getElem.mp hfound
    have hindex := toNat_place hsound.size_le hlt
    refine get?_eq_some_iff.mpr ⟨?_, husable⟩
    rw [hindex, Array.getElem?_toList, Array.getElem?_eq_getElem hlt, beq_iff_eq.mp heq]

/-- Whatever the pool is, and whether the change succeeds or fails, no old slot has changed. -/
def Extends (change : PoolChange α) : Prop :=
  ∀ before : ConstantPool, Leaves change before before.Grows

theorem extends_pure (value : α) : Extends (pure value) := fun before => .refl before

theorem Extends.bind (h : Extends change) (hnext : ∀ value, Extends (next value)) :
    Extends (change >>= next) := by
  intro before
  apply leaves_bind (h before)
  intro value middle _ hgrows
  exact hgrows.trans (hnext value middle)

theorem extends_intern (constant : Constant) : Extends (intern constant) := by
  intro before
  rw [Leaves, run_intern]
  split
  · exact .refl before
  · rw [run_append]
    split
    · exact .refl before
    · exact grows_extend before constant

end additions

end ClassThaw.ConstantPool
