import ClassThaw.Proofs.ConstantPool.Addition

namespace ClassThaw.ConstantPool

variable {pool before after : ConstantPool} {constant constant' : Constant} {index : UInt16}
  {addition addition' : Addition}

/-- The index of the first slot that holds a constant. -/
def indexOf? (pool : ConstantPool) (constant : Constant) : Option UInt16 :=
  (pool.slots.toList.findIdx? (· == constant)).map UInt16.ofNat

theorem indexOf?_eq_none_iff : pool.indexOf? constant = none ↔ constant ∉ pool.slots.toList := by
  rw [indexOf?, Option.map_eq_none_iff, List.findIdx?_eq_none_iff]
  constructor
  · intro h hmem
    exact beq_eq_false_iff_ne.mp (h constant hmem) rfl
  · intro h found hfound
    refine beq_eq_false_iff_ne.mpr ?_
    intro heq
    exact h (heq ▸ hfound)

theorem run_intern_eq (constant : Constant) (pool : ConstantPool) : (intern constant).run pool =
    match pool.indexOf? constant with
    | some index => (.ok index, pool)
    | none => (append constant).run pool := by
  have hplaces : pool.slots.findIdx? (· == constant) =
      pool.slots.toList.findIdx? (· == constant) :=
    List.findIdx?_toArray _ pool.slots.toList
  rw [run_intern, indexOf?, hplaces]
  cases pool.slots.toList.findIdx? (· == constant) with
  | none => rfl
  | some place => rfl

theorem indexOf?_eq_some_iff (hsize : pool.size ≤ maxCount) :
    pool.indexOf? constant = some index ↔
      pool.slots.toList.findIdx? (· == constant) = some index.toNat := by
  constructor
  · intro h
    obtain ⟨place, hplace, rfl⟩ := Option.map_eq_some_iff.mp h
    obtain ⟨hlt, -⟩ := List.findIdx?_eq_some_iff_getElem.mp hplace
    rw [hplace, toNat_place hsize hlt]
  · intro h
    rw [indexOf?, h, Option.map_some, UInt16.ofNat_toNat]

theorem slot_of_indexOf? (hsize : pool.size ≤ maxCount)
    (h : pool.indexOf? constant = some index) :
    pool.slots.toList[index.toNat]? = some constant := by
  have hplace := (indexOf?_eq_some_iff hsize).mp h
  obtain ⟨hlt, heq, -⟩ := List.findIdx?_eq_some_iff_getElem.mp hplace
  rw [List.getElem?_eq_getElem hlt, beq_iff_eq.mp heq]

theorem eq_of_indexOf? (hsize : pool.size ≤ maxCount) (h : pool.indexOf? constant = some index)
    (h' : pool.indexOf? constant' = some index) : constant = constant' := by
  have hslot := slot_of_indexOf? hsize h
  have hslot' := slot_of_indexOf? hsize h'
  exact Option.some.inj (hslot.symm.trans hslot')

theorem indexOf?_extend (hspan : constant.span = [constant])
    (h : pool.indexOf? constant = none) :
    (pool.extend constant).indexOf? constant = some (UInt16.ofNat pool.size) := by
  have hnone : pool.slots.toList.findIdx? (· == constant) = none := Option.map_eq_none_iff.mp h
  have hfirst : [constant].findIdx? (· == constant) = some 0 := by simp
  rw [indexOf?, toList_extend, List.findIdx?_append, hnone, hspan, hfirst, Option.none_or,
    Option.map_some, Option.map_some, Nat.zero_add]
  rfl

namespace Grows

/-- The first slot stays the first one. -/
theorem indexOf? (h : before.Grows after) (hindex : before.indexOf? constant = some index) :
    after.indexOf? constant = some index := by
  obtain ⟨added, hslots⟩ := h
  obtain ⟨place, hplace, rfl⟩ := Option.map_eq_some_iff.mp hindex
  rw [ConstantPool.indexOf?, ← hslots, List.findIdx?_append, hplace, Option.some_or,
    Option.map_some]

/-- A first slot that was there before was the first one then. -/
theorem indexOf?_of_lt (h : before.Grows after) (hsize : after.size ≤ maxCount)
    (hindex : after.indexOf? constant = some index) (hlt : index.toNat < before.size) :
    before.indexOf? constant = some index := by
  cases hold : before.indexOf? constant with
  | some index' => exact (h.indexOf? hold).symm.trans hindex
  | none =>
    -- Otherwise the slot at the index would hold the constant all the same.
    have hslot := slot_of_indexOf? hsize hindex
    obtain ⟨added, hslots⟩ := h
    rw [← hslots, List.getElem?_append_left hlt] at hslot
    exact absurd (List.mem_of_getElem? hslot) (indexOf?_eq_none_iff.mp hold)

end Grows

namespace Addition

/-- The constant that a call looks for: it refers to the first slots of what the entry is made
of. -/
inductive Wants (pool : ConstantPool) : Addition → Constant → Prop
  | text {content : String} : Wants pool (.text content) (.utf8 (ModifiedUtf8.encode content))
  | «class» {name : String} {constant : Constant} {text : UInt16} :
      Wants pool (.text name) constant → pool.indexOf? constant = some text →
      Wants pool (.class name) (.class text)
  | string {literal : String} {constant : Constant} {text : UInt16} :
      Wants pool (.text literal) constant → pool.indexOf? constant = some text →
      Wants pool (.string literal) (.string text)
  | integer {value : Int32} : Wants pool (.integer value) (.integer value)
  | nameAndType {name descriptor : String} {constant constant' : Constant}
      {first second : UInt16} :
      Wants pool (.text name) constant → pool.indexOf? constant = some first →
      Wants pool (.text descriptor) constant' → pool.indexOf? constant' = some second →
      Wants pool (.nameAndType name descriptor) (.nameAndType first second)
  | fieldRef {owner name descriptor : String} {constant constant' : Constant}
      {first second : UInt16} :
      Wants pool (.class owner) constant → pool.indexOf? constant = some first →
      Wants pool (.nameAndType name descriptor) constant' →
      pool.indexOf? constant' = some second →
      Wants pool (.fieldRef owner name descriptor) (.fieldRef first second)
  | methodRef {owner name descriptor : String} {constant constant' : Constant}
      {first second : UInt16} :
      Wants pool (.class owner) constant → pool.indexOf? constant = some first →
      Wants pool (.nameAndType name descriptor) constant' →
      pool.indexOf? constant' = some second →
      Wants pool (.methodRef owner name descriptor) (.methodRef first second)

/-- The index is the one that the call returns without adding anything. -/
def IsAt (addition : Addition) (index : UInt16) (pool : ConstantPool) : Prop :=
  ∃ constant, Wants pool addition constant ∧ pool.indexOf? constant = some index

/-- The stored form of a text that is to be added keeps to the limit. -/
def Fits : Addition → Prop
  | .text content => (ModifiedUtf8.encode content).length ≤ maxCount
  | _ => True

namespace Wants

theorem usable (h : Wants pool addition constant) : constant ≠ .unusable := by
  cases h <;> simp

theorem span_eq (h : Wants pool addition constant) : constant.span = [constant] := by
  cases h <;> rfl

theorem width_eq (h : Wants pool addition constant) : constant.width = 1 := by
  cases h <;> rfl

theorem fits (h : Wants pool addition constant) (hfits : addition.Fits) : constant.Fits := by
  cases h with
  | text => exact Nat.lt_succ_of_le hfits
  | _ => trivial

theorem grow (hgrows : before.Grows after) (h : Wants before addition constant) :
    Wants after addition constant := by
  induction h with
  | text => exact .text
  | integer => exact .integer
  | «class» _ hindex ih => exact .class ih (hgrows.indexOf? hindex)
  | string _ hindex ih => exact .string ih (hgrows.indexOf? hindex)
  | nameAndType _ hindex _ hindex' ih ih' =>
    exact .nameAndType ih (hgrows.indexOf? hindex) ih' (hgrows.indexOf? hindex')
  | fieldRef _ hindex _ hindex' ih ih' =>
    exact .fieldRef ih (hgrows.indexOf? hindex) ih' (hgrows.indexOf? hindex')
  | methodRef _ hindex _ hindex' ih ih' =>
    exact .methodRef ih (hgrows.indexOf? hindex) ih' (hgrows.indexOf? hindex')

/-- A call looks for one constant only. -/
theorem unique (h : Wants pool addition constant) (h' : Wants pool addition constant') :
    constant = constant' := by
  have hsame {wanted wanted' : Constant} {first first' : UInt16} (heq : wanted = wanted')
      (hindex : pool.indexOf? wanted = some first)
      (hindex' : pool.indexOf? wanted' = some first') : first = first' := by
    subst heq
    exact Option.some.inj (hindex.symm.trans hindex')
  induction h generalizing constant' with
  | text => cases h'; rfl
  | integer => cases h'; rfl
  | «class» _ hindex ih =>
    cases h' with
    | «class» hwants' hindex' => rw [hsame (ih hwants') hindex hindex']
  | string _ hindex ih =>
    cases h' with
    | string hwants' hindex' => rw [hsame (ih hwants') hindex hindex']
  | nameAndType _ hfirst _ hsecond ih ih' =>
    cases h' with
    | nameAndType hname hfirst' hdescriptor hsecond' =>
      rw [hsame (ih hname) hfirst hfirst', hsame (ih' hdescriptor) hsecond hsecond']
  | fieldRef _ hfirst _ hsecond ih ih' =>
    cases h' with
    | fieldRef howner hfirst' hmember hsecond' =>
      rw [hsame (ih howner) hfirst hfirst', hsame (ih' hmember) hsecond hsecond']
  | methodRef _ hfirst _ hsecond ih ih' =>
    cases h' with
    | methodRef howner hfirst' hmember hsecond' =>
      rw [hsame (ih howner) hfirst hfirst', hsame (ih' hmember) hsecond hsecond']

/-- A constant is looked for by one call only, as the texts that it leads to tell which. -/
theorem addition_eq (hsize : pool.size ≤ maxCount) (h : Wants pool addition constant)
    (h' : Wants pool addition' constant') (heq : constant = constant') : addition = addition' := by
  induction h generalizing addition' constant' with
  | text =>
    cases h' with
    | text =>
      have hdecode := congrArg ModifiedUtf8.decode (Constant.utf8.inj heq)
      rw [ModifiedUtf8.decode_encode, ModifiedUtf8.decode_encode] at hdecode
      rw [hdecode]
    | _ => cases heq
  | integer => cases h' <;> cases heq; rfl
  | «class» _ hindex ih | string _ hindex ih =>
    cases h' <;> cases heq
    next hwants' hindex' =>
      cases ih hwants' (eq_of_indexOf? hsize hindex hindex')
      rfl
  | nameAndType _ hfirst _ hsecond ih ih' | fieldRef _ hfirst _ hsecond ih ih'
  | methodRef _ hfirst _ hsecond ih ih' =>
    cases h' <;> cases heq
    next hwants' hwants'' hfirst' hsecond' =>
      cases ih hwants' (eq_of_indexOf? hsize hfirst hfirst')
      cases ih' hwants'' (eq_of_indexOf? hsize hsecond hsecond')
      rfl

end Wants

namespace IsAt

theorem grow (hgrows : before.Grows after) (h : addition.IsAt index before) :
    addition.IsAt index after := by
  obtain ⟨constant, hwants, hindex⟩ := h
  exact ⟨constant, hwants.grow hgrows, hgrows.indexOf? hindex⟩

/-- What is looked for first is also what is found. -/
theorem found (hsize : pool.size ≤ maxCount) (h : addition.IsAt index pool) :
    addition.Found index pool := by
  obtain ⟨constant, hwants, hindex⟩ := h
  have hget {wanted : Constant} {first : UInt16} (husable : wanted ≠ .unusable)
      (hfirst : pool.indexOf? wanted = some first) : pool.get? first = some wanted :=
    get?_eq_some_iff.mpr ⟨slot_of_indexOf? hsize hfirst, husable⟩
  induction hwants generalizing index with
  | text => exact hget (by simp) hindex
  | integer => exact hget (by simp) hindex
  | «class» _ hfirst ih | string _ hfirst ih => exact ⟨_, hget (by simp) hindex, ih hfirst⟩
  | nameAndType _ hfirst _ hsecond ih ih' | fieldRef _ hfirst _ hsecond ih ih'
  | methodRef _ hfirst _ hsecond ih ih' =>
    exact ⟨_, _, hget (by simp) hindex, ih hfirst, ih' hsecond⟩

end IsAt

/-- What a call looks for refers to entries of the right kind. -/
theorem Wants.check (hsize : pool.size ≤ maxCount) (h : Wants pool addition constant) :
    pool.checkConstant constant = .ok () := by
  cases h with
  | text | integer => rfl
  | «class» hwants hindex | string hwants hindex =>
    exact IsText.check (IsAt.found hsize ⟨_, hwants, hindex⟩)
  | nameAndType hname hfirst hdescriptor hsecond =>
    have hname' := IsText.check (IsAt.found hsize ⟨_, hname, hfirst⟩)
    have hdescriptor' := IsText.check (IsAt.found hsize ⟨_, hdescriptor, hsecond⟩)
    exact check_bind_eq_ok_iff.mpr ⟨hname', hdescriptor'⟩
  | fieldRef howner hfirst hmember hsecond | methodRef howner hfirst hmember hsecond =>
    have howner' := IsClass.check (IsAt.found hsize ⟨_, howner, hfirst⟩)
    have hmember' := IsNameAndType.check (IsAt.found hsize ⟨_, hmember, hsecond⟩)
    exact check_bind_eq_ok_iff.mpr ⟨howner', hmember'⟩

/-- A constant that was in a sound pool before it has grown was looked for by the same call then. -/
theorem Wants.of_grow (hsound : before.Sound) (hgrows : before.Grows after)
    (hsize : after.size ≤ maxCount) (h : Wants after addition constant)
    (hmem : constant ∈ before.slots.toList) : Wants before addition constant := by
  have hchecked := check_eq_ok_iff.mp hsound.check
  -- Where an old constant refers to, there was a slot before.
  have hfirst {wanted : Constant} {first : UInt16} (hindex : after.indexOf? wanted = some first)
      (hused : ∃ found, before.get? first = some found) :
      wanted ∈ before.slots.toList ∧ before.indexOf? wanted = some first := by
    obtain ⟨found, hfound⟩ := hused
    obtain ⟨hlt, -⟩ := List.getElem?_eq_some_iff.mp (get?_eq_some_iff.mp hfound).1
    have hold := hgrows.indexOf?_of_lt hsize hindex hlt
    exact ⟨List.mem_of_getElem? (slot_of_indexOf? hsound.size_le hold), hold⟩
  induction h with
  | text => exact .text
  | integer => exact .integer
  | «class» _ hindex ih =>
    obtain ⟨text, htext⟩ := checkUtf8_eq_ok_iff.mp (hchecked _ hmem)
    obtain ⟨hmem', hindex'⟩ := hfirst hindex ⟨_, htext⟩
    exact .class (ih hmem') hindex'
  | string _ hindex ih =>
    obtain ⟨text, htext⟩ := checkUtf8_eq_ok_iff.mp (hchecked _ hmem)
    obtain ⟨hmem', hindex'⟩ := hfirst hindex ⟨_, htext⟩
    exact .string (ih hmem') hindex'
  | nameAndType _ hindex _ hindex' ih ih' =>
    obtain ⟨hname, hdescriptor⟩ := check_bind_eq_ok_iff.mp (hchecked _ hmem)
    obtain ⟨text, htext⟩ := checkUtf8_eq_ok_iff.mp hname
    obtain ⟨text', htext'⟩ := checkUtf8_eq_ok_iff.mp hdescriptor
    obtain ⟨hmem, hold⟩ := hfirst hindex ⟨_, htext⟩
    obtain ⟨hmem', hold'⟩ := hfirst hindex' ⟨_, htext'⟩
    exact .nameAndType (ih hmem) hold (ih' hmem') hold'
  | fieldRef _ hindex _ hindex' ih ih' =>
    obtain ⟨howner, hmember⟩ := check_bind_eq_ok_iff.mp (hchecked _ hmem)
    obtain ⟨name, hname⟩ := checkClass_eq_ok_iff.mp howner
    obtain ⟨_, _, hboth⟩ := checkNameAndType_eq_ok_iff.mp hmember
    obtain ⟨hmem, hold⟩ := hfirst hindex ⟨_, hname⟩
    obtain ⟨hmem', hold'⟩ := hfirst hindex' ⟨_, hboth⟩
    exact .fieldRef (ih hmem) hold (ih' hmem') hold'
  | methodRef _ hindex _ hindex' ih ih' =>
    obtain ⟨howner, hmember⟩ := check_bind_eq_ok_iff.mp (hchecked _ hmem)
    obtain ⟨name, hname⟩ := checkClass_eq_ok_iff.mp howner
    obtain ⟨_, _, hboth⟩ := checkNameAndType_eq_ok_iff.mp hmember
    obtain ⟨hmem, hold⟩ := hfirst hindex ⟨_, hname⟩
    obtain ⟨hmem', hold'⟩ := hfirst hindex' ⟨_, hboth⟩
    exact .methodRef (ih hmem) hold (ih' hmem') hold'

end Addition

/-- The pool holds the entry that a call looks for. -/
def Holds (pool : ConstantPool) (addition : Addition) : Prop :=
  ∃ index, addition.IsAt index pool

theorem Holds.grow (hgrows : before.Grows after) (h : before.Holds addition) :
    after.Holds addition := by
  obtain ⟨index, hindex⟩ := h
  exact ⟨index, hindex.grow hgrows⟩

/-- A call adds the constant that it looks for only if the entry is missing. -/
theorem Addition.Wants.not_holds (hwants : addition.Wants pool constant)
    (hnone : pool.indexOf? constant = none) : ¬ pool.Holds addition := by
  rintro ⟨index, constant', hwants', hindex⟩
  rw [← hwants.unique hwants', hnone] at hindex
  cases hindex

theorem Addition.Wants.size_extend (hwants : addition.Wants pool constant) :
    (pool.extend constant).size = pool.size + 1 := by
  have hlength := congrArg List.length (toList_extend pool constant)
  rw [hwants.span_eq, List.length_append, List.length_singleton] at hlength
  exact hlength

/-- A new slot holds what it was added for. -/
theorem isAt_extend (hwants : addition.Wants pool constant)
    (hnone : pool.indexOf? constant = none) :
    addition.IsAt (UInt16.ofNat pool.size) (pool.extend constant) :=
  ⟨constant, hwants.grow (grows_extend pool constant), indexOf?_extend hwants.span_eq hnone⟩

/-- Nothing else becomes present with it: what refers to the new slot is not there yet. -/
theorem holds_extend (hsound : pool.Sound) (hsize : (pool.extend constant).size ≤ maxCount)
    (hwants : addition.Wants pool constant) (hnone : pool.indexOf? constant = none) :
    (pool.extend constant).Holds addition' ↔ pool.Holds addition' ∨ addition' = addition := by
  have hgrows := grows_extend pool constant
  constructor
  · rintro ⟨index, constant', hwants', hindex'⟩
    have hslot := List.mem_of_getElem? (slot_of_indexOf? hsize hindex')
    rw [toList_extend] at hslot
    rcases List.mem_append.mp hslot with hold | hnew
    · have hfound : pool.indexOf? constant' ≠ none := mt indexOf?_eq_none_iff.mp (not_not.mpr hold)
      obtain ⟨index, hindex⟩ := Option.ne_none_iff_exists'.mp hfound
      exact .inl ⟨index, constant', hwants'.of_grow hsound hgrows hsize hold, hindex⟩
    · rw [hwants.span_eq, List.mem_singleton] at hnew
      exact .inr (hwants'.addition_eq hsize (hwants.grow hgrows) hnew)
  · rintro (hold | rfl)
    · exact hold.grow hgrows
    · exact ⟨_, isAt_extend hwants hnone⟩

end ClassThaw.ConstantPool
