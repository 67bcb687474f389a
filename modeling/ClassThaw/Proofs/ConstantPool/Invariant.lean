import ClassThaw.Proofs.ConstantPool.Room

namespace ClassThaw.ConstantPool

variable {pool before after : ConstantPool} {constant : Constant} {index : UInt16}

/-- The second of two slots in a row is unusable exactly if the first holds a wide constant. -/
def Follows (first second : Constant) : Prop := second = .unusable ↔ first.isWide = true

theorem Laid.isChain {body : List Constant} (h : Laid body) {first : Constant}
    (hfirst : first.isWide = false) : (first :: body).IsChain Follows := by
  induction h generalizing first with
  | nil => exact .singleton first
  | @cons constant rest husable _ _ ih =>
    have hstart : Follows first constant := by
      rw [Follows, hfirst]
      exact iff_of_false husable Bool.false_ne_true
    unfold Constant.span
    split
    case isTrue hwide =>
      have hsecond : Follows constant .unusable := iff_of_true rfl hwide
      exact .cons_cons hstart (.cons_cons hsecond (ih rfl))
    case isFalse hnarrow => exact .cons_cons hstart (ih (Bool.eq_false_iff.mpr hnarrow))

/-- A wide constant has its second slot behind it. -/
theorem Laid.isWide_getLast {body : List Constant} (h : Laid body) {first : Constant}
    (hfirst : first.isWide = false) :
    ((first :: body).getLast (List.cons_ne_nil first body)).isWide = false := by
  induction h generalizing first with
  | nil => exact hfirst
  | @cons constant rest _ _ _ ih =>
    unfold Constant.span
    split
    case isTrue => exact ih rfl
    case isFalse hnarrow => exact ih (Bool.eq_false_iff.mpr hnarrow)

/-- The entries are the usable slots, each with the place that it has. -/
theorem entries_eq (hsize : pool.size ≤ maxCount) :
    pool.entries.map (fun entry => (entry.2, entry.1.toNat)) =
      pool.slots.toList.zipIdx.filter fun slot => slot.1 ≠ .unusable := by
  rw [entries, List.map_filterMap, ← List.filterMap_eq_filter]
  apply List.filterMap_congr
  rintro ⟨constant, place⟩ hslot
  -- No place is so large that it is cut off in its index.
  have hlt : place < pool.size := (List.mem_zipIdx' hslot).1
  have hplace := toNat_place hsize hlt
  cases constant <;> simp [Option.guard, hplace]

theorem mem_entries_iff (hsize : pool.size ≤ maxCount) :
    (index, constant) ∈ pool.entries ↔ pool.get? index = some constant := by
  have hmem : (index, constant) ∈ pool.entries ↔ (constant, index.toNat) ∈
      pool.entries.map fun entry => (entry.2, entry.1.toNat) := by
    constructor
    · intro hentry
      exact List.mem_map_of_mem hentry
    · intro hentry
      obtain ⟨⟨index', constant'⟩, hentry', heq⟩ := List.mem_map.mp hentry
      obtain ⟨rfl, hindex⟩ := Prod.mk.inj heq
      rwa [← UInt16.toNat_inj.mp hindex]
  rw [hmem, entries_eq hsize, List.mem_filter, List.mem_zipIdx_iff_getElem?, get?_eq_some_iff,
    decide_eq_true_iff]

/-- The layout of the slots, the limits, and what the entries lead to. -/
structure Invariant (pool : ConstantPool) : Prop where
  first : pool.slots[0]? = some .unusable
  unusable_iff : ∀ (place : Nat) (constant following : Constant),
    pool.slots[place]? = some constant → pool.slots[place + 1]? = some following →
      (following = .unusable ↔ constant.isWide = true)
  wide : ∀ (place : Nat) (constant : Constant), pool.slots[place]? = some constant →
    constant.isWide = true → place + 1 < pool.size
  size_le : pool.size ≤ maxCount
  length_le : ∀ bytes, .utf8 bytes ∈ pool.slots.toList → bytes.length ≤ maxCount
  check : pool.check = .ok ()
  entries : pool.entries.map (fun entry => (entry.2, entry.1.toNat)) =
    pool.slots.toList.zipIdx.filter fun slot => slot.1 ≠ .unusable
  get?_entries : ∀ entry ∈ pool.entries, pool.get? entry.1 = some entry.2

theorem Sound.invariant (h : pool.Sound) : pool.Invariant := by
  obtain ⟨body, hslots, hbody, -⟩ := h.wellFormed
  have hslot (place : Nat) : pool.slots[place]? = (.unusable :: body)[place]? := by
    rw [← hslots, Array.getElem?_toList]
  have hchain : (Constant.unusable :: body).IsChain Follows := hbody.isChain rfl
  constructor
  case first => exact hslot 0
  case unusable_iff =>
    intro place constant following hconstant hfollowing
    rw [hslot] at hconstant hfollowing
    obtain ⟨_, rfl⟩ := List.getElem?_eq_some_iff.mp hconstant
    obtain ⟨hplace, rfl⟩ := List.getElem?_eq_some_iff.mp hfollowing
    exact List.isChain_iff_getElem.mp hchain place hplace
  case wide =>
    intro place constant hconstant hwide
    rw [hslot] at hconstant
    obtain ⟨hplace, rfl⟩ := List.getElem?_eq_some_iff.mp hconstant
    have hsize := size_eq_of_slots hslots
    have hnarrow : Constant.unusable.isWide = false := rfl
    have hlast := hbody.isWide_getLast hnarrow
    rw [List.getLast_eq_getElem] at hlast
    rw [List.length_cons] at hplace
    by_contra hend
    have hplace' : place = (Constant.unusable :: body).length - 1 := by
      rw [List.length_cons]
      omega
    subst hplace'
    rw [hwide] at hlast
    cases hlast
  case size_le => exact h.size_le
  case length_le =>
    intro bytes hbytes
    exact Nat.le_of_lt_succ (h.wellFormed.fits _ hbytes)
  case check => exact h.check
  case entries => exact entries_eq h.size_le
  case get?_entries =>
    rintro ⟨index, constant⟩ hentry
    exact (mem_entries_iff h.size_le).mp hentry

/-- The pool after some calls, each of which may have failed. -/
def afterCalls (pool : ConstantPool) (calls : List Addition) : ConstantPool :=
  calls.foldl (fun pool addition => (addition.change.run pool).2) pool

/-- Whatever is called, a sound pool stays sound and only grows. -/
theorem Sound.afterCalls (h : pool.Sound) (calls : List Addition) :
    (pool.afterCalls calls).Sound ∧ pool.Grows (pool.afterCalls calls) := by
  induction calls generalizing pool with
  | nil => exact ⟨h, .refl pool⟩
  | cons addition calls ih =>
    obtain ⟨hsound, hgrows, -⟩ := addition.adds_change pool h trivial
    obtain ⟨hsound', hgrows'⟩ := ih hsound
    exact ⟨hsound', hgrows.trans hgrows'⟩

/-- The index that a call hands out is the place of the first slot that holds what was asked for. -/
theorem Sound.index_eq (h : pool.Sound) {addition : Addition} {index : UInt16}
    (hindex : (addition.change.run pool).1 = .ok index) :
    ∃ constant, addition.Wants (addition.change.run pool).2 constant ∧
      (addition.change.run pool).2.slots.toList.findIdx? (· == constant) = some index.toNat := by
  rcases addition.fills_change pool h trivial with
    ⟨index', after, hgives, hfilled, constant, hwants, hfound⟩ | ⟨⟨what, count, hlimit⟩, -⟩
  · obtain ⟨hvalue, rfl⟩ := gives_iff.mp hgives
    obtain rfl : index' = index := Except.ok.inj (hvalue.symm.trans hindex)
    exact ⟨constant, hwants, (indexOf?_eq_some_iff hfilled.sound.size_le).mp hfound⟩
  · rw [hlimit] at hindex
    cases hindex

/-- In every pool that calls can lead to, the slots are laid out properly and keep to the limits,
and further calls leave them alone, whether they succeed or fail. An index that a call hands out is
the true place of the entry that was asked for, and leads to it for good. -/
theorem invariant_of_reachable (h : pool.Reachable) :
    pool.Invariant ∧
    (∀ calls : List Addition, (pool.afterCalls calls).Invariant ∧
      ∀ place < pool.size, (pool.afterCalls calls).slots[place]? = pool.slots[place]?) ∧
    ∀ (addition : Addition) (index : UInt16), (addition.change.run pool).1 = .ok index →
      addition.Found index (addition.change.run pool).2 ∧
      ∃ constant, addition.Wants (addition.change.run pool).2 constant ∧
        (addition.change.run pool).2.slots.toList.findIdx? (· == constant) = some index.toNat ∧
        ∀ calls : List Addition,
          ((addition.change.run pool).2.afterCalls calls).get? index = some constant := by
  have hsound := h.sound
  refine ⟨hsound.invariant, ?_, ?_⟩
  · intro calls
    obtain ⟨hafter, added, hslots⟩ := hsound.afterCalls calls
    refine ⟨hafter.invariant, ?_⟩
    intro place hplace
    rw [← Array.getElem?_toList, ← Array.getElem?_toList, ← hslots]
    exact List.getElem?_append_left hplace
  · intro addition index hindex
    obtain ⟨hafter, -, hfound⟩ := addition.adds_change pool hsound trivial
    obtain ⟨constant, hwants, hplace⟩ := hsound.index_eq hindex
    have hfirst := (indexOf?_eq_some_iff hafter.size_le).mpr hplace
    have hget := get?_eq_some_iff.mpr ⟨slot_of_indexOf? hafter.size_le hfirst, hwants.usable⟩
    refine ⟨hfound index hindex, constant, hwants, hplace, ?_⟩
    intro calls
    exact (hafter.afterCalls calls).2.get? hget

theorem invariant_of_reachable_sample :
    ((Addition.class "E").change.run empty).2.Reachable ∧
    ((Addition.class "E").change.run empty).2.Invariant ∧
    ((Addition.fieldRef "E" "$VALUES" "[LE;").change.run
      ((Addition.class "E").change.run empty).2).1 = .ok 6 ∧
    (Addition.fieldRef "E" "$VALUES" "[LE;").Found 6
      ((Addition.fieldRef "E" "$VALUES" "[LE;").change.run
        ((Addition.class "E").change.run empty).2).2 := by
  have hreachable : ((Addition.class "E").change.run empty).2.Reachable :=
    .added (.class "E") .empty
  have hindex : ((Addition.fieldRef "E" "$VALUES" "[LE;").change.run
      ((Addition.class "E").change.run empty).2).1 = .ok 6 := by
    decide +kernel
  obtain ⟨hinvariant, -, hcalls⟩ := invariant_of_reachable hreachable
  exact ⟨hreachable, hinvariant, hindex, (hcalls _ 6 hindex).1⟩

end ClassThaw.ConstantPool
