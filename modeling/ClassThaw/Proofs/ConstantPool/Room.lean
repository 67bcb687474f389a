import ClassThaw.Proofs.ConstantPool.Entry
import Mathlib.Data.Finset.Card

/-! An addition takes one slot for each entry that it needs and the pool lacks, and fails exactly if
one of their texts is too long or the slots that are left do not suffice. -/

namespace ClassThaw.ConstantPool

variable {pool before middle after : ConstantPool} {needed needed' : Finset Addition}
  {addition : Addition}

open scoped Classical in
/-- The needed entries that the pool lacks. -/
noncomputable def missing (pool : ConstantPool) (needed : Finset Addition) : Finset Addition :=
  needed.filter fun addition => ¬ pool.Holds addition

open scoped Classical in
theorem mem_missing : addition ∈ pool.missing needed ↔ addition ∈ needed ∧ ¬ pool.Holds addition :=
  Finset.mem_filter

/-- A needed text is too long, or what is missing takes more slots than are left. -/
def Overflows (pool : ConstantPool) (needed : Finset Addition) : Prop :=
  (∃ addition ∈ needed, ¬ addition.Fits) ∨ maxCount < pool.size + (pool.missing needed).card

theorem Overflows.mono (hsubset : needed ⊆ needed') (h : pool.Overflows needed) :
    pool.Overflows needed' := by
  rcases h with ⟨addition, hneeded, hlong⟩ | hfull
  · exact .inl ⟨addition, hsubset hneeded, hlong⟩
  · have hmissing : pool.missing needed ⊆ pool.missing needed' := by
      intro addition hmem
      obtain ⟨hneeded, habsent⟩ := mem_missing.mp hmem
      exact mem_missing.mpr ⟨hsubset hneeded, habsent⟩
    have hcard := Finset.card_le_card hmissing
    exact .inr (by omega)

/-- The pool has taken in what it lacked of the needed entries, and nothing else. -/
structure Filled (needed : Finset Addition) (before after : ConstantPool) : Prop where
  sound : after.Sound
  grows : before.Grows after
  fits : ∀ addition ∈ needed, addition.Fits
  size : after.size = before.size + (before.missing needed).card
  holds : ∀ addition, after.Holds addition ↔ before.Holds addition ∨ addition ∈ needed
  -- Each new slot is the first one for an entry that was needed.
  described : ∀ index : UInt16, before.size ≤ index.toNat → index.toNat < after.size →
    ∃ addition ∈ needed, addition.IsAt index after

namespace Filled

/-- Where everything is there already, nothing has to be done. -/
theorem of_holds (hsound : pool.Sound) (hfits : ∀ addition ∈ needed, addition.Fits)
    (hholds : ∀ addition ∈ needed, pool.Holds addition) : Filled needed pool pool where
  sound := hsound
  grows := .refl pool
  fits := hfits
  size := by
    have hnone : pool.missing needed = ∅ := by
      rw [Finset.eq_empty_iff_forall_notMem]
      intro addition hmem
      obtain ⟨hneeded, habsent⟩ := mem_missing.mp hmem
      exact habsent (hholds addition hneeded)
    rw [hnone, Finset.card_empty, Nat.add_zero]
  holds addition := (or_iff_left_of_imp (hholds addition)).symm
  described := by
    intro index hle hlt
    omega

theorem card_missing_singleton (habsent : ¬ pool.Holds addition) :
    (pool.missing {addition}).card = 1 := by
  have hall : pool.missing {addition} = {addition} := by
    ext found
    rw [mem_missing, Finset.mem_singleton, and_iff_left_iff_imp]
    rintro rfl
    exact habsent
  rw [hall, Finset.card_singleton]

/-- A new slot for an entry that was missing. -/
theorem extend {constant : Constant} (hsound : pool.Sound)
    (hsound' : (pool.extend constant).Sound) (hfits : addition.Fits)
    (hwants : addition.Wants pool constant) (hnone : pool.indexOf? constant = none) :
    Filled {addition} pool (pool.extend constant) where
  sound := hsound'
  grows := grows_extend pool constant
  fits := by
    intro found hfound
    rwa [Finset.mem_singleton.mp hfound]
  size := by
    rw [card_missing_singleton (hwants.not_holds hnone), hwants.size_extend]
  holds found := by
    rw [holds_extend hsound hsound'.size_le hwants hnone, Finset.mem_singleton]
  described := by
    intro index hle hlt
    rw [hwants.size_extend] at hlt
    have hindex : index = UInt16.ofNat pool.size := by
      rw [← UInt16.ofNat_toNat (x := index)]
      congr 1
      omega
    rw [hindex]
    exact ⟨addition, Finset.mem_singleton_self addition, isAt_extend hwants hnone⟩

variable (h : Filled needed before middle)

include h

theorem not_overflows : ¬ before.Overflows needed := by
  rintro (⟨addition, hneeded, hlong⟩ | hfull)
  · exact hlong (h.fits addition hneeded)
  · have hsize := h.sound.size_le
    rw [h.size] at hsize
    omega

/-- What is missing of two sets is missing of the first, or of the second once the first is
there. -/
theorem card_missing_union : (before.missing (needed ∪ needed')).card =
    (before.missing needed).card + (middle.missing needed').card := by
  have hdisjoint : Disjoint (before.missing needed) (middle.missing needed') := by
    rw [Finset.disjoint_left]
    intro addition hfirst hsecond
    have hneeded := (mem_missing.mp hfirst).1
    exact (mem_missing.mp hsecond).2 ((h.holds addition).mpr (.inr hneeded))
  have hunion : before.missing (needed ∪ needed') =
      before.missing needed ∪ middle.missing needed' := by
    ext addition
    rw [Finset.mem_union, mem_missing, mem_missing, mem_missing, Finset.mem_union, h.holds]
    tauto
  rw [hunion, Finset.card_union_of_disjoint hdisjoint]

theorem trans (h' : Filled needed' middle after) : Filled (needed ∪ needed') before after where
  sound := h'.sound
  grows := h.grows.trans h'.grows
  fits := by
    intro addition hneeded
    rcases Finset.mem_union.mp hneeded with hfirst | hsecond
    · exact h.fits addition hfirst
    · exact h'.fits addition hsecond
  size := by rw [h'.size, h.size, h.card_missing_union, Nat.add_assoc]
  holds := by
    intro addition
    rw [h'.holds, h.holds, Finset.mem_union, or_assoc]
  described := by
    intro index hle hlt
    rcases Nat.lt_or_ge index.toNat middle.size with hold | hnew
    · obtain ⟨addition, hneeded, hindex⟩ := h.described index hle hold
      exact ⟨addition, Finset.mem_union_left _ hneeded, hindex.grow h'.grows⟩
    · obtain ⟨addition, hneeded, hindex⟩ := h'.described index hnew hlt
      exact ⟨addition, Finset.mem_union_right _ hneeded, hindex⟩

theorem overflows_union (hover : middle.Overflows needed') :
    before.Overflows (needed ∪ needed') := by
  rcases hover with ⟨addition, hneeded, hlong⟩ | hfull
  · exact .inl ⟨addition, Finset.mem_union_right _ hneeded, hlong⟩
  · rw [h.size] at hfull
    exact .inr (by rw [h.card_missing_union]; omega)

end Filled

section additions

variable {α β : Type} {given given' kept : ConstantPool → Prop} {change : PoolChange α}
  {next : α → PoolChange β} {result result' : α → ConstantPool → Prop}
  {final : β → ConstantPool → Prop}

/-- On a sound pool of which `given` holds, the change fills in what it needs, and `result` holds of
what it returns; or it is refused at a limit, because what it needs overflows the pool. -/
def Fills (given : ConstantPool → Prop) (needed : Finset Addition) (change : PoolChange α)
    (result : α → ConstantPool → Prop) : Prop :=
  ∀ before : ConstantPool, before.Sound → given before →
    (∃ value after, Gives change before value after ∧ Filled needed before after ∧
      result value after) ∨
    (∃ what count, (change.run before).1 = .error (.limitExceeded what count)) ∧
      before.Overflows needed

theorem Fills.weaken (h : Fills given needed change result)
    (hgiven : ∀ pool, given' pool → given pool)
    (hresult : ∀ value pool, result value pool → result' value pool) :
    Fills given' needed change result' := by
  intro before hsound hbefore
  rcases h before hsound (hgiven before hbefore) with
    ⟨value, after, hgives, hfilled, hvalue⟩ | hlimit
  · exact .inl ⟨value, after, hgives, hfilled, hresult value after hvalue⟩
  · exact .inr hlimit

/-- What growing cannot undo holds on. -/
theorem Fills.beside (h : Fills (fun _ => True) needed change result)
    (hkept : ∀ before after : ConstantPool, before.Grows after → kept before → kept after) :
    Fills kept needed change fun value pool => result value pool ∧ kept pool := by
  intro before hsound hold
  rcases h before hsound trivial with ⟨value, after, hgives, hfilled, hvalue⟩ | hlimit
  · exact .inl ⟨value, after, hgives, hfilled, hvalue, hkept before after hfilled.grows hold⟩
  · exact .inr hlimit

theorem Fills.bind (h : Fills given needed change result)
    (hnext : ∀ value, Fills (result value) needed' (next value) final) :
    Fills given (needed ∪ needed') (change >>= next) final := by
  intro before hsound hbefore
  rcases h before hsound hbefore with
    ⟨value, middle, hgives, hfilled, hvalue⟩ | ⟨⟨what, count, hlimit⟩, hover⟩
  · have hrun : (change >>= next).run before = (next value).run middle := run_bind_of_ok hgives
    rcases hnext value middle hfilled.sound hvalue with
      ⟨value', after, hgives', hfilled', hvalue'⟩ | ⟨hlimit, hover⟩
    · exact .inl ⟨value', after, hrun.trans hgives', hfilled.trans hfilled', hvalue'⟩
    · exact .inr ⟨hrun ▸ hlimit, hfilled.overflows_union hover⟩
  · refine .inr ⟨⟨what, count, ?_⟩, hover.mono Finset.subset_union_left⟩
    rw [run_bind_of_error (Prod.ext hlimit rfl)]

theorem fills_pure (value : α) (hresult : ∀ pool, given pool → result value pool) :
    Fills given ∅ (pure value) result := by
  intro before hsound hbefore
  have hfilled : Filled ∅ before before := .of_holds hsound (by simp) (by simp)
  exact .inl ⟨value, before, gives_pure.mpr ⟨rfl, rfl⟩, hfilled, hresult before hbefore⟩

/-- A constant that refers to what is there takes one slot, unless it is there itself. -/
theorem fills_intern (addition : Addition) {constant : Constant} (hfits : addition.Fits) :
    Fills (addition.Wants · constant) {addition} (intern constant) addition.IsAt := by
  intro before hsound hwants
  cases hindex : before.indexOf? constant with
  | some index =>
    have hrun : (intern constant).run before = (.ok index, before) := by
      rw [run_intern_eq, hindex]
    have hholds : addition.IsAt index before := ⟨constant, hwants, hindex⟩
    have hfilled : Filled {addition} before before :=
      .of_holds hsound (by simpa using hfits) (by simpa using ⟨index, hholds⟩)
    exact .inl ⟨index, before, hrun, hfilled, hholds⟩
  | none =>
    have hrun : (intern constant).run before = (append constant).run before := by
      rw [run_intern_eq, hindex]
    rw [run_append, hwants.width_eq] at hrun
    split at hrun
    case isTrue hfull =>
      have hcard := Filled.card_missing_singleton (hwants.not_holds hindex)
      refine .inr ⟨⟨_, _, congrArg Prod.fst hrun⟩, .inr ?_⟩
      rw [hcard]
      exact hfull
    case isFalse hroom =>
      have hcheck := hwants.check hsound.size_le
      have hsound' := hsound.extend hwants.usable (hwants.fits hfits) hcheck
        (by rw [hwants.width_eq]; exact Nat.not_lt.mp hroom)
      exact .inl ⟨_, _, hrun, .extend hsound hsound' hfits hwants hindex, isAt_extend hwants hindex⟩

/-- An entry that is made of one other. -/
theorem fills_one (whole : Addition) {part : Addition} {change : PoolChange UInt16}
    {make : UInt16 → Constant} (h : Fills (fun _ => True) needed change part.IsAt)
    (hfits : whole.Fits)
    (hwants : ∀ index (pool : ConstantPool), part.IsAt index pool →
      whole.Wants pool (make index)) :
    Fills (fun _ => True) (needed ∪ {whole}) (do
        let index ← change
        intern (make index))
      whole.IsAt := by
  apply h.bind
  intro index
  exact (fills_intern whole hfits).weaken (hwants index) fun _ _ hindex => hindex

/-- An entry that is made of two others. -/
theorem fills_two (whole : Addition) {part part' : Addition} {change change' : PoolChange UInt16}
    {make : UInt16 → UInt16 → Constant} (h : Fills (fun _ => True) needed change part.IsAt)
    (h' : Fills (fun _ => True) needed' change' part'.IsAt) (hfits : whole.Fits)
    (hwants : ∀ first second (pool : ConstantPool), part.IsAt first pool →
      part'.IsAt second pool → whole.Wants pool (make first second)) :
    Fills (fun _ => True) (needed ∪ (needed' ∪ {whole})) (do
        let first ← change
        let second ← change'
        intern (make first second))
      whole.IsAt := by
  apply h.bind
  intro first
  apply (h'.beside fun _ _ hgrows hfirst => hfirst.grow hgrows).bind
  intro second
  refine (fills_intern whole hfits).weaken ?_ fun _ _ hindex => hindex
  rintro pool ⟨hsecond, hfirst⟩
  exact hwants first second pool hfirst hsecond

end additions

namespace Addition

/-- The entries that a call needs: what its entry is made of, and the entry itself. -/
def needs : Addition → Finset Addition
  | .text content => {.text content}
  | .class name => {.text name} ∪ {.class name}
  | .string literal => {.text literal} ∪ {.string literal}
  | .integer value => {.integer value}
  | .nameAndType name descriptor =>
    {.text name} ∪ ({.text descriptor} ∪ {.nameAndType name descriptor})
  | .fieldRef owner name descriptor =>
    ({.text owner} ∪ {.class owner}) ∪
      (({.text name} ∪ ({.text descriptor} ∪ {.nameAndType name descriptor})) ∪
        {.fieldRef owner name descriptor})
  | .methodRef owner name descriptor =>
    ({.text owner} ∪ {.class owner}) ∪
      (({.text name} ∪ ({.text descriptor} ∪ {.nameAndType name descriptor})) ∪
        {.methodRef owner name descriptor})

theorem fills_text (content : String) :
    Fills (fun _ => True) {.text content} (internText content) (text content).IsAt := by
  have hstored : Fills (fun _ => True) {.text content}
      (if maxCount < (ModifiedUtf8.encode content).length then
        throw (.limitExceeded .utf8Length (ModifiedUtf8.encode content).length)
      else intern (.utf8 (ModifiedUtf8.encode content)))
      (text content).IsAt := by
    intro before hsound _
    split
    case isTrue hlong =>
      refine .inr ⟨⟨_, _, rfl⟩, .inl ⟨.text content, Finset.mem_singleton_self _, ?_⟩⟩
      exact Nat.not_le.mpr hlong
    case isFalse hshort =>
      exact fills_intern (.text content) (Nat.not_lt.mp hshort) before hsound .text
  exact hstored

theorem fills_class (name : String) :
    Fills (fun _ => True) (needs (.class name)) (internClass name) (Addition.class name).IsAt := by
  apply fills_one (.class name) (fills_text name) trivial
  rintro index pool ⟨constant, hwants, hindex⟩
  exact .class hwants hindex

theorem fills_nameAndType (name descriptor : String) :
    Fills (fun _ => True) (needs (.nameAndType name descriptor)) (internNameAndType name descriptor)
      (nameAndType name descriptor).IsAt := by
  apply fills_two (.nameAndType name descriptor) (fills_text name) (fills_text descriptor) trivial
  rintro first second pool ⟨constant, hname, hfirst⟩ ⟨constant', hdescriptor, hsecond⟩
  exact .nameAndType hname hfirst hdescriptor hsecond

/-- Every call takes the slots that it needs and no more. -/
theorem fills_change (addition : Addition) :
    Fills (fun _ => True) addition.needs addition.change addition.IsAt := by
  cases addition with
  | text content => exact fills_text content
  | «class» name => exact fills_class name
  | string literal =>
    apply fills_one (.string literal) (fills_text literal) trivial
    rintro index pool ⟨constant, hwants, hindex⟩
    exact .string hwants hindex
  | integer value =>
    have hwants (pool : ConstantPool) (_ : True) : Wants pool (.integer value) (.integer value) :=
      .integer
    exact (fills_intern (.integer value) trivial).weaken hwants fun _ _ hindex => hindex
  | nameAndType name descriptor => exact fills_nameAndType name descriptor
  | fieldRef owner name descriptor =>
    apply fills_two (.fieldRef owner name descriptor) (fills_class owner)
      (fills_nameAndType name descriptor) trivial
    rintro first second pool ⟨constant, howner, hfirst⟩ ⟨constant', hmember, hsecond⟩
    exact .fieldRef howner hfirst hmember hsecond
  | methodRef owner name descriptor =>
    apply fills_two (.methodRef owner name descriptor) (fills_class owner)
      (fills_nameAndType name descriptor) trivial
    rintro first second pool ⟨constant, howner, hfirst⟩ ⟨constant', hmember, hsecond⟩
    exact .methodRef howner hfirst hmember hsecond

end Addition

end ClassThaw.ConstantPool
