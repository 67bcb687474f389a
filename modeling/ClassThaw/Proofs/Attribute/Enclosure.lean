import ClassThaw.Proofs.ClassFile.Size
import Mathlib.Algebra.Order.BigOperators.Group.List
import Mathlib.Algebra.Order.Group.Nat

/-! Each method body adds its own bytes to those of what lies in it, so the length of an attribute's
content bounds how many of them lie inside each other. For element values only a limit of their own
does. -/

namespace ClassThaw

namespace ElementValue

/-- A class with this many arrays around it, which hold nothing else. -/
def tower (descriptor : UInt16) : Nat → ElementValue
  | 0 => .class descriptor
  | depth + 1 => .array [tower descriptor depth]

theorem depth_tower (descriptor : UInt16) (depth : Nat) :
    (tower descriptor depth).depth = depth := by
  induction depth with
  | zero => rfl
  | succ depth ih =>
    rw [tower, ElementValue.depth, depthInValues, depthInValues, ih]
    omega

theorem size_tower (descriptor : UInt16) (depth : Nat) :
    (tower descriptor depth).size = 3 * depth + 3 := by
  induction depth with
  | zero => rfl
  | succ depth ih =>
    rw [tower, size, sizeOfValues, sizeOfValues, ih]
    omega

theorem fits_tower (descriptor : UInt16) (depth : Nat) : (tower descriptor depth).Fits := by
  induction depth with
  | zero => exact trivial
  | succ depth ih => exact ⟨Nat.one_lt_succ_succ _, ih, trivial⟩

theorem check_tower {pool : ConstantPool} {descriptor : UInt16}
    (h : pool.checkUtf8 descriptor = .ok ()) (depth : Nat) :
    (tower descriptor depth).check pool = .ok () := by
  induction depth with
  | zero => exact h
  | succ depth ih =>
    rw [tower, check, checkValues_eq_ok_iff]
    exact List.forall_mem_singleton.mpr ih

end ElementValue

namespace AnnotationInfo

/-- An annotation of this depth, with one text for all its names. -/
def tower (text : UInt16) : Nat → AnnotationInfo
  | 0 => ⟨text, []⟩
  | depth + 1 => ⟨text, [(text, ElementValue.tower text depth)]⟩

theorem depth_tower (text : UInt16) (depth : Nat) : (tower text depth).depth = depth := by
  cases depth with
  | zero => rfl
  | succ depth =>
    rw [tower, AnnotationInfo.depth, ElementValue.depthInElements, ElementValue.depthInElements,
      ElementValue.depth_tower]
    omega

theorem size_tower_le (text : UInt16) (depth : Nat) :
    (tower text depth).size ≤ 3 * depth + 6 := by
  cases depth with
  | zero => exact (by decide : 4 ≤ 3 * 0 + 6)
  | succ depth =>
    rw [tower, size, ElementValue.sizeOfElements, ElementValue.sizeOfElements,
      ElementValue.size_tower]
    omega

theorem fits_tower (text : UInt16) (depth : Nat) : (tower text depth).Fits := by
  cases depth with
  | zero => exact ⟨Nat.zero_lt_succ _, trivial⟩
  | succ depth => exact ⟨Nat.one_lt_succ_succ _, ElementValue.fits_tower text depth, trivial⟩

theorem check_tower {pool : ConstantPool} {text : UInt16} (h : pool.checkUtf8 text = .ok ())
    (depth : Nat) : (tower text depth).check pool = .ok () := by
  rw [check_eq_ok_iff, ElementValue.checkElements_eq_ok_iff]
  cases depth with
  | zero => exact ⟨h, List.forall_mem_nil _⟩
  | succ depth =>
    exact ⟨h, List.forall_mem_singleton.mpr ⟨h, ElementValue.check_tower h depth⟩⟩

end AnnotationInfo

namespace Attribute

/-- The attribute lies in the other one with this many method bodies around it. -/
inductive LiesIn (item : Attribute) : Nat → Attribute → Prop
  | itself : LiesIn item 0 item
  | code {count : Nat} {name : UInt16} {body : MethodBody} {attributes : List Attribute}
      {inner : Attribute} : inner ∈ attributes → LiesIn item count inner →
      LiesIn item (count + 1) (.code name body attributes)

theorem mem_within_iff {item outer : Attribute} :
    item ∈ outer.within ↔ ∃ count, item.LiesIn count outer := by
  constructor
  · induction outer using induct with
    | code name body attributes ih =>
      rw [within, withinAll_eq_flatMap, List.mem_cons, List.mem_flatMap]
      rintro (rfl | ⟨inner, hinner, hitem⟩)
      · exact ⟨0, .itself⟩
      · obtain ⟨count, hcount⟩ := ih inner hinner hitem
        exact ⟨count + 1, .code hinner hcount⟩
    | constantValue | visibleAnnotations | invisibleAnnotations | raw =>
      intro hitem
      rw [List.mem_singleton.mp hitem]
      exact ⟨0, .itself⟩
  · rintro ⟨count, hcount⟩
    induction hcount with
    | itself => exact mem_within item
    | code hinner _ ih =>
      rw [within, withinAll_eq_flatMap, List.mem_cons, List.mem_flatMap]
      exact .inr ⟨_, hinner, ih⟩

theorem contentSize_le_sizeOfAll {inner : Attribute} {attributes : List Attribute}
    (h : inner ∈ attributes) : 6 + inner.contentSize ≤ sizeOfAll attributes := by
  rw [sizeOfAll_eq]
  exact List.le_sum_of_mem (List.mem_map_of_mem h)

/-- A method body without code takes ten bytes, the count of its attributes two, and the name and
the length of the attribute in it six. -/
theorem LiesIn.contentSize_le {item outer : Attribute} {count : Nat}
    (h : item.LiesIn count outer) : 18 * count + item.contentSize ≤ outer.contentSize := by
  induction h with
  | itself => exact Nat.le_of_eq (Nat.zero_add _)
  | code hinner _ ih =>
    have hsize := contentSize_le_sizeOfAll hinner
    rw [contentSize, MethodBody.size]
    omega

theorem le_contentSize_of_code {item : Attribute} (h : item.kind? = some .code) :
    12 ≤ item.contentSize := by
  cases item with
  | code name body attributes =>
    rw [contentSize, MethodBody.size]
    omega
  | _ => cases h

theorem Fits.contentSize_lt {item : Attribute} (h : item.Fits) :
    item.contentSize < 0x100000000 := by
  cases item with
  | constantValue name value => exact (by decide : 2 < 0x100000000)
  | code name body attributes => exact h.2
  | visibleAnnotations name infos => exact h.2
  | invisibleAnnotations name infos => exact h.2
  | raw name bytes => exact h

/-- The most method bodies that a method body in a class file can have around it. With nothing in it
its content takes twelve bytes, and each one around it adds eighteen. -/
def maxBodyDepth : Nat := (0xFFFFFFFF - 12) / 18

theorem LiesIn.le_maxBodyDepth {item outer : Attribute} {count : Nat} (h : item.LiesIn count outer)
    (hkind : item.kind? = some .code) (hfits : outer.Fits) : count ≤ maxBodyDepth := by
  have hsize := h.contentSize_le
  have hleast := le_contentSize_of_code hkind
  have hlimit := hfits.contentSize_lt
  rw [maxBodyDepth]
  omega

/-- An attribute of any kind has at most one more method body around it than the innermost of these
has itself. -/
theorem LiesIn.le_succ_maxBodyDepth {item outer : Attribute} {count : Nat}
    (h : item.LiesIn count outer) (hfits : outer.Fits) : count ≤ maxBodyDepth + 1 := by
  have hsize := h.contentSize_le
  have hlimit := hfits.contentSize_lt
  rw [maxBodyDepth]
  omega

/-- A method body without code, which leaves room for the most attributes. -/
def emptyBody : MethodBody := ⟨0, 0, [], []⟩

/-- An empty method body with this many others around it, which hold nothing else. -/
def tower (name : UInt16) : Nat → Attribute
  | 0 => .code name emptyBody []
  | count + 1 => .code name emptyBody [tower name count]

section tower

variable {pool : ConstantPool} {name : UInt16}

theorem liesIn_tower (name : UInt16) (count : Nat) :
    (tower name 0).LiesIn count (tower name count) := by
  induction count with
  | zero => exact .itself
  | succ count ih => exact .code (List.mem_singleton_self _) ih

theorem contentSize_tower (name : UInt16) (count : Nat) :
    (tower name count).contentSize = 18 * count + 12 := by
  have hbody : emptyBody.size = 10 := rfl
  induction count with
  | zero => rfl
  | succ count ih =>
    rw [tower, contentSize, sizeOfAll, sizeOfAll, ih, hbody]
    omega

theorem fits_tower {count : Nat} (h : count ≤ maxBodyDepth) : (tower name count).Fits := by
  have hbody : emptyBody.Fits := by
    rw [MethodBody.Fits]
    decide
  have hsize : (tower name count).contentSize < 0x100000000 := by
    rw [maxBodyDepth] at h
    rw [contentSize_tower]
    omega
  induction count with
  | zero => exact ⟨⟨hbody, by decide, trivial⟩, hsize⟩
  | succ count ih =>
    have hinner : (tower name count).contentSize < 0x100000000 := by
      rw [contentSize_tower] at hsize ⊢
      omega
    have hlength : [tower name count].length < 0x10000 := by
      rw [List.length_singleton]
      decide
    exact ⟨⟨hbody, hlength, ih (Nat.le_of_succ_le h) hinner, trivial⟩, hsize⟩

theorem check_tower (h : checkName pool name (some .code) = .ok ()) (count : Nat) :
    (tower name count).check pool = .ok () := by
  have hcode {attributes : List Attribute}
      (hall : ∀ item ∈ attributes, item.check pool = .ok ()) :
      (Attribute.code name emptyBody attributes).check pool = .ok () := by
    rw [check, check_bind_eq_ok_iff, check_bind_eq_ok_iff, checkAll_eq_ok_iff]
    exact ⟨h, rfl, hall⟩
  induction count with
  | zero => exact hcode (List.forall_mem_nil _)
  | succ count ih => exact hcode (List.forall_mem_singleton.mpr ih)

theorem isReadable_tower (pool : ConstantPool) (name : UInt16) (count : Nat) :
    ∀ item ∈ (tower name count).within, item.IsReadable pool := by
  have hcode (attributes : List Attribute) :
      (Attribute.code name emptyBody attributes).IsReadable pool :=
    ⟨id, List.forall_mem_nil _⟩
  induction count with
  | zero => exact List.forall_mem_singleton.mpr (hcode _)
  | succ count ih =>
    rw [tower, within, withinAll, withinAll, List.append_nil, List.forall_mem_cons]
    exact ⟨hcode _, ih⟩

end tower

end Attribute

end ClassThaw
