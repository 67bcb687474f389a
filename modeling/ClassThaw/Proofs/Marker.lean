import ClassThaw.Configuration
import ClassThaw.Proofs.Pointwise

namespace ClassThaw

namespace Matching

variable {fragment text : List Char}

theorem occursIn_iff : occursIn fragment text = true ↔ fragment <:+: text := by
  induction text with
  | nil => rw [occursIn, List.isEmpty_iff, List.infix_nil]
  | cons char rest ih =>
    rw [occursIn, Bool.or_eq_true_iff, ih, List.isPrefixOf_iff_prefix, List.infix_cons_iff]

/-- In the name of a type, the character may stand where the fragment has the other one. -/
def StandsFor (char fragment : Char) : Prop := char = fragment ∨ char = '$' ∧ fragment = '/'

theorem spells_iff {char char' : Char} : spells char char' = true ↔ StandsFor char char' := by
  rw [spells, Bool.or_eq_true_iff, Bool.and_eq_true_iff, beq_iff_eq, beq_iff_eq, beq_iff_eq,
    StandsFor]

theorem spellsAll_iff : spellsAll text fragment = true ↔ List.Forall₂ StandsFor text fragment := by
  induction text generalizing fragment with
  | nil =>
    rw [List.forall₂_nil_left_iff]
    cases fragment <;> simp [spellsAll]
  | cons char text ih =>
    cases fragment with
    | nil => simp [spellsAll]
    | cons char' fragment =>
      rw [spellsAll, Bool.and_eq_true_iff, spells_iff, ih, List.forall₂_cons]

theorem isDescriptorOf_iff : isDescriptorOf fragment text = true ↔
    ∃ name, text = 'L' :: (name ++ [';']) ∧ List.Forall₂ StandsFor name fragment := by
  unfold isDescriptorOf
  split
  case h_1 rest =>
    rw [Bool.and_eq_true_iff, beq_iff_eq, spellsAll_iff]
    constructor
    · rintro ⟨hlast, hname⟩
      refine ⟨rest.dropLast, ?_, hname⟩
      rw [List.dropLast_append_getLast? _ hlast]
    · rintro ⟨name, htext, hname⟩
      obtain rfl := (List.cons.inj htext).2
      rw [List.getLast?_concat, List.dropLast_concat]
      exact ⟨rfl, hname⟩
  case h_2 hother =>
    refine iff_of_false Bool.false_ne_true ?_
    rintro ⟨name, rfl, -⟩
    exact hother _ rfl

/-- The descriptor has the fragment somewhere in it, or is that of the class which the fragment
names. -/
def Recognises : Matching → (fragment descriptor : String) → Prop
  | .substring, fragment, descriptor =>
    ∃ before after, descriptor = before ++ fragment ++ after
  | .exact, fragment, descriptor =>
    ∃ name : String, descriptor = "L" ++ name ++ ";" ∧
      List.Forall₂ StandsFor name.toList fragment.toList

theorem accepts_eq_true_iff {matching : Matching} {fragment descriptor : String} :
    matching.accepts fragment descriptor = true ↔ matching.Recognises fragment descriptor := by
  cases matching with
  | substring =>
    rw [accepts, occursIn_iff, Recognises]
    constructor
    · rintro ⟨before, after, htext⟩
      refine ⟨.ofList before, .ofList after, String.toList_inj.mp ?_⟩
      simp only [String.toList_append, String.toList_ofList, htext]
    · rintro ⟨before, after, rfl⟩
      refine ⟨before.toList, after.toList, ?_⟩
      simp only [String.toList_append]
  | exact =>
    rw [accepts, isDescriptorOf_iff, Recognises]
    constructor
    · rintro ⟨name, htext, hname⟩
      refine ⟨.ofList name, String.toList_inj.mp ?_, ?_⟩
      · simp only [String.toList_append, String.toList_ofList, htext]
        rfl
      · rwa [String.toList_ofList]
    · rintro ⟨name, rfl, hname⟩
      refine ⟨name.toList, ?_, hname⟩
      simp only [String.toList_append]
      rfl

end Matching

namespace HolderRules

variable {rules : HolderRules} {marker : Marker} {descriptor : String}

/-- An annotation of the type with this descriptor carries the marker. -/
def Marks (rules : HolderRules) (marker : Marker) (descriptor : String) : Prop :=
  rules.strategy (rules.fragment marker) descriptor = true

/-- Where the way of matching has a name, a marker is what it recognises. -/
theorem marks_iff_recognises {config : Configuration} : config.rules.Marks marker descriptor ↔
    config.matching.Recognises (config.fragment marker) descriptor :=
  Matching.accepts_eq_true_iff

theorem isMarker_iff : rules.isMarker marker descriptor = true ↔ rules.Marks marker descriptor :=
  Iff.rfl

theorem marks_of_marker? (h : rules.marker? descriptor = some marker) :
    rules.Marks marker descriptor := by
  rw [marker?] at h
  have hfound := List.find?_some h
  exact isMarker_iff.mp hfound

/-- Whichever marker is asked for first, one is found if there is any. -/
theorem isSome_marker?_iff :
    (rules.marker? descriptor).isSome = true ↔ ∃ marker, rules.Marks marker descriptor := by
  rw [marker?, List.find?_isSome]
  simp only [isMarker_iff]
  constructor
  · rintro ⟨marker, -, hmarks⟩
    exact ⟨marker, hmarks⟩
  · rintro ⟨marker, hmarks⟩
    refine ⟨marker, ?_, hmarks⟩
    cases marker <;> decide

theorem anyIs_iff {descriptors : List String} : rules.anyIs marker descriptors = true ↔
    ∃ descriptor ∈ descriptors, rules.Marks marker descriptor := by
  rw [anyIs, List.any_eq_true]
  simp only [isMarker_iff]

theorem anyIsMarker_iff {descriptors : List String} : rules.anyIsMarker descriptors = true ↔
    ∃ descriptor ∈ descriptors, ∃ marker, rules.Marks marker descriptor := by
  rw [anyIsMarker, List.any_eq_true]
  simp only [isSome_marker?_iff]

end HolderRules

end ClassThaw
