import ClassThaw.Proofs.HolderRule.Eligibility
import ClassThaw.Proofs.Legibility

/-! The overview names one marker for a field, while the rule asks for each marker among all
annotations. So the markers are not enough to tell what the rule thaws, but the annotations are. -/

namespace ClassThaw

namespace Summary

variable {rules : HolderRules} {file : ClassFile} {summary : Summary} {field : Field}
  {entry : FieldSummary}

/-- By the overview, the field is final and is a holder, where a field of this kind makes all fields
of the class holders. -/
def Predicts (rules : HolderRules) (summary : Summary) (escalates : FieldSummary → Prop)
    (entry : FieldSummary) : Prop :=
  "FINAL" ∈ entry.access ∧
    ((∃ descriptor ∈ summary.annotations, ∃ marker, rules.Marks marker descriptor) ∨
      (∃ other ∈ summary.fields, escalates other) ∨ entry.holderMarker?.isSome = true)

/-- One of the annotations that are listed for the field carries the item-stack marker. -/
def ListsItemStack (rules : HolderRules) (entry : FieldSummary) : Prop :=
  ∃ descriptor ∈ entry.annotations, rules.Marks .itemStackHolder descriptor

theorem of_ofField {pool : ConstantPool} (h : ofField rules pool field = .ok entry) :
    entry.access = field.access.labels ∧
      field.annotationDescriptors pool = .ok entry.annotations ∧
      entry.holderMarker? = entry.annotations.findSome? rules.marker? := by
  simp only [ofField, bind_eq_ok_iff] at h
  obtain ⟨annotations, hannotations, _, -, _, -, ⟨⟩⟩ := h
  exact ⟨rfl, hannotations, rfl⟩

theorem of_ofClass (h : ofClass rules file = .ok summary) :
    file.fields.mapM (ofField rules file.pool) = .ok summary.fields ∧
      file.annotationDescriptors = .ok summary.annotations := by
  simp only [ofClass, bind_eq_ok_iff] at h
  obtain ⟨fields, hfields, _, -, _, -, _, -, _, -, _, -, annotations, hannotations, _, -, ⟨⟩⟩ := h
  exact ⟨hfields, hannotations⟩

theorem final_mem_access_iff {pool : ConstantPool} (h : ofField rules pool field = .ok entry) :
    "FINAL" ∈ entry.access ↔ field.access.has .final = true := by
  rw [(of_ofField h).1]
  apply Access.mem_labels_iff field.access .final (by decide)
  intro other
  cases other <;> decide

/-- A field has a marker in the overview if one of its annotations carries any. -/
theorem isSome_holderMarker?_iff {pool : ConstantPool} (h : ofField rules pool field = .ok entry) :
    entry.holderMarker?.isSome = true ↔
      ∃ marker, rules.Marked marker pool field.attributes := by
  obtain ⟨-, hannotations, hmarker⟩ := of_ofField h
  rw [hmarker, List.findSome?_isSome_iff, HolderRules.exists_marked_iff hannotations]
  simp only [HolderRules.isSome_marker?_iff]

/-- A field whose marker in the overview is the item-stack marker lists an annotation with it. -/
theorem listsItemStack_of_holderMarker? {pool : ConstantPool}
    (h : ofField rules pool field = .ok entry)
    (hmarker : entry.holderMarker? = some .itemStackHolder) : ListsItemStack rules entry := by
  rw [(of_ofField h).2.2] at hmarker
  obtain ⟨descriptor, hmem, hfound⟩ := List.exists_of_findSome?_eq_some hmarker
  exact ⟨descriptor, hmem, HolderRules.marks_of_marker? hfound⟩

theorem listsItemStack_iff {pool : ConstantPool} (h : ofField rules pool field = .ok entry) :
    ListsItemStack rules entry ↔ rules.Marked .itemStackHolder pool field.attributes :=
  (HolderRules.marked_iff (of_ofField h).2.1).symm

/-- What the overview says of its entries is what holds of the fields. -/
theorem exists_listsItemStack_iff (h : ofClass rules file = .ok summary) :
    (∃ other ∈ summary.fields, ListsItemStack rules other) ↔
      ∃ other ∈ file.fields, rules.Marked .itemStackHolder file.pool other.attributes := by
  have hfields := mapM_eq_ok_iff.mp (of_ofClass h).1
  constructor
  · rintro ⟨entry, hmem, hlists⟩
    obtain ⟨field, hfield, hentry⟩ := exists_mem_of_forall₂ hfields hmem
    exact ⟨field, hfield, (listsItemStack_iff hentry).mp hlists⟩
  · rintro ⟨field, hmem, hmarked⟩
    obtain ⟨entry, hfound, hentry⟩ := exists_mem_of_forall₂ hfields.flip hmem
    exact ⟨entry, hfound, (listsItemStack_iff hentry).mpr hmarked⟩

/-- Unless the class is forced, the overview predicts `final` to be taken from the holders that have
it. -/
theorem predicts_iff {className : String} (hforced : className ∉ rules.forcedClasses)
    (hsummary : ofClass rules file = .ok summary) (hfield : field ∈ file.fields)
    (hentry : ofField rules file.pool field = .ok entry) :
    summary.Predicts rules (ListsItemStack rules) entry ↔
      field.access.has .final = true ∧ rules.IsHolder className file field := by
  have hown : (∃ marker, rules.Marked marker file.pool file.attributes) ↔
      ∃ descriptor ∈ summary.annotations, ∃ marker, rules.Marks marker descriptor :=
    HolderRules.exists_marked_iff (of_ofClass hsummary).2
  rw [Predicts, final_mem_access_iff hentry, ← hown, exists_listsItemStack_iff hsummary,
    isSome_holderMarker?_iff hentry, HolderRules.IsHolder, iff_false_intro hforced, false_or]
  refine and_congr_right fun _ => or_congr_right ?_
  constructor
  · rintro (hother | ⟨marker, hmarked⟩)
    · exact .inl hother
    -- The item-stack marker of the field itself makes all fields holders.
    · cases marker with
      | objectHolder => exact .inr hmarked
      | itemStackHolder => exact .inl ⟨field, hfield, hmarked⟩
  · rintro (hother | hmarked)
    · exact .inl hother
    · exact .inr ⟨.objectHolder, hmarked⟩

end Summary

namespace HolderRules

/-- For a class that has been read and is not forced, the overview predicts what the rule thaws. A
field that the overview gives the item-stack marker makes all fields holders, and so does any other
that lists an annotation with this marker. -/
theorem thawed_iff_predicted (rules : HolderRules) (debug : Bool) {className : String}
    {bytes : Bytes} {file : ClassFile} (log : Array Event)
    (hparse : ClassFile.parse bytes = .ok file) (hforced : className ∉ rules.forcedClasses) :
    ∃ summary count after, Summary.ofClass rules file = .ok summary ∧
      Gives (rules.thawFields debug className) ⟨file, log⟩ count after ∧
      (∀ (position : Nat) (field : Field), file.fields[position]? = some field →
        ∃ entry field', summary.fields[position]? = some entry ∧
          after.file.fields[position]? = some field' ∧
          (field.access.has .final = true ∧ field'.access.has .final = false ↔
            summary.Predicts rules (Summary.ListsItemStack rules) entry)) ∧
      ∀ entry ∈ summary.fields, entry.holderMarker? = some .itemStackHolder →
        Summary.ListsItemStack rules entry := by
  have hcheck := ClassFile.check_of_parse hparse
  obtain ⟨summary, hsummary⟩ := Summary.exists_ofClass rules hcheck
  have hfields := mapM_eq_ok_iff.mp (Summary.of_ofClass hsummary).1
  obtain ⟨events, -, hgives⟩ := @gives_thawFields rules debug className ⟨file, log⟩ hcheck
  refine ⟨summary, _, _, hsummary, hgives, ?_, ?_⟩
  · intro position field hfield
    obtain ⟨entry, hentry, hof⟩ := exists_getElem?_of_forall₂ hfields hfield
    have hmem := List.mem_of_getElem? hfield
    have hselects : rules.selects className file field = true ↔
        summary.Predicts rules (Summary.ListsItemStack rules) entry :=
      (selects_iff hcheck hmem).trans (Summary.predicts_iff hforced hsummary hmem hof).symm
    have hafter : (rules.thaw className file).fields[position]? =
        some (if rules.selects className file field then field.thawed else field) := by
      rw [thaw, ClassFile.thawWhere, List.getElem?_map, hfield]
      rfl
    refine ⟨entry, _, hentry, hafter, ?_⟩
    rw [← hselects]
    split
    case isTrue hselected =>
      have hfinal : field.access.has .final = true := ((selects_iff hcheck hmem).mp hselected).1
      have hcleared := Access.has_clear field.access .final (by decide)
      exact iff_of_true ⟨hfinal, hcleared⟩ hselected
    case isFalse hkept =>
      -- The field is as it was, so it did not lose the flag.
      refine iff_of_false ?_ hkept
      rintro ⟨hfinal, hlost⟩
      rw [hfinal] at hlost
      cases hlost
  · intro entry hentry hmarker
    obtain ⟨field, -, hof⟩ := exists_mem_of_forall₂ hfields hentry
    exact Summary.listsItemStack_of_holderMarker? hof hmarker

/-- A class with a field that has both markers, the object marker first, and a field without. -/
def markedSample : ClassFile where
  minor := 0
  major := 52
  pool := ⟨#[.unusable, .utf8 (ModifiedUtf8.encode "E"), .class 1,
    .utf8 (ModifiedUtf8.encode "java/lang/Object"), .class 3, .utf8 (ModifiedUtf8.encode "A"),
    .utf8 (ModifiedUtf8.encode "I"), .utf8 (ModifiedUtf8.encode "RuntimeVisibleAnnotations"),
    .utf8 (ModifiedUtf8.encode "Lcpw/mods/fml/common/registry/GameRegistry/ObjectHolder;"),
    .utf8 (ModifiedUtf8.encode "Lcpw/mods/fml/common/registry/GameRegistry/ItemStackHolder;"),
    .utf8 (ModifiedUtf8.encode "B")]⟩
  access := ⟨0x21⟩
  thisClass := 2
  superClass := 4
  interfaces := []
  fields := [⟨⟨0x18⟩, 5, 6, [.visibleAnnotations 7 [⟨8, []⟩, ⟨9, []⟩]]⟩, ⟨⟨0x18⟩, 10, 6, []⟩]
  methods := []
  attributes := []

def markedSampleBytes : Bytes :=
  [202, 254, 186, 190, 0, 0, 0, 52, 0, 11, 1, 0, 1, 69, 7, 0, 1, 1, 0, 16, 106, 97, 118, 97, 47,
    108, 97, 110, 103, 47, 79, 98, 106, 101, 99, 116, 7, 0, 3, 1, 0, 1, 65, 1, 0, 1, 73, 1, 0, 25,
    82, 117, 110, 116, 105, 109, 101, 86, 105, 115, 105, 98, 108, 101, 65, 110, 110, 111, 116, 97,
    116, 105, 111, 110, 115, 1, 0, 56, 76, 99, 112, 119, 47, 109, 111, 100, 115, 47, 102, 109, 108,
    47, 99, 111, 109, 109, 111, 110, 47, 114, 101, 103, 105, 115, 116, 114, 121, 47, 71, 97, 109,
    101, 82, 101, 103, 105, 115, 116, 114, 121, 47, 79, 98, 106, 101, 99, 116, 72, 111, 108, 100,
    101, 114, 59, 1, 0, 59, 76, 99, 112, 119, 47, 109, 111, 100, 115, 47, 102, 109, 108, 47, 99,
    111, 109, 109, 111, 110, 47, 114, 101, 103, 105, 115, 116, 114, 121, 47, 71, 97, 109, 101, 82,
    101, 103, 105, 115, 116, 114, 121, 47, 73, 116, 101, 109, 83, 116, 97, 99, 107, 72, 111, 108,
    100, 101, 114, 59, 1, 0, 1, 66, 0, 33, 0, 2, 0, 4, 0, 0, 0, 2, 0, 24, 0, 5, 0, 6, 0, 1, 0, 7, 0,
    0, 0, 10, 0, 2, 0, 8, 0, 0, 0, 9, 0, 0, 0, 24, 0, 10, 0, 6, 0, 0, 0, 0, 0, 0]

theorem parse_markedSample : ClassFile.parse markedSampleBytes = .ok markedSample := by
  decide +kernel

/-- The overview of the fields of the sample. -/
def markedEntries : List FieldSummary :=
  [⟨"A", "I", ["STATIC", "FINAL"], ["Lcpw/mods/fml/common/registry/GameRegistry/ObjectHolder;",
      "Lcpw/mods/fml/common/registry/GameRegistry/ItemStackHolder;"], some .objectHolder, false⟩,
    ⟨"B", "I", ["STATIC", "FINAL"], [], none, false⟩]

theorem thawed_iff_predicted_markedSample :
    ClassFile.parse markedSampleBytes = .ok markedSample ∧
    "E" ∉ ({} : HolderRules).forcedClasses ∧
    ∃ summary count after, Summary.ofClass {} markedSample = .ok summary ∧
      Gives (({} : HolderRules).thawFields true "E") ⟨markedSample, #[]⟩ count after ∧
      (∀ (position : Nat) (field : Field), markedSample.fields[position]? = some field →
        ∃ entry field', summary.fields[position]? = some entry ∧
          after.file.fields[position]? = some field' ∧
          (field.access.has .final = true ∧ field'.access.has .final = false ↔
            summary.Predicts {} (Summary.ListsItemStack {}) entry)) ∧
      ∀ entry ∈ summary.fields, entry.holderMarker? = some .itemStackHolder →
        Summary.ListsItemStack {} entry := by
  have hparse := parse_markedSample
  have hforced : "E" ∉ ({} : HolderRules).forcedClasses := by decide
  exact ⟨hparse, hforced, thawed_iff_predicted {} true #[] hparse hforced⟩

/-- The markers that the overview names do not predict what is thawed. That of the first field is
the object marker, which is its own matter, but the item-stack marker behind it makes a holder of
the second field, for which the overview has no marker. -/
theorem not_predicted_by_holderMarker :
    ∃ summary count after entry field field', ClassFile.parse markedSampleBytes = .ok markedSample ∧
      "E" ∉ ({} : HolderRules).forcedClasses ∧
      Summary.ofClass {} markedSample = .ok summary ∧
      Gives (({} : HolderRules).thawFields true "E") ⟨markedSample, #[]⟩ count after ∧
      summary.fields[1]? = some entry ∧
      markedSample.fields[1]? = some field ∧ after.file.fields[1]? = some field' ∧
      (field.access.has .final = true ∧ field'.access.has .final = false) ∧
      ¬ summary.Predicts {} (fun other => other.holderMarker? = some .itemStackHolder) entry := by
  have hparse := parse_markedSample
  have hcheck := ClassFile.check_of_parse hparse
  obtain ⟨summary, hsummary⟩ := Summary.exists_ofClass ({} : HolderRules) hcheck
  obtain ⟨hfields, hannotations⟩ := Summary.of_ofClass hsummary
  have hentries : markedSample.fields.mapM (Summary.ofField {} markedSample.pool) =
      .ok markedEntries := by decide +kernel
  have hnone : markedSample.annotationDescriptors = .ok [] := rfl
  have hlisted : summary.fields = markedEntries := Except.ok.inj (hfields.symm.trans hentries)
  have hunmarked : summary.annotations = [] := Except.ok.inj (hannotations.symm.trans hnone)
  obtain ⟨events, -, hgives⟩ :=
    @gives_thawFields ({} : HolderRules) true "E" ⟨markedSample, #[]⟩ hcheck
  have hthawed : (({} : HolderRules).thaw "E" markedSample).fields[1]? =
      some ⟨⟨0x8⟩, 10, 6, []⟩ := by decide +kernel
  refine ⟨summary, _, _, ⟨"B", "I", ["STATIC", "FINAL"], [], none, false⟩, ⟨⟨0x18⟩, 10, 6, []⟩, _,
    hparse, by decide, hsummary, hgives, ?_, rfl, hthawed, by decide, ?_⟩
  · rw [hlisted]
    rfl
  · rw [Summary.Predicts, hlisted, hunmarked]
    rintro ⟨-, ⟨_, hmem, -⟩ | hother | hmarker⟩
    · cases hmem
    · exact absurd hother (by decide)
    · cases hmarker

end HolderRules

end ClassThaw
