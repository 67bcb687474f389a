import ClassThaw.CommandLine.Tool
import ClassThaw.Proofs.ClassFile.RoundTrip
import Mathlib.Data.List.Infix

namespace ClassThaw

variable {text rest entry name : List Char}

theorem withoutEnding?_eq_some_iff {ending : List Char} :
    withoutEnding? ending text = some rest ↔ text = rest ++ ending := by
  unfold withoutEnding?
  split
  case isTrue h =>
    obtain ⟨front, rfl⟩ := List.isSuffixOf_iff_suffix.mp h
    simp [eq_comm]
  case isFalse h =>
    rw [List.isSuffixOf_iff_suffix] at h
    refine iff_of_false (by simp) ?_
    rintro rfl
    exact h (List.suffix_append rest ending)

theorem withoutBeginning?_eq_some_iff {beginning : List Char} :
    withoutBeginning? beginning text = some rest ↔ text = beginning ++ rest := by
  unfold withoutBeginning?
  split
  case isTrue h =>
    obtain ⟨back, rfl⟩ := List.isPrefixOf_iff_prefix.mp h
    simp [eq_comm]
  case isFalse h =>
    rw [List.isPrefixOf_iff_prefix] at h
    refine iff_of_false (by simp) ?_
    rintro rfl
    exact h (List.prefix_append beginning rest)

theorem withoutBeginning?_eq_none_iff {beginning : List Char} :
    withoutBeginning? beginning text = none ↔ ¬ beginning <+: text := by
  rw [withoutBeginning?, ← List.isPrefixOf_iff_prefix]
  simp

theorem afterSlash?_eq_some_iff : afterSlash? text = some rest ↔
    ∃ front, '/' ∉ front ∧ text = front ++ '/' :: rest := by
  induction text with
  | nil => simp [afterSlash?]
  | cons char text ih =>
    rw [afterSlash?]
    split
    case isTrue h =>
      subst h
      constructor
      · rintro ⟨⟩
        exact ⟨[], List.not_mem_nil, rfl⟩
      · rintro ⟨front, hfront, heq⟩
        cases front with
        | nil => exact congrArg some (List.cons.inj heq).2
        | cons first front =>
          obtain ⟨rfl, -⟩ := List.cons.inj heq
          exact absurd List.mem_cons_self hfront
    case isFalse h =>
      rw [ih]
      constructor
      · rintro ⟨front, hfront, rfl⟩
        exact ⟨char :: front, by simp [hfront, Ne.symm h], rfl⟩
      · rintro ⟨front, hfront, heq⟩
        cases front with
        | nil => exact absurd (List.cons.inj heq).1 h
        | cons first front =>
          obtain ⟨-, rfl⟩ := List.cons.inj heq
          exact ⟨front, fun hmem => hfront (List.mem_cons_of_mem _ hmem), rfl⟩

theorem lastSegment_concat (text : List Char) (char : Char) : lastSegment (text ++ [char]) =
    if char = '/' then [] else lastSegment text ++ [char] := by
  rw [lastSegment, lastSegment, List.reverse_concat, List.takeWhile_cons]
  split
  case isTrue h => rw [if_neg (of_decide_eq_true h), List.reverse_cons]
  case isFalse h => rw [if_pos (of_not_not fun hne => h (decide_eq_true hne)), List.reverse_nil]

theorem slash_not_mem_lastSegment (text : List Char) : '/' ∉ lastSegment text := by
  intro hslash
  have hpasses := List.all_eq_true.mp List.all_takeWhile _ (List.mem_reverse.mp hslash)
  exact of_decide_eq_true hpasses rfl

theorem eq_lastSegment_or (text : List Char) :
    text = lastSegment text ∨ ∃ folder, text = folder ++ '/' :: lastSegment text := by
  -- The segment is read from the end, so the text grows there.
  induction text using List.reverseRecOn with
  | nil => exact .inl rfl
  | append_singleton text char ih =>
    rw [lastSegment_concat]
    split
    case isTrue h => exact .inr ⟨text, by rw [h]⟩
    case isFalse h =>
      rcases ih with hwhole | ⟨folder, hparts⟩
      · exact .inl (congrArg (· ++ [char]) hwhole)
      · refine .inr ⟨folder, (congrArg (· ++ [char]) hparts).trans ?_⟩
        rw [List.append_assoc, List.cons_append]

theorem lastSegment_eq_nil_iff : lastSegment text = [] ↔ text = [] ∨ ['/'] <:+ text := by
  constructor
  · intro hnone
    rcases eq_lastSegment_or text with hwhole | ⟨folder, hparts⟩
    · exact .inl (hwhole.trans hnone)
    · rw [hnone] at hparts
      exact .inr ⟨folder, hparts.symm⟩
  · rintro (rfl | ⟨folder, rfl⟩)
    · rfl
    · rw [lastSegment_concat, if_pos rfl]

/-- Where a text is split at all slashes, the last segment is what comes last. -/
theorem getLast?_splitOn (text : List Char) :
    (text.splitOn '/').getLast? = some (lastSegment text) := by
  have hlast := List.splitOn_eq_singleton (slash_not_mem_lastSegment text)
  rcases eq_lastSegment_or text with hwhole | ⟨folder, hparts⟩
  · rw [← hwhole] at hlast
    rw [hlast, List.getLast?_singleton, ← hwhole]
  · have hsplit : text.splitOn '/' = folder.splitOn '/' ++ (lastSegment text).splitOn '/' := by
      conv_lhs => rw [hparts]
      exact List.splitOnP_append_cons folder (lastSegment text) (beq_self_eq_true '/')
    rw [hsplit, hlast, List.getLast?_concat]

/-- An entry holds a class if it is named after the class, or after a version and the class. -/
theorem entryClass?_eq_some_iff : entryClass? entry = some name ↔
    (lastSegment name ≠ [] ∧ lastSegment name ≠ "module-info".toList) ∧
      ((entry = name ++ ".class".toList ∧ ¬ versionsFolder.toList <+: name) ∨
        ∃ version, '/' ∉ version ∧
          entry = versionsFolder.toList ++ version ++ '/' :: name ++ ".class".toList) := by
  -- With or without a version, what has been found is tested in the same way.
  have hnamed (found : List Char) : (if (lastSegment found).isEmpty ∨
      lastSegment found = "module-info".toList then none else some found) = some name ↔
        found = name ∧ lastSegment name ≠ [] ∧ lastSegment name ≠ "module-info".toList := by
    simp only [Option.ite_none_left_eq_some, not_or, List.isEmpty_iff, Option.some.injEq]
    constructor
    · rintro ⟨hlast, rfl⟩
      exact ⟨rfl, hlast⟩
    · rintro ⟨rfl, hlast⟩
      exact ⟨hlast, rfl⟩
  simp only [entryClass?, Option.bind_eq_bind, Option.bind_eq_some_iff, withoutEnding?_eq_some_iff]
  constructor
  · rintro ⟨stem, rfl, hfound⟩
    cases hversioned : withoutBeginning? versionsFolder.toList stem with
    | none =>
      rw [hversioned] at hfound
      obtain ⟨rfl, hlast⟩ := (hnamed stem).mp hfound
      exact ⟨hlast, .inl ⟨rfl, withoutBeginning?_eq_none_iff.mp hversioned⟩⟩
    | some versioned =>
      rw [hversioned] at hfound
      obtain ⟨found, hafter, hfound⟩ := Option.bind_eq_some_iff.mp hfound
      obtain ⟨rfl, hlast⟩ := (hnamed found).mp hfound
      obtain ⟨version, hversion, rfl⟩ := afterSlash?_eq_some_iff.mp hafter
      obtain rfl := withoutBeginning?_eq_some_iff.mp hversioned
      exact ⟨hlast, .inr ⟨version, hversion, by simp⟩⟩
  · rintro ⟨hlast, ⟨rfl, hplain⟩ | ⟨version, hversion, rfl⟩⟩
    · refine ⟨name, rfl, ?_⟩
      rw [withoutBeginning?_eq_none_iff.mpr hplain]
      exact (hnamed name).mpr ⟨rfl, hlast⟩
    · refine ⟨versionsFolder.toList ++ (version ++ '/' :: name), by simp, ?_⟩
      rw [withoutBeginning?_eq_some_iff.mpr rfl]
      refine Option.bind_eq_some_iff.mpr ⟨name, ?_, (hnamed name).mpr ⟨rfl, hlast⟩⟩
      exact afterSlash?_eq_some_iff.mpr ⟨version, hversion, rfl⟩

/-- The internal name of a class that is not the description of a module. -/
structure IsClassName (name : String) : Prop where
  ne_empty : name ≠ ""
  not_folder : ¬ ['/'] <:+ name.toList
  not_module : (name.toList.splitOn '/').getLast? ≠ some "module-info".toList

theorem isClassName_iff {name : String} : IsClassName name ↔
    lastSegment name.toList ≠ [] ∧ lastSegment name.toList ≠ "module-info".toList := by
  rw [Ne, lastSegment_eq_nil_iff, not_or, String.toList_eq_nil_iff, and_assoc]
  constructor
  · rintro ⟨hempty, hfolder, hmodule⟩
    rw [getLast?_splitOn, Ne, Option.some.injEq] at hmodule
    exact ⟨hempty, hfolder, hmodule⟩
  · rintro ⟨hempty, hfolder, hmodule⟩
    refine ⟨hempty, hfolder, ?_⟩
    rwa [getLast?_splitOn, Ne, Option.some.injEq]

/-- The entry is named after the class, for all versions of the platform or for one of them. -/
inductive NamedAfter (name : String) : String → Prop
  | plain : ¬ versionsFolder.toList <+: name.toList → NamedAfter name (name ++ ".class")
  | versioned (version : String) : '/' ∉ version.toList →
    NamedAfter name (versionsFolder ++ version ++ "/" ++ name ++ ".class")

theorem NamedAfter.exists_eq_append {name entry : String} (h : NamedAfter name entry) :
    ∃ front, entry = front ++ ".class" := by
  cases h with
  | plain => exact ⟨_, rfl⟩
  | versioned => exact ⟨_, rfl⟩

theorem entryClass?_toList_eq_some_iff {entry name : String} :
    entryClass? entry.toList = some name.toList ↔ IsClassName name ∧ NamedAfter name entry := by
  rw [entryClass?_eq_some_iff, isClassName_iff]
  refine and_congr_right fun _ => ?_
  constructor
  · rintro (⟨hentry, hplain⟩ | ⟨version, hversion, hentry⟩)
    · obtain rfl : entry = name ++ ".class" := by
        rw [← String.toList_inj, hentry, String.toList_append]
      exact .plain hplain
    · obtain rfl : entry = versionsFolder ++ String.ofList version ++ "/" ++ name ++ ".class" := by
        rw [← String.toList_inj, hentry]
        simp
      exact .versioned _ (by rwa [String.toList_ofList])
  · rintro (hplain | ⟨version, hversion⟩)
    · exact .inl ⟨String.toList_append, hplain⟩
    · exact .inr ⟨version.toList, hversion, by simp⟩

theorem entryClassName?_eq_some_iff {entry dotted : String} :
    entryClassName? entry = some dotted ↔
      ∃ name, IsClassName name ∧ NamedAfter name entry ∧ dotted = dottedName name := by
  rw [entryClassName?, Option.map_eq_some_iff]
  constructor
  · rintro ⟨chars, hchars, rfl⟩
    rw [← String.toList_ofList (l := chars)] at hchars
    obtain ⟨hname, hentry⟩ := entryClass?_toList_eq_some_iff.mp hchars
    exact ⟨_, hname, hentry, rfl⟩
  · rintro ⟨name, hname, hentry, rfl⟩
    refine ⟨name.toList, entryClass?_toList_eq_some_iff.mpr ⟨hname, hentry⟩, ?_⟩
    rw [String.ofList_toList]

namespace Entry

variable {entry : Entry}

/-- A class has a name that is not that of a directory. -/
theorem isDirectory_of_entryClassName? (h : (entryClassName? entry.name).isSome = true) :
    entry.isDirectory = false := by
  obtain ⟨dotted, hdotted⟩ := Option.isSome_iff_exists.mp h
  obtain ⟨name, -, hentry, -⟩ := entryClassName?_eq_some_iff.mp hdotted
  obtain ⟨front, hfront⟩ := hentry.exists_eq_append
  have hlast : entry.name.toList.getLast? = some 's' := by
    rw [hfront, String.toList_append, List.getLast?_append_of_ne_nil _ (by decide)]
    rfl
  rw [isDirectory, hlast]
  decide

/-- Links are no classes, and nothing else matters but the name. -/
theorem className?_eq (entry : Entry) :
    entry.className? = if entry.isLink then none else entryClassName? entry.name := by
  rw [className?, isFile]
  cases hname : entryClassName? entry.name with
  | none => rw [ite_self, ite_self]
  | some dotted =>
    rw [isDirectory_of_entryClassName? (by rw [hname]; rfl)]
    cases entry.isLink <;> rfl

end Entry

namespace ClassFile

theorem ownName_of_name {file : ClassFile} {name : String} (h : file.name = .ok name) :
    file.ownName = .ok (dottedName name) := by
  rw [ownName, h]
  rfl

/-- The tool for a single class reads it, and then revises it under the dotted form of the name that
it gives itself. -/
theorem exists_reviseClass_eq_read {name : String} {content : ByteArray} {file : ClassFile}
    (hparse : ClassFile.parse (Tool.listOf content) = .ok file) (hname : file.name = .ok name)
    (settings : Settings) (source target : String) :
    ∃ next, Tool.reviseClass settings source target = .read source next ∧ next (.ok content) =
      Tool.reviseNamed settings (dottedName name) target (Tool.listOf content) := by
  refine ⟨_, rfl, ?_⟩
  simp only [bind, Script.andThen]
  rw [hparse]
  simp only [Tool.orFail, Script.andThen, pure]
  rw [ownName_of_name hname]
  simp only [Script.andThen]

end ClassFile

/-- An entry holds a class exactly if it is named after one, and its name is dotted then. If it can
be read, a pass goes on to revise it under this name, whichever version it is for. A class of that
name gives itself the same dotted name, and the tool for a single class revises it under that. -/
theorem className_of_entry :
    (∀ entry dotted : String, entryClassName? entry = some dotted ↔
      ∃ name, IsClassName name ∧ NamedAfter name entry ∧ dotted = dottedName name) ∧
    ∀ name : String, IsClassName name →
      (∀ entry : Entry, entry.isLink = false → NamedAfter name entry.name →
        entry.className? = some (dottedName name) ∧
        ∀ (content : ByteArray) (settings : Settings) (total index : Nat) (entries : List Entry)
          (pass : ArchivePass), entry.content = .ok content →
            ArchivePass.visitAll settings total index (entry :: entries) pass =
              ArchivePass.visitAll settings total (index + 1) entries
                ((pass.reviseClass settings entry (dottedName name) content).tick index total)) ∧
      ∀ file : ClassFile, file.name = .ok name →
        file.ownName = .ok (dottedName name) ∧
        ∀ (settings : Settings) (source target : String) (content : ByteArray),
          ClassFile.parse (Tool.listOf content) = .ok file →
            ∃ next, Tool.reviseClass settings source target = .read source next ∧
              next (.ok content) =
                Tool.reviseNamed settings (dottedName name) target (Tool.listOf content) := by
  refine ⟨fun _ _ => entryClassName?_eq_some_iff, ?_⟩
  intro name hname
  refine ⟨?_, ?_⟩
  · intro entry hplain hentry
    have hdotted : entry.className? = some (dottedName name) := by
      rw [Entry.className?_eq, hplain, if_neg Bool.false_ne_true]
      exact entryClassName?_eq_some_iff.mpr ⟨name, hname, hentry, rfl⟩
    refine ⟨hdotted, ?_⟩
    intro content settings total index entries pass hcontent
    have hheld : entry.heldClass = .ok (some (dottedName name, content)) := by
      rw [Entry.heldClass, hdotted, hcontent]
      rfl
    rw [ArchivePass.visitAll, hheld]
    rfl
  · intro file hown
    refine ⟨ClassFile.ownName_of_name hown, ?_⟩
    intro settings source target content hparse
    exact ClassFile.exists_reviseClass_eq_read hparse hown settings source target

/-- A folder may be called `module-info`. A class for one version has the same name as the class for
all of them. -/
theorem className_of_entry_samples :
    (entryClassName? "a/module-info/C.class" = some "a.module-info.C" ∧
      ∃ name, IsClassName name ∧ NamedAfter name "a/module-info/C.class" ∧
        "a.module-info.C" = dottedName name) ∧
    (IsClassName "E" ∧ NamedAfter "E" "META-INF/versions/9/E.class" ∧
      ClassFile.parse enumSampleBytes = .ok enumSample ∧ enumSample.name = .ok "E") ∧
    (Entry.file "META-INF/versions/9/E.class" ⟨enumSampleBytes.toArray⟩).className? =
      some (dottedName "E") ∧
    enumSample.ownName = .ok (dottedName "E") ∧
    ∃ next, Tool.reviseClass {} "E.class" "out.class" = .read "E.class" next ∧
      next (.ok (Tool.arrayOf enumSampleBytes)) =
        Tool.reviseNamed {} (dottedName "E") "out.class" enumSampleBytes := by
  have hdotted : entryClassName? "a/module-info/C.class" = some "a.module-info.C" := by
    decide +kernel
  have hname : IsClassName "E" := by
    rw [isClassName_iff]
    decide +kernel
  have hentry : NamedAfter "E" "META-INF/versions/9/E.class" :=
    .versioned "9" (by decide)
  have hparse : ClassFile.parse enumSampleBytes = .ok enumSample := by decide +kernel
  have hown : enumSample.name = .ok "E" := by decide +kernel
  obtain ⟨hnames, hmatches⟩ := className_of_entry
  obtain ⟨hentries, hfiles⟩ := hmatches "E" hname
  obtain ⟨hself, htool⟩ := hfiles enumSample hown
  refine ⟨⟨hdotted, (hnames _ _).mp hdotted⟩, ⟨hname, hentry, hparse, hown⟩, ?_, hself, ?_⟩
  · exact (hentries (.file _ ⟨enumSampleBytes.toArray⟩) rfl hentry).1
  · exact htool {} "E.class" "out.class" (Tool.arrayOf enumSampleBytes) hparse

end ClassThaw
