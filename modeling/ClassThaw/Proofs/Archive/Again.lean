import ClassThaw.Proofs.Archive.Accounting
import ClassThaw.Proofs.Archive.EntryName
import ClassThaw.Proofs.Revision.FixedPoint
import Mathlib.Data.List.Basic

namespace ClassThaw

variable {settings : Settings} {entry : Entry} {className : String} {bytes revised : Bytes}
  {mutations : Mutations}

namespace Settings

/-- Revising a revised class under the same name changes nothing. -/
theorem outcome_again
    (h : settings.outcome className bytes = .ok (.modified revised mutations)) :
    settings.outcome className revised = .ok .unchanged := by
  have hgives : Gives (settings.revise className bytes) #[] (.modified revised mutations)
      (settings.reports className bytes) := gives_iff.mpr ⟨h, rfl⟩
  obtain ⟨before, after, _, hparse, hparse', -, hrevises, -⟩ := exists_of_gives_modified hgives
  have hcheck' := ClassFile.check_of_parse hparse'
  have hagain := hrevises.again (ConstantPool.sound_of_parse hparse)
    (ClassFile.check_of_parse hparse) hcheck'
  obtain ⟨reported, happly⟩ : ∃ reported,
      Gives (settings.apply className) ⟨after, #[]⟩ {} ⟨after, reported⟩ :=
    (gives_apply hcheck').mpr hagain
  obtain ⟨_, hconclude⟩ :=
    @exists_gives_conclude_of_isEmpty className {} after settings.debug rfl reported
  have hunchanged := gives_revise.mpr ⟨after, {}, _, hparse', happly, hconclude⟩
  exact (gives_iff.mp hunchanged).1

end Settings

namespace Entry

/-- The entry is a link, but has the name of a class. -/
def IsLinkedClass (entry : Entry) : Prop :=
  entry.isLink = true ∧ (entryClassName? entry.name).isSome = true

/-- Only for a link it makes a difference that its copy is a file. -/
theorem className?_copied (h : ¬ entry.IsLinkedClass) :
    entry.copied.className? = entry.className? := by
  rw [className?_eq, className?_eq]
  cases hlink : entry.isLink with
  | false => rfl
  | true =>
    have hnone : ¬ (entryClassName? entry.name).isSome = true := fun hname => h ⟨hlink, hname⟩
    exact Option.not_isSome_iff_eq_none.mp hnone

theorem heldClass_copied (h : ¬ entry.IsLinkedClass) :
    entry.copied.heldClass = entry.heldClass := by
  rw [heldClass, heldClass, className?_copied h]
  rfl

/-- The copy of a link holds the class after which the link is named. -/
theorem isClass_copied_of_isLinkedClass (h : entry.IsLinkedClass) :
    entry.isClass = false ∧ entry.copied.isClass = true := by
  rw [isClass, isClass, className?_eq, className?_eq, h.1]
  exact ⟨rfl, h.2⟩

end Entry

namespace Settings

/-- The entry is copied, or it is a class that is put in the place of another. -/
theorem copies_or_rewrites (settings : Settings) (entry : Entry) :
    (settings.successor entry = entry.copied ∧ settings.mutations? entry = none) ∨
    ∃ className content revised mutations, entry.className? = some className ∧
      entry.content = .ok content ∧
      settings.outcome className content.data.toList = .ok (.modified revised mutations) ∧
      settings.successor entry = .file entry.name ⟨revised.toArray⟩ := by
  cases houtcome : settings.outcome? entry with
  | none => simp [successor, written, mutations?, houtcome, Written.entry]
  | some outcome =>
    cases outcome with
    | error error => simp [successor, written, mutations?, houtcome, Written.entry]
    | ok revision =>
      cases revision with
      | unchanged => simp [successor, written, mutations?, houtcome, Written.entry]
      | modified revised mutations =>
        obtain ⟨className, content, hname, hcontent, hmodified⟩ := outcome?_eq_some_iff.mp houtcome
        refine .inr ⟨className, content, revised, mutations, hname, hcontent, hmodified, ?_⟩
        rw [successor, written, houtcome]
        rfl

/-- A class that is revised is no link. -/
theorem not_isLinkedClass_of_className? {className : String}
    (h : entry.className? = some className) : ¬ entry.IsLinkedClass := by
  rintro ⟨hlink, -⟩
  rw [Entry.className?_eq, hlink] at h
  cases h

/-- What an entry is copied from has come to the same, or what is put in its place is left alone. -/
theorem copies_or_settles (h : ¬ entry.IsLinkedClass) :
    (settings.mutations? entry = none ∧
      settings.outcome? (settings.successor entry) = settings.outcome? entry) ∨
    settings.outcome? (settings.successor entry) = some (.ok .unchanged) ∧
      ∃ revised mutations, settings.outcome? entry = some (.ok (.modified revised mutations)) := by
  rcases settings.copies_or_rewrites entry with
    ⟨hsame, hnone⟩ | ⟨className, content, revised, mutations, hname, hcontent, hmodified, hnew⟩
  · refine .inl ⟨hnone, ?_⟩
    rw [hsame, outcome?, outcome?, Entry.heldClass_copied h]
  · have hname' : (settings.successor entry).className? = some className := by
      rw [hnew, ← hname]
      exact Entry.className?_copied h
    have hcontent' : (settings.successor entry).content = .ok ⟨revised.toArray⟩ := by
      rw [hnew]
      rfl
    refine .inr ⟨?_, revised, mutations, ?_⟩
    · exact outcome?_eq_some_iff.mpr
        ⟨className, ⟨revised.toArray⟩, hname', hcontent', outcome_again hmodified⟩
    · exact outcome?_eq_some_iff.mpr ⟨className, content, hname, hcontent, hmodified⟩

theorem mutations?_successor (h : ¬ entry.IsLinkedClass) :
    settings.mutations? (settings.successor entry) = none := by
  rcases copies_or_settles h with ⟨hnone, hsame⟩ | ⟨hsettled, -⟩
  · rw [mutations?, hsame]
    exact hnone
  · rw [mutations?, hsettled]

theorem successor_of_mutations? (h : settings.mutations? entry = none) :
    settings.successor entry = entry.copied := by
  rcases settings.copies_or_rewrites entry with
    ⟨hsame, -⟩ | ⟨_, _, _, _, hname, hcontent, hmodified, -⟩
  · exact hsame
  · rw [mutations?, outcome?_eq_some_iff.mpr ⟨_, _, hname, hcontent, hmodified⟩] at h
    cases h

/-- There are no links in the new archive. -/
theorem copied_successor (entry : Entry) :
    (settings.successor entry).copied = settings.successor entry := by
  rcases settings.copies_or_rewrites entry with ⟨hsame, -⟩ | ⟨_, _, _, _, -, -, -, hnew⟩
  · rw [hsame]
    rfl
  · rw [hnew]
    rfl

theorem successor_successor (h : ¬ entry.IsLinkedClass) :
    settings.successor (settings.successor entry) = settings.successor entry := by
  rw [successor_of_mutations? (mutations?_successor h), copied_successor]

/-- A class that cannot be revised cannot be revised again, and no other class fails now. -/
theorem refuses_successor (h : ¬ entry.IsLinkedClass) :
    settings.refuses (settings.successor entry) = settings.refuses entry := by
  rcases copies_or_settles h with ⟨-, hsame⟩ | ⟨hsettled, _, _, hmodified⟩
  · rw [refuses, refuses, hsame]
  · rw [refuses, refuses, hsettled, hmodified]

theorem isClass_successor (h : ¬ entry.IsLinkedClass) :
    (settings.successor entry).isClass = entry.isClass := by
  have hcopied : entry.copied.isClass = entry.isClass := by
    rw [Entry.isClass, Entry.isClass, Entry.className?_copied h]
  rcases settings.copies_or_rewrites entry with ⟨hsame, -⟩ | ⟨_, _, _, _, -, -, -, hnew⟩
  · rw [hsame, hcopied]
  · rw [hnew, ← hcopied]
    rfl

/-- What a class is replaced by can be read. -/
theorem readable_successor (h : ¬ entry.IsLinkedClass)
    (hreadable : ¬ ∃ fault, entry.heldClass = .error fault) :
    ¬ ∃ fault, (settings.successor entry).heldClass = .error fault := by
  rcases settings.copies_or_rewrites entry with ⟨hsame, -⟩ | ⟨_, _, _, _, -, -, -, hnew⟩
  · rwa [hsame, Entry.heldClass_copied h]
  · rw [hnew, Entry.exists_heldClass_eq_error_iff]
    rintro (⟨_, ⟨⟩⟩ | ⟨-, _, ⟨⟩⟩)

/-- A link that is named like a class is a class in the new archive. -/
theorem isClass_successor_of_isLinkedClass (settings : Settings) (h : entry.IsLinkedClass) :
    entry.isClass = false ∧ (settings.successor entry).isClass = true := by
  obtain ⟨hnone, hclass⟩ := entry.isClass_copied_of_isLinkedClass h
  refine ⟨hnone, ?_⟩
  rcases settings.copies_or_rewrites entry with ⟨hsame, -⟩ | ⟨_, _, _, _, hname, -⟩
  · rw [hsame, hclass]
  · exact absurd h (not_isLinkedClass_of_className? hname)

end Settings

/-- Without an edit, a report tells how many entries there are and how many hold classes. -/
theorem ArchiveReport.Tallies.eq_of_unedited {report : ArchiveReport} {entries : List Entry}
    (h : report.Tallies settings entries)
    (hnone : ∀ entry ∈ entries, settings.mutations? entry = none) :
    report = { entries := entries.length
               classesSeen := entries.countP Entry.isClass
               classesFailed := entries.countP settings.refuses } := by
  have hrewrites : ∀ entry ∈ entries, settings.rewrites entry = false := by
    intro entry hentry
    rw [Settings.rewrites, hnone entry hentry, Option.isSome_none]
  -- A kind that is in the map has been counted, and there is nothing to count.
  have hmutations : report.mutations = ∅ := by
    apply Std.ExtTreeMap.ext_getElem?
    intro kind
    refine Option.eq_none_iff_forall_ne_some.mpr ?_
    intro count hcount
    obtain ⟨hpositive, hzero⟩ := (h.getElem?_mutations kind count).mp hcount
    rw [List.filterMap_eq_nil_iff.mpr hnone] at hzero
    exact absurd hzero hpositive.ne'
  have hmodified : report.modified = #[] := by
    apply Array.ext'
    rw [h.modified, List.filter_eq_nil_iff.mpr]
    · rfl
    · intro entry hentry
      rw [hrewrites entry hentry]
      exact Bool.false_ne_true
  have hzero : report.classesModified = 0 := by rw [← h.size_modified, hmodified, Array.size_empty]
  obtain ⟨total, classesSeen, classesModified, classesFailed, mutations, modified⟩ := report
  simp only [ArchiveReport.mk.injEq]
  exact ⟨h.length, h.classesSeen, hzero, h.classesFailed, hmutations, hmodified⟩

namespace ArchivePass

variable {entries : List Entry} {pass : ArchivePass}

theorem run_eq_ok_or (settings : Settings) (entries : List Entry) :
    (∃ pass, run settings entries = (pass, none)) ∨
      ∃ entry ∈ entries, ∃ fault, entry.heldClass = .error fault := by
  rcases hrun : run settings entries with ⟨pass, _ | unreadable⟩
  · exact .inl ⟨pass, rfl⟩
  · refine .inr ?_
    simp only [Entry.exists_heldClass_eq_error_iff]
    exact exists_unreadable_iff_of_run.mp ⟨unreadable, congrArg Prod.snd hrun⟩

/-- The first pass has met nothing that it cannot read, and has put nothing of the kind in the new
archive. -/
theorem exists_run_successors (hlinks : ∀ entry ∈ entries, ¬ entry.IsLinkedClass)
    (h : run settings entries = (pass, none)) :
    ∃ again, run settings (entries.map settings.successor) = (again, none) := by
  refine (run_eq_ok_or settings _).resolve_right ?_
  rintro ⟨_, hmem, hfault⟩
  obtain ⟨entry, hentry, rfl⟩ := List.mem_map.mp hmem
  refine Settings.readable_successor (hlinks entry hentry) ?_ hfault
  rw [Entry.exists_heldClass_eq_error_iff]
  exact readable_of_run h hentry

/-- There are at most as many classes in an archive as in the new one, and fewer if there is a link
that is named like a class. -/
theorem countP_isClass_lt (settings : Settings) {link : Entry} (hmem : link ∈ entries)
    (hlink : link.IsLinkedClass) :
    entries.countP Entry.isClass < (entries.map settings.successor).countP Entry.isClass := by
  have hstays (entries : List Entry) : entries.countP Entry.isClass ≤
      entries.countP (Entry.isClass ∘ settings.successor) := by
    refine List.countP_mono_left fun entry _ hclass => ?_
    obtain ⟨className, hname⟩ := Option.isSome_iff_exists.mp hclass
    rwa [Function.comp_apply,
      Settings.isClass_successor (Settings.not_isLinkedClass_of_className? hname)]
  obtain ⟨hbefore, hafter⟩ := settings.isClass_successor_of_isLinkedClass hlink
  have hcounted : (Entry.isClass ∘ settings.successor) link = true := hafter
  -- The link counts in the new archive only, and no class of the old one is lost.
  obtain ⟨earlier, later, rfl⟩ := List.append_of_mem hmem
  have hearlier := hstays earlier
  have hlater := hstays later
  rw [List.countP_map, List.countP_append, List.countP_append,
    List.countP_cons_of_neg (Bool.eq_false_iff.mp hbefore), List.countP_cons_of_pos hcounted]
  omega

/-- A pass over an archive that a pass has written gets through, rewrites nothing, leaves the
archive as it is, and finds as many classes and as many that cannot be revised, if and only if the
first pass has not met a link that is named like a class. -/
theorem run_again_iff (h : run settings entries = (pass, none)) :
    (∃ again, run settings (pass.output.toList.map Written.entry) = (again, none) ∧
      again.output.toList.map Written.entry = pass.output.toList.map Written.entry ∧
      again.report = { entries := pass.report.entries
                       classesSeen := pass.report.classesSeen
                       classesFailed := pass.report.classesFailed }) ↔
    ∀ entry ∈ entries, ¬ entry.IsLinkedClass := by
  have htallies := (accounts_run h).tallies
  rw [successors_of_run h]
  constructor
  · rintro ⟨again, hagain, -, hreport⟩ link hmem hlink
    -- The two numbers of classes cannot be the same.
    have hseen := (accounts_run hagain).tallies.classesSeen
    rw [hreport, htallies.classesSeen] at hseen
    exact absurd hseen (countP_isClass_lt settings hmem hlink).ne
  · intro hlinks
    obtain ⟨again, hagain⟩ := exists_run_successors hlinks h
    have htallies' := (accounts_run hagain).tallies
    refine ⟨again, hagain, ?_, ?_⟩
    · rw [successors_of_run hagain, List.map_map]
      exact List.map_congr_left fun entry hentry =>
        Settings.successor_successor (hlinks entry hentry)
    · have hnone : ∀ entry ∈ entries.map settings.successor, settings.mutations? entry = none := by
        intro new hnew
        obtain ⟨entry, hentry, rfl⟩ := List.mem_map.mp hnew
        exact Settings.mutations?_successor (hlinks entry hentry)
      -- The new entries are counted like the old ones.
      have hclasses : entries.countP (Entry.isClass ∘ settings.successor) =
          entries.countP Entry.isClass := by
        apply List.countP_congr
        intro entry hentry
        rw [Function.comp_apply, Settings.isClass_successor (hlinks entry hentry)]
      have hrefuses : entries.countP (settings.refuses ∘ settings.successor) =
          entries.countP settings.refuses := by
        apply List.countP_congr
        intro entry hentry
        rw [Function.comp_apply, Settings.refuses_successor (hlinks entry hentry)]
      rw [htallies'.eq_of_unedited hnone, htallies.length, htallies.classesSeen,
        htallies.classesFailed, List.length_map, List.countP_map, List.countP_map, hclasses,
        hrefuses]

/-- A link that has the name of a class. -/
def linkedEntries : List Entry :=
  [{ name := "E.class", isLink := true, content := .ok "target".toUTF8 }]

/-- A second pass over the sample changes nothing. Over the archive with the link it finds one class
more than the first pass. -/
theorem run_again_iff_samples :
    ((run {} sampleEntries).2 = none ∧
      (run {} sampleEntries).1.report.modified = #["META-INF/versions/9/E.class"] ∧
      (∀ entry ∈ sampleEntries, ¬ entry.IsLinkedClass) ∧
      ∃ again, run {} ((run {} sampleEntries).1.output.toList.map Written.entry) = (again, none) ∧
        again.output.toList.map Written.entry =
          (run {} sampleEntries).1.output.toList.map Written.entry ∧
        again.report = { entries := (run {} sampleEntries).1.report.entries
                         classesSeen := (run {} sampleEntries).1.report.classesSeen
                         classesFailed := (run {} sampleEntries).1.report.classesFailed }) ∧
    (run {} linkedEntries).2 = none ∧
    (run {} linkedEntries).1.report.classesSeen = 0 ∧
    (run {} ((run {} linkedEntries).1.output.toList.map Written.entry)).1.report.classesSeen = 1 ∧
    ¬ ∃ again, run {} ((run {} linkedEntries).1.output.toList.map Written.entry) = (again, none) ∧
      again.output.toList.map Written.entry =
        (run {} linkedEntries).1.output.toList.map Written.entry ∧
      again.report = { entries := (run {} linkedEntries).1.report.entries
                       classesSeen := (run {} linkedEntries).1.report.classesSeen
                       classesFailed := (run {} linkedEntries).1.report.classesFailed } := by
  have hends : (run {} sampleEntries).2 = none := by decide +kernel
  have hmodified : (run {} sampleEntries).1.report.modified =
      #["META-INF/versions/9/E.class"] := by
    decide +kernel
  have hfiles : ∀ entry ∈ sampleEntries, entry.isLink = false := by decide +kernel
  have hlinks : ∀ entry ∈ sampleEntries, ¬ entry.IsLinkedClass := by
    rintro entry hentry ⟨hlink, -⟩
    rw [hfiles entry hentry] at hlink
    cases hlink
  have hends' : (run {} linkedEntries).2 = none := by decide +kernel
  have hseen : (run {} linkedEntries).1.report.classesSeen = 0 := by decide +kernel
  have hseen' : (run {} ((run {} linkedEntries).1.output.toList.map
      Written.entry)).1.report.classesSeen = 1 := by
    decide +kernel
  refine ⟨⟨hends, hmodified, hlinks, ?_⟩, hends', hseen, hseen', ?_⟩
  · exact (run_again_iff (Prod.ext rfl hends)).mpr hlinks
  · rw [run_again_iff (Prod.ext rfl hends')]
    intro hnone
    exact hnone _ (List.mem_singleton_self _) ⟨rfl, by decide +kernel⟩

end ArchivePass

end ClassThaw
