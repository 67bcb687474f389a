import ClassThaw.Archive.Pass
import ClassThaw.Proofs.Archive.Report
import ClassThaw.Proofs.ClassFile.RoundTrip
import ClassThaw.Proofs.Revision.Independence

namespace ClassThaw

variable {settings : Settings} {entry : Entry}

/-- The entry is a file that is named like a class. -/
def Entry.isClass (entry : Entry) : Bool := entry.className?.isSome

/-- The entry cannot be opened, whatever it holds. -/
def Entry.IsClosed (entry : Entry) : Prop := ∃ fault, entry.content = .error (.closed fault)

/-- The content of the entry cannot be unpacked. -/
def Entry.IsDamaged (entry : Entry) : Prop := ∃ damage, entry.content = .error (.damaged damage)

namespace Settings

/-- What revising the class that an entry holds comes to, if it holds one and can be read. -/
def outcome? (settings : Settings) (entry : Entry) : Option (Except RevisionError Revision) :=
  match entry.heldClass with
  | .ok (some (className, content)) => some (settings.outcome className content.data.toList)
  | .ok none | .error _ => none

/-- What is written for an entry: the revised class if the rules have changed one, and a copy of the
entry otherwise. -/
def written (settings : Settings) (entry : Entry) : Written :=
  match settings.outcome? entry with
  | some (.ok (.modified bytes _)) => .packed entry.name ⟨bytes.toArray⟩
  | some (.ok .unchanged) | some (.error _) | none => .copied entry

/-- The entry of the new archive that stands for an entry. -/
def successor (settings : Settings) (entry : Entry) : Entry := (settings.written entry).entry

/-- The edits made to the class that an entry holds, if it is rewritten. -/
def mutations? (settings : Settings) (entry : Entry) : Option Mutations :=
  match settings.outcome? entry with
  | some (.ok (.modified _ mutations)) => some mutations
  | some (.ok .unchanged) | some (.error _) | none => none

/-- The entry holds a class that the rules change. -/
def rewrites (settings : Settings) (entry : Entry) : Bool := (settings.mutations? entry).isSome

/-- The entry holds a class that cannot be revised. -/
def refuses (settings : Settings) (entry : Entry) : Bool :=
  match settings.outcome? entry with
  | some (.error _) => true
  | some (.ok _) | none => false

theorem name_successor (entry : Entry) : (settings.successor entry).name = entry.name := by
  unfold successor written
  split <;> rfl

end Settings

namespace Entry

/-- Whatever the name, an entry has to be opened. What it holds matters only if it is a class. -/
theorem exists_heldClass_eq_error_iff : (∃ fault, entry.heldClass = .error fault) ↔
    entry.IsClosed ∨ entry.isClass = true ∧ entry.IsDamaged := by
  unfold heldClass IsClosed IsDamaged isClass
  cases entry.className? with
  | none => rcases entry.content with (fault | damage) | content <;> simp
  | some className => rcases entry.content with (fault | damage) | content <;> simp [Except.map]

theorem heldClass_eq_ok_none_iff :
    entry.heldClass = .ok none ↔ entry.className? = none ∧ ¬ entry.IsClosed := by
  unfold heldClass IsClosed
  cases entry.className? with
  | none => rcases entry.content with (fault | damage) | content <;> simp
  | some className => rcases entry.content with (fault | damage) | content <;> simp [Except.map]

theorem heldClass_eq_ok_some_iff {className : String} {content : ByteArray} :
    entry.heldClass = .ok (some (className, content)) ↔
      entry.className? = some className ∧ entry.content = .ok content := by
  unfold heldClass
  cases entry.className? with
  | none => rcases entry.content with (fault | damage) | content <;> simp
  | some found => rcases entry.content with (fault | damage) | content <;> simp [Except.map]

end Entry

namespace Settings

/-- Revising comes to something for an entry that holds a class and can be read. -/
theorem outcome?_eq_some_iff {outcome : Except RevisionError Revision} :
    settings.outcome? entry = some outcome ↔ ∃ className content,
      entry.className? = some className ∧ entry.content = .ok content ∧
      settings.outcome className content.data.toList = outcome := by
  rw [outcome?]
  split
  case h_1 className content hheld =>
    obtain ⟨hname, hcontent⟩ := Entry.heldClass_eq_ok_some_iff.mp hheld
    simp [hname, hcontent]
  case h_2 hheld => simp [(Entry.heldClass_eq_ok_none_iff.mp hheld).1]
  case h_3 fault hheld =>
    refine iff_of_false (Option.some_ne_none outcome).symm ?_
    rintro ⟨className, content, hname, hcontent, -⟩
    rw [Entry.heldClass_eq_ok_some_iff.mpr ⟨hname, hcontent⟩] at hheld
    cases hheld

end Settings

namespace ArchivePass

variable {pass before middle after : ArchivePass} {entries entries' : List Entry}

/-- What a pass has done is what it had done before, and what belongs to these entries. -/
structure Accounts (settings : Settings) (entries : List Entry) (before after : ArchivePass) :
    Prop where
  output : after.output.toList = before.output.toList ++ entries.map settings.written
  total : after.report.entries = before.report.entries
  classesSeen :
    after.report.classesSeen = before.report.classesSeen + entries.countP Entry.isClass
  classesModified : after.report.classesModified =
    before.report.classesModified + entries.countP settings.rewrites
  classesFailed :
    after.report.classesFailed = before.report.classesFailed + entries.countP settings.refuses
  mutations : ∀ kind, after.report.mutations.count kind = before.report.mutations.count kind +
    ((entries.filterMap settings.mutations?).map (·.count kind)).sum
  isPositive : before.report.mutations.IsPositive → after.report.mutations.IsPositive
  modified : after.report.modified.toList =
    before.report.modified.toList ++ (entries.filter settings.rewrites).map Entry.name

theorem Accounts.nil (h : after.output = before.output) (h' : after.report = before.report) :
    Accounts settings [] before after := by
  constructor <;> simp [h, h']

theorem Accounts.append (h : Accounts settings entries before middle)
    (h' : Accounts settings entries' middle after) :
    Accounts settings (entries ++ entries') before after where
  output := by rw [h'.output, h.output, List.map_append, List.append_assoc]
  total := h'.total.trans h.total
  classesSeen := by rw [h'.classesSeen, h.classesSeen, List.countP_append, Nat.add_assoc]
  classesModified := by
    rw [h'.classesModified, h.classesModified, List.countP_append, Nat.add_assoc]
  classesFailed := by rw [h'.classesFailed, h.classesFailed, List.countP_append, Nat.add_assoc]
  mutations kind := by
    rw [h'.mutations, h.mutations, List.filterMap_append, List.map_append, List.sum_append,
      Nat.add_assoc]
  isPositive := h'.isPositive ∘ h.isPositive
  modified := by
    rw [h'.modified, h.modified, List.filter_append, List.map_append, List.append_assoc]

theorem accounts_reviseClass {className : String} {content : ByteArray} (pass : ArchivePass)
    (hname : entry.className? = some className) (hcontent : entry.content = .ok content) :
    Accounts settings [entry] pass (pass.reviseClass settings entry className content) := by
  have hclass : entry.isClass = true := by
    rw [Entry.isClass, hname]
    rfl
  have houtcome : settings.outcome? entry =
      some (settings.outcome className content.data.toList) :=
    Settings.outcome?_eq_some_iff.mpr ⟨className, content, hname, hcontent, rfl⟩
  rw [reviseClass, Settings.run_revise]
  cases hresult : settings.outcome className content.data.toList with
  | error error =>
    rw [hresult] at houtcome
    constructor <;>
      simp [Settings.written, Settings.rewrites, Settings.mutations?, Settings.refuses, houtcome,
        hclass, copy]
  | ok revision =>
    rw [hresult] at houtcome
    cases revision with
    | unchanged =>
      constructor <;>
        simp [Settings.written, Settings.rewrites, Settings.mutations?, Settings.refuses,
          houtcome, hclass, copy]
    | modified bytes mutations =>
      -- Only here the counts of edits change.
      constructor
      case mutations => simp [Settings.mutations?, houtcome, ArchiveReport.count_record]
      case isPositive => exact fun h => ArchiveReport.isPositive_record h entry.name mutations
      all_goals
        simp [Settings.written, Settings.rewrites, Settings.mutations?, Settings.refuses,
          houtcome, hclass, ArchiveReport.record]

/-- A step of the pass deals with its entry, and with nothing else. -/
theorem accounts_visit {heldClass? : Option (String × ByteArray)} (pass : ArchivePass)
    (hheld : entry.heldClass = .ok heldClass?) :
    Accounts settings [entry] pass (pass.visit settings entry heldClass?) := by
  cases heldClass? with
  | some held =>
    obtain ⟨className, content⟩ := held
    obtain ⟨hname, hcontent⟩ := Entry.heldClass_eq_ok_some_iff.mp hheld
    exact accounts_reviseClass pass hname hcontent
  | none =>
    have hclass : entry.isClass = false := by
      rw [Entry.isClass, (Entry.heldClass_eq_ok_none_iff.mp hheld).1]
      rfl
    have houtcome : settings.outcome? entry = none := by rw [Settings.outcome?, hheld]
    constructor <;>
      simp [Settings.written, Settings.rewrites, Settings.mutations?, Settings.refuses, houtcome,
        hclass, visit, copy]

theorem accounts_tick (index total : Nat) (pass : ArchivePass) :
    Accounts settings [] pass (pass.tick index total) := by
  unfold tick
  split
  case isTrue => exact .nil rfl rfl
  case isFalse => exact .nil rfl rfl

/-- A pass gets to its end unless it meets an entry that it cannot read. -/
theorem exists_unreadable_iff {total index : Nat} (pass : ArchivePass) :
    (∃ unreadable, (visitAll settings total index entries pass).2 = some unreadable) ↔
      ∃ entry ∈ entries, ∃ fault, entry.heldClass = .error fault := by
  -- A pass ends at the first such entry, so what it has done before does not matter.
  induction entries generalizing index pass with
  | nil => simp [visitAll]
  | cons entry entries ih =>
    rw [visitAll, List.exists_mem_cons_iff]
    cases hheld : entry.heldClass with
    | error fault => exact iff_of_true ⟨_, rfl⟩ (.inl ⟨fault, rfl⟩)
    | ok heldClass? =>
      have hreadable : ¬ ∃ fault, (Except.ok heldClass? : Except EntryFault _) = .error fault := by
        rintro ⟨_, ⟨⟩⟩
      exact (ih _).trans (or_iff_right hreadable).symm

/-- What a pass that gets to its end has done belongs to the entries one by one. -/
theorem accounts_visitAll {total index : Nat} (h : visitAll settings total index entries before =
    (after, none)) : Accounts settings entries before after := by
  induction entries generalizing index before with
  | nil =>
    obtain ⟨rfl, -⟩ := Prod.mk.inj h
    exact .nil rfl rfl
  | cons entry entries ih =>
    rw [visitAll] at h
    cases hheld : entry.heldClass with
    | error fault =>
      rw [hheld] at h
      cases h
    | ok heldClass? =>
      rw [hheld] at h
      exact ((accounts_visit before hheld).append (accounts_tick index total _)).append (ih h)

theorem run_eq_iff : run settings entries = (after, none) ↔
    ∃ pass, visitAll settings entries.length 0 entries (start entries.length) = (pass, none) ∧
      after = pass.finish := by
  rw [run]
  rcases visitAll settings entries.length 0 entries (start entries.length) with ⟨pass, _ | _⟩
  · simp [eq_comm]
  · simp

/-- A pass is kept from its end by an entry that cannot be opened or by a class that cannot be
unpacked, and by nothing else. -/
theorem exists_unreadable_iff_of_run :
    (∃ unreadable, (run settings entries).2 = some unreadable) ↔
      ∃ entry ∈ entries, entry.IsClosed ∨ entry.isClass = true ∧ entry.IsDamaged := by
  simp only [← Entry.exists_heldClass_eq_error_iff]
  rw [← exists_unreadable_iff (start entries.length), run]
  rcases visitAll settings entries.length 0 entries (start entries.length) with ⟨pass, _ | _⟩ <;>
    exact Iff.rfl

theorem readable_of_run (h : run settings entries = (after, none)) (hmem : entry ∈ entries) :
    ¬ (entry.IsClosed ∨ entry.isClass = true ∧ entry.IsDamaged) := by
  intro hunreadable
  obtain ⟨unreadable, hends⟩ := exists_unreadable_iff_of_run.mpr ⟨entry, hmem, hunreadable⟩
  rw [h] at hends
  cases hends

/-- A pass that gets to its end accounts for all entries, from nothing. -/
theorem accounts_run (h : run settings entries = (after, none)) :
    Accounts settings entries (start entries.length) after := by
  obtain ⟨pass, hvisit, rfl⟩ := run_eq_iff.mp h
  have hfinish : Accounts settings [] pass pass.finish := .nil rfl rfl
  have hall := (accounts_visitAll hvisit).append hfinish
  rwa [List.append_nil] at hall

theorem output_of_run (h : run settings entries = (after, none)) :
    after.output.toList = entries.map settings.written :=
  (accounts_run h).output

/-- The new archive is read as the successors of the entries. -/
theorem successors_of_run (h : run settings entries = (after, none)) :
    after.output.toList.map Written.entry = entries.map settings.successor := by
  rw [output_of_run h, List.map_map]
  rfl

end ArchivePass

/-- The numbers and the names in a report are those of the entries one by one. -/
structure ArchiveReport.Tallies (settings : Settings) (entries : List Entry)
    (report : ArchiveReport) : Prop where
  length : report.entries = entries.length
  classesSeen : report.classesSeen = entries.countP Entry.isClass
  classesModified : report.classesModified = entries.countP settings.rewrites
  size_modified : report.modified.size = report.classesModified
  classesFailed : report.classesFailed = entries.countP settings.refuses
  modified : report.modified.toList = (entries.filter settings.rewrites).map Entry.name
  -- A kind is in the map if there are any edits of it, with their number.
  getElem?_mutations : ∀ kind count, report.mutations[kind]? = some count ↔
    0 < count ∧ count = ((entries.filterMap settings.mutations?).map (·.count kind)).sum
  total : report.mutations.total =
    ((entries.filterMap settings.mutations?).map Mutations.total).sum

namespace ArchivePass

/-- Where nothing had been done before, the report tells of these entries alone. -/
theorem Accounts.tallies (h : Accounts settings entries (start entries.length) after) :
    after.report.Tallies settings entries := by
  have hcount (kind : Mutation) : after.report.mutations.count kind =
      ((entries.filterMap settings.mutations?).map (·.count kind)).sum :=
    (h.mutations kind).trans (Nat.zero_add _)
  have hpositive := h.isPositive MutationCounts.isPositive_empty
  have hmodified : after.report.modified.toList =
      (entries.filter settings.rewrites).map Entry.name := h.modified
  have hrewritten : after.report.classesModified = entries.countP settings.rewrites :=
    h.classesModified.trans (Nat.zero_add _)
  constructor
  case length => exact h.total
  case classesSeen => exact h.classesSeen.trans (Nat.zero_add _)
  case classesModified => exact hrewritten
  case size_modified =>
    rw [hrewritten, ← Array.length_toList, hmodified, List.length_map, List.countP_eq_length_filter]
  case classesFailed => exact h.classesFailed.trans (Nat.zero_add _)
  case modified => exact hmodified
  case getElem?_mutations =>
    intro kind count
    rw [MutationCounts.getElem?_eq_some_iff hpositive, hcount]
  case total => exact MutationCounts.total_eq_sum_total hcount

/-- A pass fails exactly if there is an entry that cannot be opened, or a file that is named like a
class and cannot be unpacked. Otherwise the new archive is the old one entry by entry, under the
same names and in the same order, and the report adds up. -/
theorem entrywise_of_run (settings : Settings) (entries : List Entry) :
    ((∃ unreadable, (run settings entries).2 = some unreadable) ↔
      ∃ entry ∈ entries, entry.IsClosed ∨ entry.isClass = true ∧ entry.IsDamaged) ∧
    ∀ pass, run settings entries = (pass, none) →
      pass.output.toList = entries.map settings.written ∧
      pass.output.toList.map (·.entry.name) = entries.map Entry.name ∧
      pass.report.Tallies settings entries := by
  refine ⟨exists_unreadable_iff_of_run, ?_⟩
  intro pass hrun
  refine ⟨output_of_run hrun, ?_, (accounts_run hrun).tallies⟩
  rw [output_of_run hrun, List.map_map]
  exact List.map_congr_left fun entry _ => Settings.name_successor entry

/-- An archive with a class to rewrite, a class that cannot be revised, and two entries that are no
classes, one of which cannot be unpacked. -/
def sampleEntries : List Entry :=
  [.file "META-INF/MANIFEST.MF" ⟨#[77, 10]⟩,
    .file "META-INF/versions/9/E.class" ⟨enumSampleBytes.toArray⟩,
    .file "F.class" ⟨#[0xCA, 0xFE]⟩,
    { name := "data.bin", isLink := false, content := .error (.damaged .corrupt) }]

/-- An entry that cannot be opened ends a pass, though it is no class. -/
def lockedEntries : List Entry :=
  [{ name := "secret.txt", isLink := false, content := .error (.closed .encrypted) }]

theorem entrywise_of_run_samples :
    (∃ unreadable, (run {} lockedEntries).2 = some unreadable) ∧
    (∃ entry ∈ lockedEntries, entry.IsClosed ∧ entry.isClass = false) ∧
    (run {} sampleEntries).2 = none ∧ (run {} sampleEntries).1.report.classesModified = 1 ∧
    (run {} sampleEntries).1.report.classesFailed = 1 ∧
    (run {} sampleEntries).1.output.toList = sampleEntries.map (Settings.written {}) ∧
    (run {} sampleEntries).1.output.toList.map (·.entry.name) = sampleEntries.map Entry.name ∧
    (run {} sampleEntries).1.report.Tallies {} sampleEntries := by
  have hends : (run {} sampleEntries).2 = none := by decide +kernel
  have hmodified : (run {} sampleEntries).1.report.classesModified = 1 := by decide +kernel
  have hfailed : (run {} sampleEntries).1.report.classesFailed = 1 := by decide +kernel
  have hclosed : ∃ entry ∈ lockedEntries, entry.IsClosed ∧ entry.isClass = false :=
    ⟨_, List.mem_singleton_self _, ⟨.encrypted, rfl⟩, by decide⟩
  obtain ⟨entry, hentry, hfault, hother⟩ := hclosed
  refine ⟨?_, ⟨entry, hentry, hfault, hother⟩, hends, hmodified, hfailed,
    (entrywise_of_run {} sampleEntries).2 _ (Prod.ext rfl hends)⟩
  exact (entrywise_of_run {} lockedEntries).1.mpr ⟨entry, hentry, .inl hfault⟩

end ArchivePass

end ClassThaw
