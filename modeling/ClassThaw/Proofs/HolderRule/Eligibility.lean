import ClassThaw.Proofs.HolderRule
import ClassThaw.Proofs.Marker

namespace ClassThaw

variable {pool : ConstantPool} {attributes : List Attribute} {descriptors : List String}

theorem Attribute.mem_visibleIn_iff {info : AnnotationInfo} : info ∈ visibleIn attributes ↔
    ∃ name annotations, .visibleAnnotations name annotations ∈ attributes ∧
      info ∈ annotations := by
  rw [visibleIn, List.mem_flatMap]
  constructor
  · rintro ⟨item, hitem, hinfo⟩
    cases item with
    | visibleAnnotations name annotations => exact ⟨name, annotations, hitem, hinfo⟩
    | _ => cases hinfo
  · rintro ⟨name, annotations, hitem, hinfo⟩
    exact ⟨_, hitem, hinfo⟩

namespace HolderRules

variable {rules : HolderRules} {debug : Bool} {marker : Marker} {className : String}
  {file : ClassFile}

/-- One of the annotations that a running program can see carries the marker. -/
def Marked (rules : HolderRules) (marker : Marker) (pool : ConstantPool)
    (attributes : List Attribute) : Prop :=
  ∃ name annotations info descriptor, .visibleAnnotations name annotations ∈ attributes ∧
    info ∈ annotations ∧ pool.text info.type = .ok descriptor ∧ rules.Marks marker descriptor

/-- What makes a field of a class a holder: the name of the class, a marker of the class, the
item-stack marker of any of its fields, or the object marker of the field itself. -/
def IsHolder (rules : HolderRules) (className : String) (file : ClassFile) (field : Field) : Prop :=
  className ∈ rules.forcedClasses ∨
  (∃ marker, rules.Marked marker file.pool file.attributes) ∨
  (∃ other ∈ file.fields, rules.Marked .itemStackHolder file.pool other.attributes) ∨
  rules.Marked .objectHolder file.pool field.attributes

/-- Where all types can be read, the marked annotations are those whose types are marked. -/
theorem marked_iff
    (h : (Attribute.visibleIn attributes).mapM (·.descriptor pool) = .ok descriptors) :
    rules.Marked marker pool attributes ↔
      ∃ descriptor ∈ descriptors, rules.Marks marker descriptor := by
  constructor
  · rintro ⟨name, annotations, info, descriptor, hitem, hinfo, htext, hmarks⟩
    have hvisible := Attribute.mem_visibleIn_iff.mpr ⟨name, annotations, hitem, hinfo⟩
    exact ⟨descriptor, (mem_of_mapM_eq_ok h).mpr ⟨info, hvisible, htext⟩, hmarks⟩
  · rintro ⟨descriptor, hmem, hmarks⟩
    obtain ⟨info, hvisible, htext⟩ := (mem_of_mapM_eq_ok h).mp hmem
    obtain ⟨name, annotations, hitem, hinfo⟩ := Attribute.mem_visibleIn_iff.mp hvisible
    exact ⟨name, annotations, info, descriptor, hitem, hinfo, htext, hmarks⟩

/-- To ask for each marker among all descriptors is to ask for any marker of each descriptor. -/
theorem exists_marked_iff
    (h : (Attribute.visibleIn attributes).mapM (·.descriptor pool) = .ok descriptors) :
    (∃ marker, rules.Marked marker pool attributes) ↔
      ∃ descriptor ∈ descriptors, ∃ marker, rules.Marks marker descriptor := by
  simp only [marked_iff h]
  constructor
  · rintro ⟨marker, descriptor, hmem, hmarks⟩
    exact ⟨descriptor, hmem, marker, hmarks⟩
  · rintro ⟨descriptor, hmem, marker, hmarks⟩
    exact ⟨marker, descriptor, hmem, hmarks⟩

theorem carries_iff {field : Field} (h : field.annotationDescriptors pool = .ok descriptors) :
    rules.carries marker pool field = true ↔ rules.Marked marker pool field.attributes := by
  rw [carries, h, marked_iff h]
  exact anyIs_iff

theorem gives_lift_bind {α β : Type} {looked : Except FormatError α}
    {next : α → Logged FormatError β} {result : β} {log log' : Array Event} :
    Gives (liftM looked >>= next) log result log' ↔
      ∃ value, looked = .ok value ∧ Gives (next value) log result log' := by
  cases looked with
  | error error =>
    constructor
    · intro h
      exact absurd h gives_throw
    · rintro ⟨_, ⟨⟩, -⟩
  | ok value =>
    constructor
    · intro h
      exact ⟨value, rfl, h⟩
    · rintro ⟨_, ⟨⟩, h⟩
      exact h

/-- A survey that comes to its end has read the annotations of all fields. -/
theorem of_gives_survey {fields : List Field} {whole found : Bool} {log log' : Array Event}
    (h : Gives (rules.survey debug pool whole fields) log found log') :
    (found = true ↔ whole = true ∨
      ∃ field ∈ fields, rules.Marked .itemStackHolder pool field.attributes) ∧
    ∀ field ∈ fields, ∃ descriptors, field.annotationDescriptors pool = .ok descriptors := by
  -- As in the survey, what has been found so far is handed on from field to field.
  induction fields generalizing whole log with
  | nil =>
    rw [survey] at h
    obtain ⟨rfl, -⟩ := gives_pure.mp h
    exact ⟨by simp, List.forall_mem_nil _⟩
  | cons field fields ih =>
    rw [survey] at h
    obtain ⟨descriptors, hdescriptors, h⟩ := gives_lift_bind.mp h
    have hmarked : rules.anyIs .itemStackHolder descriptors = true ↔
        rules.Marked .itemStackHolder pool field.attributes :=
      anyIs_iff.trans (marked_iff hdescriptors).symm
    rw [List.exists_mem_cons_iff, List.forall_mem_cons, ← hmarked]
    split at h
    case isFalse hplain =>
      obtain ⟨hfound, hread⟩ := ih h
      refine ⟨?_, ⟨descriptors, hdescriptors⟩, hread⟩
      rw [hfound, iff_false_intro hplain, false_or]
    case isTrue hmarker =>
      -- Whether or not the field is reported, the rest is surveyed as part of a whole class.
      have hrest : ∃ log, Gives (rules.survey debug pool true fields) log found log' := by
        split at h
        · obtain ⟨name, -, hreport⟩ := gives_lift_bind.mp h
          obtain ⟨_, log, -, hsurvey⟩ := gives_bind.mp hreport
          exact ⟨log, hsurvey⟩
        · exact ⟨log, h⟩
      obtain ⟨log, hsurvey⟩ := hrest
      obtain ⟨hfound, hread⟩ := ih hsurvey
      refine ⟨?_, ⟨descriptors, hdescriptors⟩, hread⟩
      exact iff_of_true (hfound.mpr (.inl rfl)) (.inr (.inl hmarker))

theorem of_gives_coversClass {whole : Bool} {log log' : Array Event}
    (h : Gives (rules.coversClass debug className file) log whole log') :
    (whole = true ↔ className ∈ rules.forcedClasses ∨
      (∃ marker, rules.Marked marker file.pool file.attributes) ∨
      ∃ field ∈ file.fields, rules.Marked .itemStackHolder file.pool field.attributes) ∧
    ∀ field ∈ file.fields, ∃ descriptors,
      field.annotationDescriptors file.pool = .ok descriptors := by
  have hforced : rules.isForced className = true ↔ className ∈ rules.forcedClasses :=
    List.contains_iff_mem
  rw [coversClass] at h
  split at h
  case isTrue hname =>
    obtain ⟨hwhole, hread⟩ := of_gives_survey h
    exact ⟨iff_of_true (hwhole.mpr (.inl rfl)) (.inl (hforced.mp hname)), hread⟩
  case isFalse hname =>
    obtain ⟨descriptors, hdescriptors, h⟩ := gives_lift_bind.mp h
    obtain ⟨hwhole, hread⟩ := of_gives_survey h
    refine ⟨?_, hread⟩
    rw [hwhole, ← hforced, iff_false_intro hname, false_or, anyIsMarker_iff,
      exists_marked_iff hdescriptors]

/-- Once the rule knows whether all fields are holders, it thaws the holders that are final. -/
theorem thaws_iff {field : Field} {whole : Bool} {log log' : Array Event}
    (h : Gives (rules.coversClass debug className file) log whole log')
    (hfield : field ∈ file.fields) :
    rules.thaws file.pool whole field = true ↔
      field.access.has .final = true ∧ rules.IsHolder className file field := by
  obtain ⟨hwhole, hread⟩ := of_gives_coversClass h
  obtain ⟨descriptors, hdescriptors⟩ := hread field hfield
  rw [thaws, Bool.and_eq_true_iff, Bool.or_eq_true_iff, carries_iff hdescriptors, hwhole, IsHolder,
    or_assoc, or_assoc]

/-- The fields that the rule selects of a class that passes its check. -/
theorem selects_iff {field : Field} (hcheck : file.check = .ok ()) (hfield : field ∈ file.fields) :
    rules.selects className file field = true ↔
      field.access.has .final = true ∧ rules.IsHolder className file field := by
  obtain ⟨events, -, hgives⟩ := decides_coversClass rules false className hcheck #[]
  exact thaws_iff hgives hfield

theorem fails_or_thaws (rules : HolderRules) (debug : Bool) (className : String) (file : ClassFile)
    (log : Array Event) :
    (∃ error log', (rules.thawFields debug className).on file log = (.error error, ⟨file, log'⟩)) ∨
    ∃ (thaws : Field → Bool) (log' : Array Event),
      (rules.thawFields debug className).on file log =
        (.ok (file.fields.countP thaws),
          ⟨{ file with
              fields := file.fields.map fun field => if thaws field then field.thawed else field },
            log'⟩) ∧
      ∀ field ∈ file.fields,
        (thaws field = true ↔
          field.access.has .final = true ∧ rules.IsHolder className file field) ∧
        (thaws field = true → field.thawed.access.has .final = false ∧
          { field.thawed with access := field.thawed.access.set .final } = field) := by
  rw [Edit.on, thawFields]
  rcases hcovers : (rules.coversClass debug className file).run log with ⟨error | whole, log'⟩
  · have hlogged : (Edit.logged (rules.coversClass debug className file)).run ⟨file, log⟩ =
        (.error (.malformed error), ⟨file, log'⟩) := by
      rw [Edit.run_logged, hcovers]
      rfl
    refine .inl ⟨.malformed error, log', ?_⟩
    rw [Edit.run_file_bind, run_bind_of_error hlogged]
  · have hlogged : Gives (Edit.logged (rules.coversClass debug className file)) ⟨file, log⟩ whole
        ⟨file, log'⟩ :=
      Edit.gives_logged.mpr ⟨log', hcovers, rfl⟩
    refine .inr ⟨rules.thaws file.pool whole, log', ?_, ?_⟩
    · rw [Edit.run_file_bind, run_bind_of_ok hlogged]
      rfl
    · intro field hfield
      have hthaws : rules.thaws file.pool whole field = true ↔
          field.access.has .final = true ∧ rules.IsHolder className file field :=
        thaws_iff hcovers hfield
      refine ⟨hthaws, ?_⟩
      intro hselected
      have hfinal := (hthaws.mp hselected).1
      refine ⟨Access.has_clear field.access .final (by decide), ?_⟩
      exact congrArg (fun access => { field with access }) (Access.set_clear _ _ hfinal)

/-- The rule either fails, with the class as it was, or takes `final` from the holders among the
final fields and returns how many these are. Nothing else of the class changes, and nothing of a
field but this one flag. Markers are what the way of matching in the configuration recognises. -/
theorem holders_of_thawFields (config : Configuration) (debug : Bool) (className : String)
    (file : ClassFile) (log : Array Event) :
    (∀ marker descriptor, config.rules.Marks marker descriptor ↔
      config.matching.Recognises (config.fragment marker) descriptor) ∧
    ((∃ error log',
        (config.rules.thawFields debug className).on file log = (.error error, ⟨file, log'⟩)) ∨
      ∃ (thaws : Field → Bool) (log' : Array Event),
        (config.rules.thawFields debug className).on file log =
          (.ok (file.fields.countP thaws),
            ⟨{ file with
                fields :=
                  file.fields.map fun field => if thaws field then field.thawed else field },
              log'⟩) ∧
        ∀ field ∈ file.fields,
          (thaws field = true ↔
            field.access.has .final = true ∧ config.rules.IsHolder className file field) ∧
          (thaws field = true → field.thawed.access.has .final = false ∧
            { field.thawed with access := field.thawed.access.set .final } = field)) :=
  ⟨fun _ _ => marks_iff_recognises, config.rules.fails_or_thaws debug className file log⟩

end HolderRules

end ClassThaw
