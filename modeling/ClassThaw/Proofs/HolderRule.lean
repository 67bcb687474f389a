import ClassThaw.HolderRule
import ClassThaw.Proofs.ClassFile.Frame
import ClassThaw.Proofs.Edit

namespace ClassThaw

section decisions

variable {ε α β : Type} {action : Logged ε α} {value : α} {next : α → Logged ε β} {result : β}

/-- Whatever has been reported before, the action comes to the value, and what it adds to the
reports says no more than how it came to it. -/
def Decides (action : Logged ε α) (value : α) : Prop :=
  ∀ log, ∃ events : Array Event, (∀ event ∈ events, event.level = .debug) ∧
    Gives action log value (log ++ events)

theorem decides_pure (value : α) : Decides (pure value : Logged ε α) value := by
  intro log
  refine ⟨#[], ?_, gives_pure.mpr ⟨rfl, Array.append_empty⟩⟩
  intro event hevent
  cases Array.not_mem_empty event hevent

theorem decides_report {event : Event} (hlevel : event.level = .debug) :
    Decides (Logged.report event : Logged ε Unit) () := by
  intro log
  refine ⟨#[event], ?_, gives_modify.mpr Array.push_eq_append.symm⟩
  intro found hfound
  rw [Array.mem_singleton.mp hfound, hlevel]

theorem Decides.bind (h : Decides action value) (hnext : Decides (next value) result) :
    Decides (action >>= next) result := by
  intro log
  obtain ⟨events, hlevels, hgives⟩ := h log
  obtain ⟨events', hlevels', hgives'⟩ := hnext (log ++ events)
  refine ⟨events ++ events', ?_, gives_bind.mpr ⟨value, _, hgives, ?_⟩⟩
  · intro event hevent
    rcases Array.mem_append.mp hevent with hfirst | hsecond
    · exact hlevels event hfirst
    · exact hlevels' event hsecond
  · rw [← Array.append_assoc]
    exact hgives'

/-- What is looked up and found does not change the reports. -/
theorem Decides.bind_lift {looked : Except ε α} (hlooked : looked = .ok value)
    (hnext : Decides (next value) result) : Decides (liftM looked >>= next) result := by
  subst hlooked
  exact hnext

end decisions

namespace HolderRules

variable {rules : HolderRules} {debug : Bool} {className : String} {file : ClassFile}

/-- All fields of the class are holders, going by its name and by its annotations. -/
def covers (rules : HolderRules) (className : String) (file : ClassFile) : Bool :=
  (rules.isForced className || file.annotationDescriptors.toOption.any rules.anyIsMarker) ||
    file.fields.any (rules.carries .itemStackHolder file.pool)

/-- The rule thaws this field of the class. -/
def selects (rules : HolderRules) (className : String) (file : ClassFile) : Field → Bool :=
  rules.thaws file.pool (rules.covers className file)

/-- The class after the rule. -/
def thaw (rules : HolderRules) (className : String) (file : ClassFile) : ClassFile :=
  file.thawWhere (rules.selects className file)

theorem decides_survey {pool : ConstantPool} {fields : List Field} (whole : Bool)
    (h : ∀ field ∈ fields, field.check pool = .ok ()) :
    Decides (rules.survey debug pool whole fields)
      (whole || fields.any (rules.carries .itemStackHolder pool)) := by
  -- What has been found so far is handed on from field to field.
  induction fields generalizing whole with
  | nil =>
    rw [survey, List.any_nil, Bool.or_false]
    exact decides_pure whole
  | cons field fields ih =>
    obtain ⟨hfield, hfields⟩ := List.forall_mem_cons.mp h
    obtain ⟨descriptors, hdescriptors⟩ := Member.exists_annotationDescriptors hfield
    obtain ⟨name, hname⟩ := Member.exists_nameText hfield
    have hcarries : rules.carries .itemStackHolder pool field =
        rules.anyIs .itemStackHolder descriptors := by
      rw [carries, hdescriptors]
    rw [survey, List.any_cons, hcarries]
    apply Decides.bind_lift hdescriptors
    cases hmarker : rules.anyIs .itemStackHolder descriptors with
    | false =>
      rw [if_neg Bool.false_ne_true, Bool.false_or]
      exact ih whole hfields
    | true =>
      -- From here on the whole class is covered.
      have hrest := ih true hfields
      rw [Bool.true_or] at hrest
      rw [if_pos rfl, Bool.true_or, Bool.or_true]
      cases debug && !whole with
      | false => exact hrest
      | true => exact Decides.bind_lift hname ((decides_report rfl).bind hrest)

theorem decides_coversClass (rules : HolderRules) (debug : Bool) (className : String)
    (h : file.check = .ok ()) :
    Decides (rules.coversClass debug className file) (rules.covers className file) := by
  have hindexed := (ClassFile.check_eq_ok_iff.mp h).2
  rw [coversClass, covers]
  split
  case isTrue hforced =>
    rw [hforced, Bool.true_or]
    exact decides_survey true hindexed.fields
  case isFalse hunforced =>
    obtain ⟨descriptors, hdescriptors⟩ := Attribute.exists_descriptors hindexed.attributes
    have hlooked : file.annotationDescriptors = .ok descriptors := hdescriptors
    rw [Bool.eq_false_iff.mpr hunforced, Bool.false_or, hlooked]
    exact Decides.bind_lift rfl (decides_survey _ hindexed.fields)

/-- On a class that passes its check the rule cannot fail, and all it does is thaw the fields that
it selects. -/
theorem gives_thawFields (rules : HolderRules) (debug : Bool) (className : String)
    {work : Workpiece} (h : work.file.check = .ok ()) :
    ∃ events : Array Event, (∀ event ∈ events, event.level = .debug) ∧
      Gives (rules.thawFields debug className) work
        (work.file.fields.countP (rules.selects className work.file))
        ⟨rules.thaw className work.file, work.log ++ events⟩ := by
  obtain ⟨events, hlevels, hdecides⟩ := decides_coversClass rules debug className h work.log
  have hlogged : Gives (Edit.logged (rules.coversClass debug className work.file)) work
      (rules.covers className work.file) { work with log := work.log ++ events } :=
    Edit.gives_logged.mpr ⟨_, hdecides, rfl⟩
  refine ⟨events, hlevels, Edit.gives_file_bind.mpr (gives_bind.mpr ⟨_, _, hlogged, ?_⟩)⟩
  exact Edit.gives_change_bind.mpr (gives_pure.mpr ⟨rfl, rfl⟩)

/-- The field was not to be thawed and is as it was, or it has been thawed. -/
def Settles (thaws : Field → Bool) (field field' : Field) : Prop :=
  thaws field = false ∧ field' = field ∨ field' = field.thawed

theorem Settles.mayThaw {thaws : Field → Bool} {field field' : Field}
    (h : Settles thaws field field') : field.MayThaw field' := h.imp And.right id

/-- It does no harm to thaw more than was to be thawed. -/
theorem Settles.of_mayThaw {thaws : Field → Bool} {field middle field' : Field}
    (h : Settles thaws field middle) (hmay : middle.MayThaw field') :
    Settles thaws field field' := by
  rcases hmay with rfl | rfl
  · exact h
  · refine .inr ?_
    rcases h with ⟨-, rfl⟩ | rfl
    · rfl
    · exact Member.thawed_thawed field

theorem forall₂_settles_thaw (rules : HolderRules) (className : String) (file : ClassFile) :
    List.Forall₂ (Settles (rules.selects className file)) file.fields
      (rules.thaw className file).fields := by
  refine List.forall₂_map_right_iff.mpr (List.forall₂_same.mpr ?_)
  intro field _
  cases hselects : rules.selects className file field with
  | false => exact .inl ⟨hselects, rfl⟩
  | true => exact .inr rfl

theorem frame_thaw (rules : HolderRules) (className : String) (file : ClassFile) :
    file.Frame none (rules.thaw className file) :=
  (ClassFile.Frame.refl _).of_fields
    ((forall₂_settles_thaw rules className file).imp fun _ _ => Settles.mayThaw)

/-- Each field of the class after the rule was there before, perhaps with other flags. -/
theorem exists_field_of_thaw {position : Nat} {field : Field}
    (h : (rules.thaw className file).fields[position]? = some field) :
    ∃ original : Field, file.fields[position]? = some original ∧ original.Reflagged field := by
  have hmap : (rules.thaw className file).fields[position]? =
      file.fields[position]?.map fun field =>
        if rules.selects className file field then field.thawed else field := List.getElem?_map
  rw [hmap] at h
  obtain ⟨original, horiginal, rfl⟩ := Option.map_eq_some_iff.mp h
  refine ⟨original, horiginal, ?_⟩
  split
  · exact Member.reflagged_thawed original
  · exact Member.Reflagged.refl original

theorem carries_congr {marker : Marker} {before after : ConstantPool} {field field' : Field}
    (h : Member.Alike before after field field') :
    rules.carries marker after field' = rules.carries marker before field := by
  rw [carries, carries, h.annotationDescriptors]

variable {file' : ClassFile}

theorem covers_congr (hown : file'.annotationDescriptors = file.annotationDescriptors)
    (hfields : List.Forall₂ (Member.Alike file.pool file'.pool) file.fields file'.fields) :
    rules.covers className file' = rules.covers className file := by
  rw [covers, covers, hown, any_eq_of_forall₂ hfields fun _ _ => carries_congr]

/-- Once its selection has been thawed, the rule selects no more fields of the class. -/
theorem selects_of_settles (hown : file'.annotationDescriptors = file.annotationDescriptors)
    (hlike : List.Forall₂ (Member.Alike file.pool file'.pool) file.fields file'.fields)
    (hsettles : List.Forall₂ (Settles (rules.selects className file)) file.fields file'.fields) :
    ∀ field ∈ file'.fields, rules.selects className file' field = false := by
  -- Both relations hold place by place, so a field after the rule has one and the same origin in
  -- both.
  have hboth := hlike.mp (fun field field' halike hsettled => And.intro halike hsettled) hsettles
  intro field' hfield'
  obtain ⟨field, -, halike, hsettled⟩ := exists_mem_of_forall₂ hboth hfield'
  rw [selects, thaws, covers_congr hown hlike, carries_congr halike]
  rcases hsettled with ⟨hpassed, rfl⟩ | rfl
  · exact hpassed
  · have hcleared : field.thawed.access.has .final = false :=
      Access.has_clear field.access .final (by decide)
    rw [hcleared, Bool.false_and]

theorem thaw_eq_self (h : ∀ field ∈ file.fields, rules.selects className file field = false) :
    rules.thaw className file = file := by
  have hfields : file.fields.map (fun field =>
      if rules.selects className file field then field.thawed else field) = file.fields := by
    apply map_eq_self
    intro field hfield
    rw [h field hfield, if_neg Bool.false_ne_true]
  rw [thaw, ClassFile.thawWhere, hfields]

end HolderRules

end ClassThaw
