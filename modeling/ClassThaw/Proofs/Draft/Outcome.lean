import ClassThaw.Proofs.Draft.Plan

namespace ClassThaw

open List (Forall₂)
open ConstantPool

namespace Draft

/-- The calls for visible annotations of these types. -/
def annotationCalls : List String → List Addition
  | [] => []
  | descriptors => .text AttributeKind.visibleAnnotations.name :: descriptors.map .text

def codeCalls : Option Body → List Addition
  | none => []
  | some _ => [.text AttributeKind.code.name]

/-- The calls that a step makes to the pool, in order. -/
def Step.calls : Step → List Addition
  | .version _ _ | .access _ => []
  | .superClass name | .interface name => [.class name]
  | .annotated descriptor => annotationCalls [descriptor]
  | .field _ name descriptor descriptors =>
    .text name :: .text descriptor :: annotationCalls descriptors
  | .constantField _ name value descriptors =>
    .text AttributeKind.constantValue.name :: .integer value :: .text name :: .text "I" ::
      annotationCalls descriptors
  | .method _ name descriptor body => .text name :: .text descriptor :: codeCalls body
  | .raw name _ => [.text name]

/-- The calls that a draft makes to its pool, in order. -/
def calls (name : String) (steps : List Step) : List Addition :=
  .class name :: .class "java/lang/Object" :: steps.flatMap Step.calls

variable {given : ClassFile → Prop} {plan : ClassPlan}

theorem endures_meets (plan : ClassPlan) : Endures (·.Meets plan) :=
  fun _ _ hgrows hmeets => hmeets.grow hgrows

/-- Index 0 means that there is no superclass, but no class is ever found there. -/
theorem superName_of_isClass {file : ClassFile} {name : String} (hsound : file.pool.Sound)
    (h : file.pool.IsClass name file.superClass) : file.superName = .ok (some name) := by
  have hname := h.className_eq
  obtain ⟨text, hget, -⟩ := h
  exact ClassFile.superName_eq_ok_some_iff.mpr ⟨hsound.ne_zero hget, hname⟩

theorem makes_annotations (descriptors : List String) (hgiven : Endures given) :
    Makes given (annotations descriptors) (annotationCalls descriptors) fun items file =>
      Forall₂ (Attribute.Meets file.pool) (AttributePlan.annotated descriptors) items ∧
        given file := by
  cases descriptors with
  | nil => exact makes_pure [] fun file hfile => ⟨.nil, hfile⟩
  | cons descriptor descriptors =>
    apply (makes_text AttributeKind.visibleAnnotations.name hgiven).bind
    intro name
    apply (makes_texts _ (hgiven.beside fun _ _ => IsText.grow)).bind_pure
    rintro types file ⟨htypes, hname, hfile⟩
    refine ⟨.cons (.annotations hname.text_eq ?_ ?_) .nil, hfile⟩
    · rw [mapM_eq_ok_iff, List.forall₂_map_left_iff]
      exact htypes.flip.imp fun _ _ htype => IsText.text_eq htype
    · simp

theorem makes_code (body : Option Body) (hgiven : Endures given) :
    Makes given (code body) (codeCalls body) fun items file =>
      Forall₂ (Attribute.Meets file.pool) (AttributePlan.ofBody body) items ∧
        given file := by
  cases body with
  | none => exact makes_pure [] fun file hfile => ⟨.nil, hfile⟩
  | some body =>
    apply (makes_text AttributeKind.code.name hgiven).bind_pure
    rintro name file ⟨hname, hfile⟩
    exact ⟨.cons (.body hname.text_eq) .nil, hfile⟩

/-- Fields and methods are added in the same way. -/
theorem makes_member {step : StateM Draft (List Attribute)} {made : List Addition}
    {plans : List AttributePlan} {f : UInt16 → UInt16 → List Attribute → ClassFile → ClassFile}
    {holds : ClassFile → Prop} (name descriptor : String) (hgiven : Endures given)
    (hstep : ∀ kept, Endures kept → Makes kept step made fun items file =>
      Forall₂ (Attribute.Meets file.pool) plans items ∧ kept file)
    (hpool : ∀ first second items file, (f first second items file).pool = file.pool)
    (hholds : ∀ first second items file, file.pool.text first = .ok name →
      file.pool.text second = .ok descriptor → Forall₂ (Attribute.Meets file.pool) plans items →
        given file → holds (f first second items file)) :
    Makes given (do
        let first ← intern (internText name)
        let second ← intern (internText descriptor)
        let items ← step
        change (f first second items))
      (.text name :: .text descriptor :: made) fun _ => holds := by
  apply (makes_text name hgiven).bind
  intro first
  have hfirst := hgiven.beside fun _ _ => @IsText.grow _ _ first name
  apply (makes_text descriptor hfirst).bind
  intro second
  apply (hstep _ (hfirst.beside fun _ _ => IsText.grow)).bind_change (hpool first second)
  rintro items file - ⟨hitems, hdescriptor, hname, hfile⟩
  exact hholds first second items file hname.text_eq hdescriptor.text_eq hitems hfile

/-- A step does to the class what it does to the plan. -/
theorem makes_take (step : Step) :
    Makes (·.Meets plan) (take step) step.calls fun _ file => file.Meets (plan.add step) := by
  have hplan := endures_meets plan
  cases step with
  | version major minor =>
    refine makes_change ?_ ?_
    · intro _
      rfl
    · intro file _ h
      exact { h with major := rfl, minor := rfl }
  | access access =>
    refine makes_change ?_ ?_
    · intro _
      rfl
    · intro file _ h
      exact { h with access := rfl }
  | superClass name =>
    refine (makes_class name hplan).bind_change ?_ ?_
    · intro _ _
      rfl
    · rintro index file hsound ⟨hclass, h⟩
      exact { h with superName := superName_of_isClass hsound hclass }
  | interface name =>
    refine (makes_class name hplan).bind_change ?_ ?_
    · intro _ _
      rfl
    · rintro index file - ⟨hclass, h⟩
      have hnames := mapM_eq_ok_iff.mp h.interfaceNames
      exact { h with
        interfaceNames := mapM_eq_ok_iff.mpr
          (List.rel_append hnames (.cons hclass.className_eq .nil)) }
  | annotated descriptor =>
    refine (makes_annotations [descriptor] hplan).bind_change ?_ ?_
    · intro _ _
      rfl
    · rintro items file - ⟨hitems, h⟩
      exact { h with attributes := List.rel_append h.attributes hitems }
  | field access name descriptor descriptors =>
    refine makes_member name descriptor hplan (fun _ => makes_annotations descriptors) ?_ ?_
    · intro _ _ _ _
      rfl
    · intro first second items file hname hdescriptor hitems h
      exact { h with
        fields := List.rel_append h.fields (.cons ⟨rfl, hname, hdescriptor, hitems⟩ .nil) }
  | constantField access name value descriptors =>
    -- The value is added before the field, and its attribute stands in front of the annotations.
    apply (makes_text AttributeKind.constantValue.name hplan).bind
    intro attributeName
    have hkept := hplan.beside fun _ _ =>
      @IsText.grow _ _ attributeName AttributeKind.constantValue.name
    apply (makes_integer value hkept).bind
    intro index
    have hkept' := hkept.beside fun _ _ hgrows => @Grows.get? _ _ index hgrows (.integer value)
    refine makes_member name "I" hkept' (fun _ => makes_annotations descriptors) ?_ ?_
    · intro _ _ _ _
      rfl
    · rintro first second items file hname hdescriptor hitems ⟨hvalue, hattribute, h⟩
      have hall := Forall₂.cons (.integer hattribute.text_eq hvalue) hitems
      exact { h with
        fields := List.rel_append h.fields (.cons ⟨rfl, hname, hdescriptor, hall⟩ .nil) }
  | method access name descriptor body =>
    refine makes_member name descriptor hplan (fun _ => makes_code body) ?_ ?_
    · intro _ _ _ _
      rfl
    · intro first second items file hname hdescriptor hitems h
      exact { h with
        methods := List.rel_append h.methods (.cons ⟨rfl, hname, hdescriptor, hitems⟩ .nil) }
  | raw name bytes =>
    refine (makes_text name hplan).bind_change ?_ ?_
    · intro _ _
      rfl
    · rintro index file - ⟨hname, h⟩
      exact { h with attributes := List.rel_append h.attributes (.cons (.raw hname.text_eq) .nil) }

/-- Nothing has been done to the class yet, except that its pool may have grown. -/
def IsBlank (file : ClassFile) : Prop := ∃ pool : ConstantPool, file = { blank with pool }

theorem endures_isBlank : Endures IsBlank := by
  rintro _ after _ ⟨pool, rfl⟩
  exact ⟨after, rfl⟩

theorem makes_nameClass (name : String) :
    Makes IsBlank (nameClass name) [.class name, .class "java/lang/Object"]
      fun _ file => file.Meets (.start name) := by
  apply (makes_class name endures_isBlank).bind
  intro thisClass
  have hkept := endures_isBlank.beside fun _ _ => @IsClass.grow _ _ thisClass name
  refine (makes_class "java/lang/Object" hkept).bind_change ?_ ?_
  · intro _ _
    rfl
  · rintro superClass file hsound ⟨hsuper, hthis, pool, rfl⟩
    constructor
    case name => exact hthis.className_eq
    case superName => exact superName_of_isClass hsound hsuper
    case fields | methods | attributes => exact .nil
    all_goals rfl

theorem makes_forM (steps : List Step) :
    Makes (·.Meets plan) (steps.forM take) (steps.flatMap Step.calls)
      fun _ file => file.Meets (steps.foldl ClassPlan.add plan) := by
  induction steps generalizing plan with
  | nil => exact makes_pure PUnit.unit fun _ hmeets => hmeets
  | cons step steps ih => exact (makes_take step).bind fun _ => ih

theorem ofSteps_eq (name : String) (steps : List Step) : ofSteps name steps =
    ((nameClass name >>= fun _ => steps.forM take).run { file := blank }).2 := by
  -- Taking one step after the other is one run of all steps.
  have hrun (draft : Draft) : steps.foldl step draft = ((steps.forM take).run draft).2 := by
    induction steps generalizing draft with
    | nil => rfl
    | cons step steps ih => exact ih (draft.step step)
  exact hrun (start name)

/-- The pool of a draft and its error are those of the calls that it has made. If it has no error,
the class is as planned. -/
theorem ofSteps_spec (name : String) (steps : List Step) :
    (ofSteps name steps).file.pool = empty.afterCalls (calls name steps) ∧
    (ofSteps name steps).error? = firstFailure? (empty.outcomes (calls name steps)) ∧
    ((ofSteps name steps).error? = none →
      (ofSteps name steps).file.Meets (.ofSteps name steps)) := by
  have hmakes := (makes_nameClass name).bind fun _ => makes_forM steps
  obtain ⟨hpool, herror, hmeets⟩ := hmakes { file := blank } sound_empty
  rw [ofSteps_eq]
  exact ⟨hpool, herror, fun hnone => hmeets hnone ⟨_, rfl⟩⟩

theorem build_of_error {draft : Draft} {error : FormatError} (h : draft.error? = some error) :
    draft.build = .error error := by
  rw [build, h]

theorem build_of_check {draft : Draft} (h : draft.error? = none)
    (hcheck : draft.file.check = .ok ()) : draft.build = .ok draft.file := by
  rw [build, h, hcheck]
  rfl

/-- Later steps do not change which call was the first to fail. -/
theorem error?_append {name : String} {steps : List Step} {error : FormatError}
    (h : (ofSteps name steps).error? = some error) (later : List Step) :
    (ofSteps name (steps ++ later)).error? = some error := by
  have hcalls : calls name (steps ++ later) = calls name steps ++ later.flatMap Step.calls := by
    rw [calls, calls, List.flatMap_append]
    rfl
  rw [(ofSteps_spec name steps).2.1] at h
  rw [(ofSteps_spec name _).2.1, hcalls, outcomes_append, firstFailure?, List.findSome?_append]
  exact (congrArg (Option.or · _) h).trans Option.some_or

/-- A draft fails exactly if one of the calls to its pool does, with the error of the first of them,
and whatever steps come later. If all calls succeed, the class has what was asked for, step by step
and in texts, and passes its check. -/
theorem build_of_steps (name : String) (steps : List Step) :
    (∀ error, (ofSteps name steps).build = .error error ↔
      ∃ earlier later, empty.outcomes (calls name steps) = earlier ++ .error error :: later ∧
        ∀ outcome ∈ earlier, ∃ index, outcome = .ok index) ∧
    (∀ error, (ofSteps name steps).build = .error error →
      ∀ later, (ofSteps name (steps ++ later)).build = .error error) ∧
    ((∀ outcome ∈ empty.outcomes (calls name steps), ∃ index, outcome = .ok index) →
      ∃ file, (ofSteps name steps).build = .ok file ∧ file.check = .ok () ∧
        file.pool = empty.afterCalls (calls name steps) ∧ file.Meets (.ofSteps name steps)) := by
  obtain ⟨hpool, herror, hmeets⟩ := ofSteps_spec name steps
  have hsound := (sound_empty.afterCalls (calls name steps)).1
  rw [← hpool] at hsound
  have hcheck (hnone : (ofSteps name steps).error? = none) :
      (ofSteps name steps).file.check = .ok () :=
    (hmeets hnone).check hsound.check
  -- The check has nothing to add to the errors of the calls.
  have hfails (error : FormatError) :
      (ofSteps name steps).build = .error error ↔ (ofSteps name steps).error? = some error := by
    cases hfirst : (ofSteps name steps).error? with
    | none => simp [build_of_check hfirst (hcheck hfirst)]
    | some first => simp [build_of_error hfirst]
  refine ⟨?_, ?_, ?_⟩
  · intro error
    rw [hfails, herror, firstFailure?_eq_some_iff]
  · intro error hbuild later
    exact build_of_error (error?_append ((hfails error).mp hbuild) later)
  · intro hall
    have hnone := herror.trans (firstFailure?_eq_none_iff.mpr hall)
    exact ⟨_, build_of_check hnone (hcheck hnone), hcheck hnone, hpool, hmeets hnone⟩

/-- Steps of all kinds that ask for attributes. -/
def sampleSteps : List Step :=
  [.interface "I",
    .constantField (.ofFlags [.static]) "count" 7 ["LMarker;", "LOther;"],
    .method (.ofFlags [.public]) "run" "()V" (some ⟨0, 1, [0xB1]⟩),
    .annotated "LMarker;",
    .raw "SourceFile" [0, 2]]

/-- A text of letters that are stored in one byte each. -/
def letters (count : Nat) : String := String.ofList (List.replicate count 'a')

theorem length_encode_letters (count : Nat) :
    (ModifiedUtf8.encode (letters count)).length = count := by
  have hchar : ModifiedUtf8.encodeChar 'a' = [97] := by decide
  rw [letters, ModifiedUtf8.encode_eq_flatMap, String.toList_ofList, List.flatMap_replicate, hchar,
    List.flatten_replicate_singleton, List.length_replicate]

/-- A class whose name does not fit the pool is refused before anything is looked up. -/
theorem run_internClass_of_lt {name : String} (pool : ConstantPool)
    (h : maxCount < (ModifiedUtf8.encode name).length) : (internClass name).run pool =
      (.error (.limitExceeded .utf8Length (ModifiedUtf8.encode name).length), pool) := by
  have hrun : (internText name).run pool =
      (.error (.limitExceeded .utf8Length (ModifiedUtf8.encode name).length), pool) := by
    rw [internText]
    dsimp only
    rw [if_pos h]
    rfl
  exact run_bind_of_error hrun

theorem build_of_steps_samples :
    (∃ file, (ofSteps "E" sampleSteps).build = .ok file ∧ file.check = .ok () ∧
      file.Meets (.ofSteps "E" sampleSteps)) ∧
    (ofSteps "E" [.interface (letters 65536), .raw (letters 65537) []]).build =
      .error (.limitExceeded .utf8Length 65536) := by
  have houtcomes : ∀ outcome ∈ empty.outcomes (calls "E" sampleSteps),
      ∃ index, outcome = .ok index := by
    refine firstFailure?_eq_none_iff.mp ?_
    decide +kernel
  -- The interface is too long by one byte, and the text after it by two: the first one is reported.
  have hlong : maxCount < (ModifiedUtf8.encode (letters 65536)).length := by
    rw [length_encode_letters]
    decide
  have hcalls : calls "E" [.interface (letters 65536)] =
      calls "E" [] ++ [.class (letters 65536)] := rfl
  have houtcomes' : empty.outcomes (calls "E" [.interface (letters 65536)]) =
      empty.outcomes (calls "E" []) ++ [.error (.limitExceeded .utf8Length 65536)] := by
    rw [hcalls, outcomes_append, outcomes, Addition.change, run_internClass_of_lt _ hlong,
      length_encode_letters, outcomes]
  obtain ⟨-, -, hbuilds⟩ := build_of_steps "E" sampleSteps
  obtain ⟨file, hbuild, hcheck, -, hmeets⟩ := hbuilds houtcomes
  refine ⟨⟨file, hbuild, hcheck, hmeets⟩, ?_⟩
  obtain ⟨hfails, hstays, -⟩ := build_of_steps "E" [.interface (letters 65536)]
  refine hstays _ ((hfails _).mpr ⟨_, [], houtcomes', firstFailure?_eq_none_iff.mp ?_⟩) _
  decide +kernel

end Draft

end ClassThaw
